import Logion.Lib.Transactions
import Logion.Store.SavedChildren

/-!
# LocTables — the tables of a LOC, and the statements that save it

`LocRequestRepository.save` saves the root, then the files, the metadata items, the links and the
secrets.  `manager.save(root)` reads the row of the root again and writes the columns of the instance
that differ from it; the relations do not cascade.

* `RootRow`, `LocRequest.saveRoot`: the row of the root and the UPDATE that saves it.
* `LocRequest.save`: the statements of a save, in their order.
* `FindById`: the instances that `findById` loads.
* `after_saveRoot`, `afterAll_save`, `foldlM_exec`: what the statements make of the tables.
-/

namespace Logion

open Fallible Table ReadCommitted

/-! ### The root -/

/-- A row of `loc_request`. -/
structure RootRow where
  id : UUID
  status : LocRequestStatus
  requesterAddress : Option String
  requesterAddressType : Option AccountType
  ownerAddress : String
  locType : LocType
  decisionOn : Option Moment
  rejectReason : Option String
  createdOn : Option Moment
  closedOn : Option Moment
  locCreatedOn : Option Moment
  voidReason : Option String
  voidedOn : Option Moment
  idenfyAuthToken : Option String
  idenfyScanRef : Option String
  idenfyStatus : Option IdenfyStatus
  idenfyCallbackPayload : Option String
  deriving DecidableEq

def LocRequest.rootRow (l : LocRequest) : RootRow where
  id := l.id
  status := l.status
  requesterAddress := l.requester.map AccountId.address
  requesterAddressType := l.requester.map AccountId.type
  ownerAddress := l.ownerAddress
  locType := l.locType
  decisionOn := l.decisionOn
  rejectReason := l.rejectReason
  createdOn := l.createdOn
  closedOn := l.closedOn
  locCreatedOn := l.locCreatedOn
  voidReason := l.voidInfo.bind VoidInfo.reason
  voidedOn := l.voidInfo.bind VoidInfo.voidedOn
  idenfyAuthToken := l.iDenfyVerification.bind IdenfyVerification.authToken
  idenfyScanRef := l.iDenfyVerification.bind IdenfyVerification.scanRef
  idenfyStatus := l.iDenfyVerification.bind IdenfyVerification.status
  idenfyCallbackPayload := l.iDenfyVerification.bind IdenfyVerification.callbackPayload

/-- One column after the UPDATE: it is written if the instance differs from the row read again. -/
def writeColumn {α : Type} [DecidableEq α] (entity reread current : α) : α :=
  if entity = reread then current else entity

/-- The row after the UPDATE.  The primary key is never written. -/
def RootRow.write (entity reread current : RootRow) : RootRow where
  id := current.id
  status := writeColumn entity.status reread.status current.status
  requesterAddress :=
    writeColumn entity.requesterAddress reread.requesterAddress current.requesterAddress
  requesterAddressType :=
    writeColumn entity.requesterAddressType reread.requesterAddressType current.requesterAddressType
  ownerAddress := writeColumn entity.ownerAddress reread.ownerAddress current.ownerAddress
  locType := writeColumn entity.locType reread.locType current.locType
  decisionOn := writeColumn entity.decisionOn reread.decisionOn current.decisionOn
  rejectReason := writeColumn entity.rejectReason reread.rejectReason current.rejectReason
  createdOn := writeColumn entity.createdOn reread.createdOn current.createdOn
  closedOn := writeColumn entity.closedOn reread.closedOn current.closedOn
  locCreatedOn := writeColumn entity.locCreatedOn reread.locCreatedOn current.locCreatedOn
  voidReason := writeColumn entity.voidReason reread.voidReason current.voidReason
  voidedOn := writeColumn entity.voidedOn reread.voidedOn current.voidedOn
  idenfyAuthToken := writeColumn entity.idenfyAuthToken reread.idenfyAuthToken current.idenfyAuthToken
  idenfyScanRef := writeColumn entity.idenfyScanRef reread.idenfyScanRef current.idenfyScanRef
  idenfyStatus := writeColumn entity.idenfyStatus reread.idenfyStatus current.idenfyStatus
  idenfyCallbackPayload := writeColumn entity.idenfyCallbackPayload reread.idenfyCallbackPayload
    current.idenfyCallbackPayload

/-- `manager.save(root)`, after the row was read again: no statement when no column differs. -/
def LocRequest.saveRoot (l : LocRequest) (reread : RootRow) : List (Statement RootRow) :=
  if l.rootRow = reread then []
  else [.update (fun r => r.id = l.id) (l.rootRow.write reread)]

/-! ### The tables -/

/-- The tables of a LOC. -/
inductive LocTable
  | root
  | items (k : ItemKind)
  | secrets
  deriving DecidableEq

abbrev LocRow : LocTable → Type
  | .root => RootRow
  | .items k => ItemRow k
  | .secrets => SecretRow

/-- The primary key of the root is `id`. -/
def LocRow.clash : (T : LocTable) → LocRow T → LocRow T → Prop
  | .root => fun r r' => RootRow.id r = RootRow.id r'
  | .items _ => ItemRow.clash
  | .secrets => SecretRow.clash

instance : (T : LocTable) → DecidableRel (LocRow.clash T)
  | .root => fun r r' => inferInstanceAs (Decidable (RootRow.id r = RootRow.id r'))
  | .items k => inferInstanceAs (DecidableRel (ItemRow.clash (k := k)))
  | .secrets => inferInstanceAs (DecidableRel SecretRow.clash)

/-- What is stored, or what a transaction sees. -/
abbrev LocRows := (T : LocTable) → List (LocRow T)

def LocRows.root (rows : LocRows) : List RootRow := rows .root

def LocRows.children (rows : LocRows) : ChildTables := ⟨fun k => rows (.items k), rows .secrets⟩

/-- `findById`: one query for the root and its children, whose rows come in any order. -/
structure FindById (rows : LocRows) (requestId : UUID) (l : LocRequest) : Prop where
  root : l.rootRow ∈ rows.root
  children : Loads rows.children requestId l

def ChildStatement.onTable : ChildStatement → TableStatement LocRow
  | .item k s => ⟨.items k, s⟩
  | .secret s => ⟨.secrets, s⟩

/-- `LocRequestRepository.save`, after the row of the root was read again. -/
def LocRequest.save (l : LocRequest) (reread : RootRow) : List (TableStatement LocRow) :=
  (l.saveRoot reread).map (fun s => ⟨.root, s⟩) ++ l.saveStatements.map ChildStatement.onTable

/-! ### The UPDATE of the root -/

section Root

variable {α : Type} [DecidableEq α]

@[simp] theorem writeColumn_reread (entity reread : α) : writeColumn entity reread reread = entity := by
  unfold writeColumn
  split_ifs with h
  · exact h.symm
  · rfl

@[simp] theorem writeColumn_self (entity current : α) : writeColumn entity entity current = current :=
  if_pos rfl

/-- The row has not changed since it was read again. -/
theorem RootRow.write_reread {entity reread : RootRow} (h : entity.id = reread.id) :
    entity.write reread reread = entity := by
  cases entity
  cases h
  simp [write]

/-- No column is written. -/
theorem RootRow.write_self (entity current : RootRow) : entity.write entity current = current := by
  simp [write]

/-- What the save of the root makes of the table. -/
theorem after_saveRoot (l : LocRequest) (reread : RootRow) (rows : List RootRow) :
    after (l.saveRoot reread) rows =
      rows.map fun r => if r.id = l.id then l.rootRow.write reread r else r := by
  unfold LocRequest.saveRoot
  split_ifs with h
  · rw [h]
    simp [after, RootRow.write_self]
  · simp [after, Statement.rows]

end Root

/-! ### The tables of a save -/

section Tables

variable {l : LocRequest} {reread : RootRow} {k k' : ItemKind}

/-- The UPDATE of the root concerns no child, and the other statements no root. -/
theorem afterAll_save (rows : LocRows) : LocRows.root (afterAll (l.save reread) rows) =
      after (l.saveRoot reread) rows.root ∧
    LocRows.children (afterAll (l.save reread) rows) =
      LocRows.children (afterAll (l.saveStatements.map ChildStatement.onTable) rows) := by
  have hroot : ∀ T, T ≠ .root → statementsOn T (l.save reread) =
      statementsOn T (l.saveStatements.map ChildStatement.onTable) := by
    intro T hT
    rw [LocRequest.save, statementsOn_append, statementsOn_map_of_ne LocRow .root hT.symm,
      List.nil_append]
  have hchild : statementsOn .root (l.saveStatements.map ChildStatement.onTable) = [] := by
    rw [statementsOn, List.filterMap_eq_nil_iff]
    intro s hs
    obtain ⟨c, -, rfl⟩ := List.mem_map.mp hs
    cases c <;> rfl
  refine ⟨?_, ?_⟩
  · unfold LocRows.root afterAll
    rw [LocRequest.save, statementsOn_append, hchild, List.append_nil,
      statementsOn_map_self LocRow .root]
  · unfold LocRows.children afterAll
    rw [hroot .secrets (by simp)]
    simp only [hroot (.items _) (by simp)]

theorem children_update_items (rows : LocRows) (xs : List (ItemRow k)) :
    LocRows.children (Function.update rows (.items k) xs) = rows.children.setItems k xs := by
  unfold LocRows.children ChildTables.setItems
  congr 1
  funext k'
  by_cases h : k' = k
  · subst h
    rw [Function.update_self, Function.update_self]
  · rw [Function.update_of_ne (by simpa using h), Function.update_of_ne h]

theorem children_update_secrets (rows : LocRows) (xs : List SecretRow) :
    LocRows.children (Function.update rows .secrets xs) = { rows.children with secrets := xs } := by
  unfold LocRows.children
  congr 1

/-- A save of the children that violates no constraint. -/
theorem foldlM_exec {ss : List ChildStatement} {rows : LocRows} {children : ChildTables}
    (h : ss.foldlM ChildStatement.exec rows.children = .ok children) :
    children = LocRows.children (afterAll (ss.map ChildStatement.onTable) rows) := by
  induction ss generalizing rows with
  | nil =>
    cases h
    rfl
  | cons s ss ih =>
    rw [List.foldlM_cons] at h
    obtain ⟨children₁, h₁, h⟩ := bind_eq_ok.mp h
    rw [List.map_cons, afterAll_cons]
    refine ih ?_
    cases s with
    | item k s =>
      obtain ⟨xs, hxs, h₁⟩ := bind_eq_ok.mp h₁
      cases h₁
      rw [(exec_ok.mp hxs).2, ← children_update_items] at h
      exact h
    | secret s =>
      obtain ⟨xs, hxs, h₁⟩ := bind_eq_ok.mp h₁
      cases h₁
      rw [(exec_ok.mp hxs).2, ← children_update_secrets] at h
      exact h

end Tables

/-! ### Instances without markers -/

/-- No child is marked. -/
structure LocRequest.Unmarked (l : LocRequest) : Prop where
  items : ∀ k, ∀ item ∈ l.items k, item.toAdd = false ∧ item.toUpdate = false
  itemsToDelete : ∀ k, l.itemsToDelete k = []
  secrets : ∀ secret ∈ l.secrets, secret.toAdd = false
  secretsToDelete : l.secretsToDelete = []

theorem FindById.isUnmarked {rows : LocRows} {requestId : UUID} {l : LocRequest}
    (h : FindById rows requestId l) : l.Unmarked where
  items := h.children.unmarked
  itemsToDelete := h.children.itemsToDelete
  secrets := h.children.unmarkedSecrets
  secretsToDelete := h.children.secretsToDelete

/-- No child at all. -/
structure LocRequest.Childless (l : LocRequest) : Prop where
  items : ∀ k, l.items k = [] ∧ l.itemsToDelete k = []
  secrets : l.secrets = [] ∧ l.secretsToDelete = []

theorem LocRequest.Childless.unmarked {l : LocRequest} (h : l.Childless) : l.Unmarked where
  items k item hmem := by simp [(h.items k).1] at hmem
  itemsToDelete k := (h.items k).2
  secrets secret hmem := by simp [h.secrets.1] at hmem
  secretsToDelete := h.secrets.2

/-- They save no child. -/
theorem LocRequest.Unmarked.saveStatements {l : LocRequest} (h : l.Unmarked) :
    l.saveStatements = [] := by
  have hitems : ∀ k, l.saveItems k = [] := by
    intro k
    unfold LocRequest.saveItems ChildParameters.saveIndexedChildren ChildParameters.saveChildren
    rw [h.itemsToDelete k, List.map_nil, List.nil_append, List.flatMap_eq_nil_iff]
    intro item hmem
    obtain ⟨hadd, hupdate⟩ := h.items k item ((order_perm _).subset hmem)
    simp [ChildParameters.saveChild, itemParameters, hadd, hupdate]
  have hsecrets : l.saveSecrets = [] := by
    unfold LocRequest.saveSecrets ChildParameters.saveChildren
    rw [h.secretsToDelete, List.map_nil, List.nil_append, List.flatMap_eq_nil_iff]
    intro secret hmem
    simp [ChildParameters.saveChild, secretParameters, h.secrets secret hmem]
  unfold LocRequest.saveStatements LocRequest.saveFiles LocRequest.saveMetadata LocRequest.saveLinks
  simp [hitems, hsecrets]

theorem LocRequest.Unmarked.save {l : LocRequest} (h : l.Unmarked) (reread : RootRow) :
    l.save reread = (l.saveRoot reread).map fun s => ⟨.root, s⟩ := by
  rw [LocRequest.save, h.saveStatements]
  exact List.append_nil _

/-! ### Loaded instances -/

theorem FindById.rootRow_id {rows : LocRows} {requestId : UUID} {l : LocRequest}
    (h : FindById rows requestId l) : l.rootRow.id = requestId := h.children.id

theorem FindById.perm {rows rows' : LocRows} {requestId : UUID} {l : LocRequest}
    (h : FindById rows requestId l) (hperm : ∀ T, (rows T).Perm (rows' T)) :
    FindById rows' requestId l where
  root := (hperm .root).subset h.root
  children := { h.children with
    items := fun k => (h.children.items k).trans ((hperm (.items k)).filter _)
    secrets := h.children.secrets.trans ((hperm .secrets).filter _) }

end Logion
