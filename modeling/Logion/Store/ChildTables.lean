import Logion.Model.Factory
import Logion.Store.Children

/-!
# ChildTables — the tables of files, metadata items, links and secrets

A row of an item has the id of its LOC and the columns of the item.  The primary key is the id with
the file hash, the name hash or the target; the id with the index is unique too.  Secrets have no
index.

* `ChildTables`: the four tables.
* `saveFiles`, `saveMetadata`, `saveLinks`, `saveSecrets`: the statements that save a LOC, and
  `ChildTables.save` their execution.
* `Loads`: the instances that the repository loads.
* `save_eq_ok`: the four tables are saved independently.
-/

namespace Logion

open Fallible Table

/-! ### Rows -/

@[simp] theorem Item.row_row {k : ItemKind} (item : Item k) : item.row.row = item.row := by
  cases k <;> rfl

/-- A row of `loc_request_file`, `loc_metadata_item` or `loc_link`. -/
structure ItemRow (k : ItemKind) where
  requestId : UUID
  columns : Item k
  plain : columns.row = columns

def Item.toRow {k : ItemKind} (requestId : UUID) (item : Item k) : ItemRow k :=
  ⟨requestId, item.row, item.row_row⟩

/-- A row of `loc_secret`. -/
structure SecretRow where
  requestId : UUID
  name : String
  value : String
  deriving DecidableEq

def RecoverableSecret.toRow (requestId : UUID) (secret : RecoverableSecret) : SecretRow :=
  ⟨requestId, secret.name, secret.value⟩

/-- The primary key `(request_id, key)`, or the unique index `(request_id, index)`. -/
def ItemRow.clash {k : ItemKind} (r r' : ItemRow k) : Prop :=
  r.requestId = r'.requestId ∧
    (r.columns.key = r'.columns.key ∨ r.columns.index = r'.columns.index)

/-- The primary key `(request_id, name)`. -/
def SecretRow.clash (r r' : SecretRow) : Prop := r.requestId = r'.requestId ∧ r.name = r'.name

instance {k : ItemKind} : DecidableRel (ItemRow.clash (k := k)) :=
  fun r r' => inferInstanceAs (Decidable (r.requestId = r'.requestId ∧
    (r.columns.key = r'.columns.key ∨ r.columns.index = r'.columns.index)))

instance : DecidableRel SecretRow.clash :=
  fun r r' => inferInstanceAs (Decidable (r.requestId = r'.requestId ∧ r.name = r'.name))

theorem ItemRow.clash_symm {k : ItemKind} (r r' : ItemRow k) (h : r.clash r') : r'.clash r :=
  ⟨h.1.symm, h.2.imp Eq.symm Eq.symm⟩

theorem SecretRow.clash_symm (r r' : SecretRow) (h : r.clash r') : r'.clash r :=
  ⟨h.1.symm, h.2.symm⟩

structure ChildTables where
  items : (k : ItemKind) → List (ItemRow k)
  secrets : List SecretRow

/-- The rows of one LOC. -/
def ChildTables.rowsOf (db : ChildTables) (requestId : UUID) (k : ItemKind) : List (ItemRow k) :=
  (db.items k).filter (·.requestId = requestId)

def ChildTables.secretsOf (db : ChildTables) (requestId : UUID) : List SecretRow :=
  db.secrets.filter (·.requestId = requestId)

/-! ### The statements of a save -/

/-- The WHERE clauses: metadata items are selected by name, not by name hash. -/
def itemWhere (requestId : UUID) : (k : ItemKind) → Item k → ItemRow k → Bool
  | .file, file, r => r.requestId = requestId && r.columns.key = file.key
  | .metadata, item, r =>
    let data : MetadataData := item.data
    let columns : MetadataData := r.columns.data
    r.requestId = requestId && columns.name = data.name
  | .link, link, r => r.requestId = requestId && r.columns.key = link.key

def itemParameters (requestId : UUID) (k : ItemKind) : ChildParameters (Item k) (ItemRow k) where
  toAdd := Item.toAdd
  toUpdate := Item.toUpdate
  row := Item.toRow requestId
  whereExpression := itemWhere requestId k

/-- Secrets are never updated. -/
def secretParameters (requestId : UUID) : ChildParameters RecoverableSecret SecretRow where
  toAdd := RecoverableSecret.toAdd
  toUpdate _ := false
  row := RecoverableSecret.toRow requestId
  whereExpression secret r := r.requestId = requestId && r.name = secret.name

namespace LocRequest

def saveItems (l : LocRequest) (k : ItemKind) : List (Statement (ItemRow k)) :=
  (itemParameters l.id k).saveIndexedChildren Item.index (l.items k) (l.itemsToDelete k)

def saveFiles (l : LocRequest) := l.saveItems .file

def saveMetadata (l : LocRequest) := l.saveItems .metadata

def saveLinks (l : LocRequest) := l.saveItems .link

def saveSecrets (l : LocRequest) : List (Statement SecretRow) :=
  (secretParameters l.id).saveChildren l.secrets l.secretsToDelete

end LocRequest

/-- A statement on one of the four tables. -/
inductive ChildStatement
  | item (k : ItemKind) (s : Statement (ItemRow k))
  | secret (s : Statement SecretRow)

/-- The statements of `save`, after that of the root. -/
def LocRequest.saveStatements (l : LocRequest) : List ChildStatement :=
  l.saveFiles.map (.item .file) ++ l.saveMetadata.map (.item .metadata) ++
    l.saveLinks.map (.item .link) ++ l.saveSecrets.map .secret

namespace ChildTables

def setItems (db : ChildTables) (k : ItemKind) (rows : List (ItemRow k)) : ChildTables :=
  { db with items := Function.update db.items k rows }

end ChildTables

def ChildStatement.exec (db : ChildTables) : ChildStatement → Except Violation ChildTables
  | .item k s => do return db.setItems k (← s.exec ItemRow.clash (db.items k))
  | .secret s => do return { db with secrets := ← s.exec SecretRow.clash db.secrets }

namespace ChildTables

/-- `saveFiles`, `saveMetadata`, `saveLinks` and `saveSecrets`. -/
def save (db : ChildTables) (l : LocRequest) : Except Violation ChildTables :=
  l.saveStatements.foldlM ChildStatement.exec db

/-! ### The four tables are independent -/

variable {db db' : ChildTables} {k k' : ItemKind}

@[simp] theorem items_setItems_self (rows : List (ItemRow k)) : (db.setItems k rows).items k = rows :=
  Function.update_self ..

theorem items_setItems_of_ne (h : k' ≠ k) (rows : List (ItemRow k)) :
    (db.setItems k rows).items k' = db.items k' := Function.update_of_ne h ..

theorem setItems_setItems (rows rows' : List (ItemRow k)) :
    (db.setItems k rows).setItems k rows' = db.setItems k rows' := by
  simp [setItems]

@[simp] theorem setItems_items : db.setItems k (db.items k) = db := by
  simp [setItems]

/-- The statements of one table of items. -/
theorem exec_items (db : ChildTables) {ss : List (Statement (ItemRow k))} {rows : List (ItemRow k)}
    (h : execAll ItemRow.clash ss (db.items k) = .ok rows) :
    (ss.map (ChildStatement.item k)).foldlM ChildStatement.exec db = .ok (db.setItems k rows) := by
  induction ss generalizing db with
  | nil =>
    cases h
    simp
  | cons s ss ih =>
    rw [execAll, List.foldlM_cons] at h
    obtain ⟨rows₁, h₁, h⟩ := bind_eq_ok.mp h
    rw [List.map_cons, List.foldlM_cons, ChildStatement.exec, h₁]
    have hrest := ih (db.setItems k rows₁) (by rw [items_setItems_self]; exact h)
    rwa [setItems_setItems] at hrest

/-- The statements on the secrets. -/
theorem exec_secrets (db : ChildTables) {ss : List (Statement SecretRow)} {rows : List SecretRow}
    (h : execAll SecretRow.clash ss db.secrets = .ok rows) :
    (ss.map ChildStatement.secret).foldlM ChildStatement.exec db =
      .ok { db with secrets := rows } := by
  induction ss generalizing db with
  | nil => cases h; rfl
  | cons s ss ih =>
    rw [execAll, List.foldlM_cons] at h
    obtain ⟨rows₁, h₁, h⟩ := bind_eq_ok.mp h
    rw [List.map_cons, List.foldlM_cons, ChildStatement.exec, h₁]
    exact ih { db with secrets := rows₁ } h

/-- Each table is saved by its own statements. -/
theorem save_eq_ok {l : LocRequest} {rows : (k : ItemKind) → List (ItemRow k)}
    {secrets : List SecretRow}
    (hitems : ∀ k, execAll ItemRow.clash (l.saveItems k) (db.items k) = .ok (rows k))
    (hsecrets : execAll SecretRow.clash l.saveSecrets db.secrets = .ok secrets) :
    db.save l = .ok ⟨rows, secrets⟩ := by
  have hfiles : (l.saveFiles.map (ChildStatement.item .file)).foldlM ChildStatement.exec db =
      .ok (db.setItems .file (rows .file)) := exec_items db (hitems .file)
  have hmetadata : (l.saveMetadata.map (ChildStatement.item .metadata)).foldlM ChildStatement.exec
      (db.setItems .file (rows .file)) =
      .ok ((db.setItems .file (rows .file)).setItems .metadata (rows .metadata)) := by
    refine exec_items _ ?_
    rw [items_setItems_of_ne (by simp)]
    exact hitems .metadata
  have hlinks : (l.saveLinks.map (ChildStatement.item .link)).foldlM ChildStatement.exec
      ((db.setItems .file (rows .file)).setItems .metadata (rows .metadata)) =
      .ok (((db.setItems .file (rows .file)).setItems .metadata (rows .metadata)).setItems .link
        (rows .link)) := by
    refine exec_items _ ?_
    rw [items_setItems_of_ne (by simp), items_setItems_of_ne (by simp)]
    exact hitems .link
  have hrows : (((db.setItems .file (rows .file)).setItems .metadata (rows .metadata)).setItems
      .link (rows .link)).items = rows := by
    funext k
    cases k
    · rw [items_setItems_of_ne (by simp), items_setItems_self]
    · rw [items_setItems_of_ne (by simp), items_setItems_of_ne (by simp), items_setItems_self]
    · rw [items_setItems_self]
  have hfinal := exec_secrets (((db.setItems .file (rows .file)).setItems .metadata
    (rows .metadata)).setItems .link (rows .link)) hsecrets
  simp only [hrows] at hfinal
  unfold save LocRequest.saveStatements
  rw [List.foldlM_append, List.foldlM_append, List.foldlM_append, hfiles, ok_bind, hmetadata, ok_bind,
    hlinks, ok_bind, hfinal]

end ChildTables

end Logion
