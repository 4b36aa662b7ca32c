import Logion.Lib.Effect
import Logion.Loc.Effects

/-!
# InPlace — methods that write to the instance they are called on

The methods of `LocRequestAggregateRoot` change the instance statement by statement, so that a method
that throws half-way leaves what it had already written.  `LocRequest.step` forgets that instance, as
the services do.  Here the additions, the removals and `preClose` are translated statement by
statement, over `Effect`.

* `Refines m f`: the method `m` throws exactly when `f` does, before any write, and otherwise leaves
  the LOC that `f` returns.
* `refines_addItem`, `refines_removeItem`, `refines_preClose`.
-/

namespace Logion

open Keyed Effect Fallible

/-- A method of the instance. -/
abbrev Method := Eff LocRequest Err

namespace InPlace

open LocRequest

/-! ### Additions and removals -/

def addItem (k : ItemKind) (key : String) (submitter : AccountId) (data : ItemData k)
    (submissionType : SubmissionType) (now : Moment) : Method Unit := do
  liftM ((← get).ensureEditable (some submissionType))
  if ((← get).item? k key).isSome then throw (.error (alreadyAdded k))
  let l ← get
  let item : Item k := {
    key := key
    index := (l.items k).length
    submitter := submitter
    lifecycle := EmbeddableLifecycle.fromSubmissionType submissionType now
    data := data
    toAdd := true }
  set (l.setItems k (l.items k ++ [item]))

/-- `deleteChild`: push the child to the children to delete, then take it out of the children. -/
def deleteChild {k : ItemKind} (child : Item k) : Method Unit := do
  modify fun l => l.setItemsToDelete k (l.itemsToDelete k ++ [child])
  modify fun l => l.setItems k (eraseFirst Item.key child.key (l.items k))

def deleteIndexedChild {k : ItemKind} (child : Item k) : Method Unit := do
  deleteChild child
  modify fun l => l.setItems k (reindexChildren child.index (l.items k))

def removeItem (k : ItemKind) (remover : AccountId) (key : String) : Method Unit := do
  liftM ((← get).ensureEditable none)
  match (← get).item? k key with
  | none => throw (.error (noItemToRemove k))
  | some item =>
    if !canRemove remover item then throw (.error "Item removal not allowed")
    if item.status = .acknowledged ∨ item.status = .published then
      throw (.error (onlyDraftRemovable k))
    deleteIndexedChild item

/-! ### Closing -/

/-- `mutateAllItems`, item after item: the items before the one that throws are already changed. -/
def mutateAll {k : ItemKind} (mutator : Item k → Except Err EmbeddableLifecycle)
    (filter : Item k → Bool) : List (Item k) → Except Err Unit × List (Item k)
  | [] => (.ok (), [])
  | item :: items =>
    if filter item then
      match mutator item with
      | .error e => (.error e, item :: items)
      | .ok lifecycle =>
        let (result, items') := mutateAll mutator filter items
        (result, { item with lifecycle := lifecycle, toUpdate := true } :: items')
    else
      let (result, items') := mutateAll mutator filter items
      (result, item :: items')

def mutateAllItems (k : ItemKind) (mutator : Item k → Except Err EmbeddableLifecycle)
    (filter : Item k → Bool) : Method Unit := do
  let (result, items) := mutateAll mutator filter ((← get).items k)
  modify fun l => l.setItems k items
  liftM result

def ackAllItemsByOwner : Method Unit := do
  let l ← get
  let mutator {k : ItemKind} (item : Item k) :=
    item.lifecycle.preAcknowledge (l.isVerifiedIssuer item.submitter) false none
  mutateAllItems .metadata mutator (fun _ => true)
  mutateAllItems .file mutator (fun _ => true)
  mutateAllItems .link mutator (fun _ => true)

/-- The first statement of `preClose`. -/
def checkItemsAndAck (autoAck : Bool) : Method Unit :=
  if autoAck then do
    liftM ((← get).ensureAllItemsAckedOrPublishedOnChain)
    liftM ((← get).ensureAllItemsAckedByVerifiedIssuerOnChain)
    ackAllItemsByOwner
  else do
    liftM ((← get).ensureAllItemsAckedOnChain)
    pure ()

/-- The second one. -/
def closeIfOpen : Method Unit := do
  if (← get).status = .opened then modify fun l => { l with status := .closed }

def preClose (autoAck : Bool) : Method Unit := do
  checkItemsAndAck autoAck
  closeIfOpen

/-! ### Refinement -/

/-- Called on `l`, `m` throws what `f` throws, before any write, or leaves what `f` returns. -/
def RefinesAt (m : Method Unit) (f : LocRequest → Except Err LocRequest) (l : LocRequest) : Prop :=
  exec m l = match f l with
    | .ok l' => (.ok (), l')
    | .error e => (.error e, l)

def Refines (m : Method Unit) (f : LocRequest → Except Err LocRequest) : Prop :=
  ∀ l, RefinesAt m f l

variable {m : Method Unit} {f : LocRequest → Except Err LocRequest} {l l' : LocRequest} {e : Err}

theorem Refines.of_ok (h : Refines m f) (hf : f l = .ok l') : exec m l = (.ok (), l') := by
  rw [h l, hf]

theorem Refines.of_error (h : Refines m f) (hf : f l = .error e) : exec m l = (.error e, l) := by
  rw [h l, hf]

/-- A check made before the rest of a method. -/
theorem refinesAt_check {check : LocRequest → Except Err Unit}
    (h : check l = .ok () → RefinesAt m f l) :
    RefinesAt (do liftM (check (← get)); m) (fun l => do check l; f l) l := by
  show exec (get >>= fun l₀ => liftM (check l₀) >>= fun _ => m) l = _
  rw [exec_bind_ok (exec_get l)]
  dsimp only
  cases hc : check l with
  | error e => exact exec_bind_error rfl
  | ok _ => exact (exec_bind_ok rfl).trans (h hc)

theorem refines_addItem (k : ItemKind) (key : String) (submitter : AccountId) (data : ItemData k)
    (submissionType : SubmissionType) (now : Moment) :
    Refines (addItem k key submitter data submissionType now)
      (fun l => l.addItem k key submitter data submissionType now) := by
  refine fun l => refinesAt_check fun _ => ?_
  unfold RefinesAt
  rw [exec_bind_ok (exec_get l)]
  dsimp only
  by_cases hin : (l.item? k key).isSome
  · rw [if_pos hin, if_pos hin]
    rfl
  · rw [if_neg hin, if_neg hin]
    rfl

theorem exec_deleteIndexedChild {k : ItemKind} (child : Item k) (l : LocRequest) :
    exec (deleteIndexedChild child) l = (.ok (),
      (l.setItems k (reindexChildren child.index (eraseFirst Item.key child.key (l.items k)))
        ).setItemsToDelete k (l.itemsToDelete k ++ [child])) := by
  cases k <;> rfl

theorem refines_removeItem (k : ItemKind) (remover : AccountId) (key : String) :
    Refines (removeItem k remover key) (fun l => l.removeItem k remover key) := by
  refine fun l => refinesAt_check fun _ => ?_
  unfold RefinesAt
  rw [exec_bind_ok (exec_get l)]
  dsimp only
  cases hit : l.item? k key with
  | none => rfl
  | some item =>
    dsimp only
    by_cases hcan : (!canRemove remover item) = true
    · rw [if_pos hcan, if_pos hcan]
      rfl
    · rw [if_neg hcan, if_neg hcan]
      by_cases hst : item.status = .acknowledged ∨ item.status = .published
      · rw [if_pos hst, if_pos hst]
        rfl
      · rw [if_neg hst, if_neg hst]
        exact exec_deleteIndexedChild item l

/-- Where no selected item throws, the loop does what `mapM` does. -/
theorem mutateAll_of_ok {k : ItemKind} {mutator : Item k → Except Err EmbeddableLifecycle}
    {filter : Item k → Bool} {items items' : List (Item k)}
    (h : Logion.mutateAllItems mutator items filter = .ok items') :
    mutateAll mutator filter items = (.ok (), items') := by
  induction items generalizing items' with
  | nil =>
    cases h
    rfl
  | cons item items ih =>
    obtain ⟨item₁, items₁, h1, h2, rfl⟩ := mapM_cons_eq_ok.mp h
    have hrest := ih h2
    by_cases hsel : filter item
    · rw [if_pos hsel] at h1
      obtain ⟨c, hc, h1⟩ := bind_eq_ok.mp h1
      cases h1
      rw [mutateAll, if_pos hsel, hc, hrest]
    · rw [if_neg hsel] at h1
      cases h1
      rw [mutateAll, if_neg hsel, hrest]

theorem exec_mutateAllItems {k : ItemKind} {mutator : Item k → Except Err EmbeddableLifecycle}
    {filter : Item k → Bool} {items' : List (Item k)}
    (h : Logion.mutateAllItems mutator (l.items k) filter = .ok items') :
    exec (mutateAllItems k mutator filter) l = (.ok (), l.setItems k items') := by
  show exec (get >>= fun l₀ => _) l = _
  rw [exec_bind_ok (exec_get l)]
  rw [mutateAll_of_ok h]
  rfl

theorem exec_ackAllItemsByOwner (h : l.ackAllItemsByOwner = .ok l') :
    exec ackAllItemsByOwner l = (.ok (), l') := by
  obtain ⟨metadata, hm, h⟩ := bind_eq_ok.mp h
  obtain ⟨files, hf, h⟩ := bind_eq_ok.mp h
  obtain ⟨links, hl, h⟩ := bind_eq_ok.mp h
  cases h
  show exec (get >>= fun l₀ => _) l = _
  rw [exec_bind_ok (exec_get l), exec_bind_ok (exec_mutateAllItems (k := .metadata) hm),
    exec_bind_ok (exec_mutateAllItems (l := l.setItems .metadata metadata) (k := .file) hf)]
  exact exec_mutateAllItems (l := (l.setItems .metadata metadata).setItems .file files)
    (k := .link) hl

theorem exec_closeIfOpen (l : LocRequest) :
    exec closeIfOpen l = (.ok (), if l.status = .opened then { l with status := .closed } else l) := by
  unfold closeIfOpen
  rw [exec_bind_ok (exec_get l)]
  by_cases hst : l.status = .opened
  · rw [if_pos hst, if_pos hst]
    rfl
  · rw [if_neg hst, if_neg hst]
    rfl

/-- A method followed by a write that never throws. -/
theorem Refines.andThen {m₂ : Method Unit} {g : LocRequest → LocRequest} (h : Refines m f)
    (hg : ∀ l, exec m₂ l = (.ok (), g l)) :
    Refines (do m; m₂) (fun l => do
      let l' ← f l
      return g l') := by
  intro l
  unfold RefinesAt
  dsimp only
  cases hf : f l with
  | error e => exact exec_bind_error (h.of_error hf)
  | ok l' => exact (exec_bind_ok (h.of_ok hf)).trans (hg l')

/-- With `autoAck` the two checks come before any write, and what they accept does not throw. -/
theorem refines_checkItemsAndAck (autoAck : Bool) :
    Refines (checkItemsAndAck autoAck) (fun l => if autoAck then do
        l.ensureAllItemsAckedOrPublishedOnChain
        l.ensureAllItemsAckedByVerifiedIssuerOnChain
        l.ackAllItemsByOwner
      else do
        l.ensureAllItemsAckedOnChain
        pure l) := by
  intro l
  cases autoAck with
  | false => exact refinesAt_check fun _ => rfl
  | true =>
    refine refinesAt_check fun hfirst => refinesAt_check fun _ => ?_
    obtain ⟨l', hack⟩ := ackAllItemsByOwner_returns hfirst
    unfold RefinesAt
    rw [hack]
    exact exec_ackAllItemsByOwner hack

theorem refines_preClose (autoAck : Bool) : Refines (preClose autoAck) (·.preClose autoAck) :=
  (refines_checkItemsAndAck autoAck).andThen exec_closeIfOpen

end InPlace

end Logion
