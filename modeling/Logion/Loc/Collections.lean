import Logion.Lib.Indices
import Logion.Loc.InPlace
import Logion.Loc.Projection

/-!
# Collections — the three collections of items under additions and removals

An item carries its index in its collection.  An addition takes the length of the array as the next
index; a removal takes the item out of the array, wherever it is, and moves down by one the indices
after its own.

* `WellIndexed l`: in every collection the indices are `0, ..., n - 1` in some order, and the keys are
  distinct.
* `addItem_wellIndexed`, `removeItem_wellIndexed`: both operations keep it.
* `CollectionStep l op`: what one addition or removal does, whether it returns or throws.
* `collections_sound`: every step of every sequence of additions and removals.
-/

namespace Logion

open Keyed Effect Fallible Indices

namespace LocRequest

variable {l l' : LocRequest} {k k' : ItemKind} {key key' : String}

/-- The representation invariant of the collections. -/
structure WellIndexed (l : LocRequest) : Prop where
  indices : ∀ k, Indices.Dense ((l.items k).map Item.index)
  keys : l.DistinctKeys

/-- Different items have different indices. -/
theorem WellIndexed.index_ne (h : l.WellIndexed) {a b : Item k} (ha : l.item? k key = some a)
    (hb : l.item? k key' = some b) (hne : key' ≠ key) : b.index ≠ a.index := by
  intro heq
  have hab : b = a :=
    List.inj_on_of_nodup_map (h.indices k).nodup (mem_of_lookup hb) (mem_of_lookup ha) heq
  exact hne ((item?_key hb).symm.trans (hab ▸ item?_key ha))

/-! ### Additions -/

theorem addItem_wellIndexed {submitter : AccountId} {data : ItemData k} {type : SubmissionType}
    {now : Moment} (hl : l.WellIndexed) (h : l.addItem k key submitter data type now = .ok l') :
    l'.WellIndexed where
  indices k' := by
    obtain ⟨-, rfl⟩ := addItem_ok h
    by_cases hk : k' = k
    · subst hk
      rw [items_setItems_self, List.map_append]
      have happend := (hl.indices k').append
      rwa [List.length_map] at happend
    · rw [items_setItems_of_ne hk]
      exact hl.indices k'
  keys := addItem_distinctKeys hl.keys h

/-- The new item is there, under a key that was free. -/
theorem addItem_new {submitter : AccountId} {data : ItemData k} {type : SubmissionType} {now : Moment}
    (h : l.addItem k key submitter data type now = .ok l') :
    l.item? k key = none ∧ l'.item? k key = some {
      key := key
      index := (l.items k).length
      submitter := submitter
      lifecycle := EmbeddableLifecycle.fromSubmissionType type now
      data := data
      toAdd := true } := by
  obtain ⟨hnone, rfl⟩ := addItem_ok h
  refine ⟨hnone, ?_⟩
  rw [item?, findItem] at hnone
  rw [item?, items_setItems_self, findItem, lookup_append_singleton, hnone, Option.none_or, if_pos rfl]

/-! ### Removals -/

theorem reindexChild_index (dbIndex : ℕ) (child : Item k) :
    (reindexChild dbIndex child).index = closeGap dbIndex child.index := by
  unfold reindexChild closeGap
  split_ifs <;> rfl

/-- A child whose index changes is marked. -/
theorem reindexChild_toUpdate {dbIndex : ℕ} {child : Item k}
    (h : (reindexChild dbIndex child).index ≠ child.index) :
    (reindexChild dbIndex child).toUpdate = true := by
  unfold reindexChild at *
  split_ifs with hgt
  · rfl
  · rw [if_neg hgt] at h
    exact absurd rfl h

/-- The child, but for its place. -/
def unplaced (item : Item k) : Item k := { item with index := 0, toUpdate := false }

theorem reindexChild_unplaced (dbIndex : ℕ) (child : Item k) :
    unplaced (reindexChild dbIndex child) = unplaced child := by
  unfold reindexChild
  split_ifs <;> rfl

/-- The collection is the removed child and the others. -/
theorem items_perm_eraseFirst {child : Item k} (h : l.item? k key = some child) :
    (l.items k).Perm (child :: eraseFirst Item.key child.key (l.items k)) := by
  rw [item?_key h]
  exact perm_eraseFirst h

theorem removeItem_wellIndexed {remover : AccountId} (hl : l.WellIndexed)
    (h : l.removeItem k remover key = .ok l') : l'.WellIndexed where
  indices k' := by
    obtain ⟨removed, hrem, rfl⟩ := removeItem_ok h
    rw [items_setItemsToDelete]
    by_cases hk : k' = k
    · subst hk
      have hdense := (hl.indices k').perm ((items_perm_eraseFirst hrem).map Item.index).symm
      rw [List.map_cons] at hdense
      rw [items_setItems_self, reindexChildren_eq, List.map_map]
      have hindex : (Item.index ∘ reindexChild (k := k') removed.index) =
          closeGap removed.index ∘ Item.index :=
        funext fun child => reindexChild_index removed.index child
      rw [hindex, ← List.map_map]
      exact hdense.remove
    · rw [items_setItems_of_ne hk]
      exact hl.indices k'
  keys := removeItem_distinctKeys hl.keys h

end LocRequest

/-! ### Sequences of additions and removals -/

/-- An addition or a removal. -/
inductive CollectionOp
  | addFile (hash : Hash) (submitter : AccountId) (data : FileData)
      (submissionType : SubmissionType) (now : Moment)
  | addMetadataItem (submitter : AccountId) (name value : String)
      (submissionType : SubmissionType) (now : Moment)
  | addLink (target : UUID) (submitter : AccountId) (nature : String)
      (submissionType : SubmissionType) (now : Moment)
  | removeFile (remover : AccountId) (hash : Hash)
  | removeMetadataItem (remover : AccountId) (nameHash : Hash)
  | removeLink (remover : AccountId) (target : UUID)

namespace CollectionOp

variable [Hashing]

/-- The method called, as it writes to the instance. -/
def method : CollectionOp → Method Unit
  | addFile hash submitter data type now => InPlace.addItem .file hash submitter data type now
  | addMetadataItem submitter name value type now =>
    InPlace.addItem .metadata (Hashing.of name) submitter (⟨name, value, none⟩ : MetadataData) type now
  | addLink target submitter nature type now =>
    InPlace.addItem .link target submitter (⟨nature, none⟩ : LinkData) type now
  | removeFile remover hash => InPlace.removeItem .file remover hash
  | removeMetadataItem remover nameHash => InPlace.removeItem .metadata remover nameHash
  | removeLink remover target => InPlace.removeItem .link remover target

/-- Whether the call returns or throws. -/
def result (l : LocRequest) (op : CollectionOp) : Except Err Unit := (exec op.method l).1

/-- The instance after the call. -/
def after (l : LocRequest) (op : CollectionOp) : LocRequest := (exec op.method l).2

/-- The collection and the key that the call is about. -/
def about : CollectionOp → ItemKind × String
  | addFile hash _ _ _ _ | removeFile _ hash => (.file, hash)
  | addMetadataItem _ name _ _ _ => (.metadata, Hashing.of name)
  | removeMetadataItem _ nameHash => (.metadata, nameHash)
  | addLink target _ _ _ _ | removeLink _ target => (.link, target)

/-- The item that an addition brings, at the next index. -/
def adds (l : LocRequest) : CollectionOp → Option ((k : ItemKind) × Item k)
  | addFile hash submitter data type now =>
    some ⟨.file, item .file hash submitter data type now⟩
  | addMetadataItem submitter name value type now =>
    some ⟨.metadata,
      item .metadata (Hashing.of name) submitter (⟨name, value, none⟩ : MetadataData) type now⟩
  | addLink target submitter nature type now =>
    some ⟨.link, item .link target submitter (⟨nature, none⟩ : LinkData) type now⟩
  | _ => none
where
  item (k : ItemKind) (key : String) (submitter : AccountId) (data : ItemData k)
      (type : SubmissionType) (now : Moment) : Item k := {
    key := key
    index := (l.items k).length
    submitter := submitter
    lifecycle := EmbeddableLifecycle.fromSubmissionType type now
    data := data
    toAdd := true }

/-- The item that a removal is about. -/
def removes : CollectionOp → Option (ItemKind × String)
  | removeFile _ hash => some (.file, hash)
  | removeMetadataItem _ nameHash => some (.metadata, nameHash)
  | removeLink _ target => some (.link, target)
  | _ => none

end CollectionOp

open CollectionOp in
/-- What one addition or removal does to the collections. -/
structure CollectionStep [Hashing] (l : LocRequest) (op : CollectionOp) : Prop where
  /-- The items that are there before and after keep their relative order. -/
  order : ∀ {k key₁ key₂} {a b a' b' : Item k}, l.item? k key₁ = some a → l.item? k key₂ = some b →
    (after l op).item? k key₁ = some a' → (after l op).item? k key₂ = some b' →
    (a'.index < b'.index ↔ a.index < b.index)
  /-- An item whose index changed is marked to be updated. -/
  marked : ∀ {k key} {a a' : Item k}, l.item? k key = some a → (after l op).item? k key = some a' →
    a'.index ≠ a.index → a'.toUpdate = true
  /-- An item that disappears is in the list of the children to delete. -/
  toDelete : ∀ {k key} {a : Item k}, l.item? k key = some a → (after l op).item? k key = none →
    a ∈ (after l op).itemsToDelete k
  /-- A removal that returns found its item, which is no longer there. -/
  removed : ∀ {k key}, op.removes = some (k, key) → op.result l = .ok () →
    (l.item? k key).isSome ∧ (after l op).item? k key = none
  /-- An addition that returns adds its item at the next index, under a key that was free. -/
  added : ∀ {k} {a : Item k}, op.adds l = some ⟨k, a⟩ → op.result l = .ok () →
    l.item? k a.key = none ∧ (after l op).item? k a.key = some a
  /-- The items under other keys stay, but for their index, and no others come. -/
  others : ∀ {k key}, (k, key) ≠ op.about →
    ((after l op).item? k key).map LocRequest.unplaced = (l.item? k key).map LocRequest.unplaced
  /-- A call that throws changes nothing. -/
  failed : ∀ {e}, op.result l = .error e →
    ∀ k, (after l op).items k = l.items k ∧ (after l op).itemsToDelete k = l.itemsToDelete k

section

variable [Hashing] {l l' : LocRequest} {op : CollectionOp} {f : LocRequest → Except Err LocRequest}

/-- A call that throws. -/
theorem CollectionStep.of_error {e : Err} (hr : InPlace.Refines op.method f) (he : f l = .error e) :
    op.after l = l ∧ CollectionStep l op := by
  have hexec := hr.of_error he
  have hafter : op.after l = l := by rw [CollectionOp.after, hexec]
  have hresult : op.result l ≠ .ok () := by
    rw [CollectionOp.result, hexec]
    simp
  refine ⟨hafter, ⟨?_, ?_, ?_, ?_, ?_, ?_, ?_⟩⟩
  · intro k key₁ key₂ a b a' b' ha hb ha' hb'
    rw [hafter] at ha' hb'
    cases ha.symm.trans ha'
    cases hb.symm.trans hb'
    rfl
  · intro k key a a' ha ha' hne
    rw [hafter] at ha'
    cases ha.symm.trans ha'
    exact absurd rfl hne
  · intro k key a ha hnone
    rw [hafter, ha] at hnone
    cases hnone
  · exact fun _ hok => absurd hok hresult
  · exact fun _ hok => absurd hok hresult
  · intro k key _
    rw [hafter]
  · intro _ _ k
    rw [hafter]
    exact ⟨rfl, rfl⟩

theorem collectionStep_addItem {k : ItemKind} {key : String} {submitter : AccountId}
    {data : ItemData k} {type : SubmissionType} {now : Moment}
    (hm : op.method = InPlace.addItem k key submitter data type now) (habout : op.about = (k, key))
    (hadds : op.adds l = some ⟨k, CollectionOp.adds.item l k key submitter data type now⟩)
    (hno : op.removes = none) (hl : l.WellIndexed) :
    (op.after l).WellIndexed ∧ CollectionStep l op := by
  have hr := InPlace.refines_addItem k key submitter data type now
  rw [← hm] at hr
  cases h : l.addItem k key submitter data type now with
  | error e =>
    obtain ⟨hafter, hstep⟩ := CollectionStep.of_error hr h
    exact ⟨by rwa [hafter], hstep⟩
  | ok l' =>
    have hafter : op.after l = l' := by rw [CollectionOp.after, hr.of_ok h]
    have hresult : op.result l = .ok () := by rw [CollectionOp.result, hr.of_ok h]
    -- what was there is found again as it was
    have hsame : ∀ {k' key'} {a : Item k'}, l.item? k' key' = some a → l'.item? k' key' = some a :=
      fun ha => l.addItem_items h ha
    refine ⟨hafter ▸ l.addItem_wellIndexed hl h, ⟨?_, ?_, ?_, ?_, ?_, ?_, ?_⟩⟩
    · intro k' key₁ key₂ a b a' b' ha hb ha' hb'
      rw [hafter] at ha' hb'
      cases (hsame ha).symm.trans ha'
      cases (hsame hb).symm.trans hb'
      rfl
    · intro k' key' a a' ha ha' hne
      rw [hafter] at ha'
      cases (hsame ha).symm.trans ha'
      exact absurd rfl hne
    · intro k' key' a ha hnone
      rw [hafter, hsame ha] at hnone
      cases hnone
    · intro k' key' hrem
      rw [hno] at hrem
      cases hrem
    · intro k' a ha _
      cases hadds.symm.trans ha
      rw [hafter]
      exact LocRequest.addItem_new h
    · intro k' key' hother
      rw [hafter]
      cases hit : l'.item? k' key' with
      | none => cases ha : l.item? k' key' with
        | none => rfl
        | some a => exact absurd ((hsame ha).symm.trans hit) (by simp)
      | some a' =>
        rcases LocRequest.addItem_item_from h hit with ha | ⟨rfl, rfl, -⟩
        · rw [ha]
        · exact absurd habout.symm hother
    · intro e he
      rw [hresult] at he
      cases he

omit [Hashing] in
/-- The items of the other kinds are found again as they were. -/
theorem removeItem_item_of_ne {k k' : ItemKind} {key key' : String} {remover : AccountId} {a : Item k'}
    (h : l.removeItem k remover key = .ok l') (hk : k' ≠ k) (ha : l.item? k' key' = some a) :
    l'.item? k' key' = some a := by
  rw [LocRequest.item?, LocRequest.removeItem_items_of_ne h hk]
  exact ha

omit [Hashing] in
/-- Those of the same kind are found again with the gap closed. -/
theorem removeItem_reindexed {k : ItemKind} {key key' : String} {remover : AccountId}
    {removed a a' : Item k} (hl : l.WellIndexed) (hfound : l.item? k key = some removed)
    (h : l.removeItem k remover key = .ok l') (ha : l.item? k key' = some a)
    (ha' : l'.item? k key' = some a') :
    a.index ≠ removed.index ∧ a' = LocRequest.reindexChild removed.index a := by
  have hne : key' ≠ key := by
    rintro rfl
    rw [LocRequest.removeItem_item_self hl.keys h] at ha'
    cases ha'
  rw [LocRequest.removeItem_item_ne hfound h hne, ha] at ha'
  exact ⟨hl.index_ne hfound ha hne, (Option.some.inj ha').symm⟩

theorem collectionStep_removeItem {k : ItemKind} {key : String} {remover : AccountId}
    (hm : op.method = InPlace.removeItem k remover key) (habout : op.about = (k, key))
    (hno : op.adds l = none) (hrem : op.removes = some (k, key)) (hl : l.WellIndexed) :
    (op.after l).WellIndexed ∧ CollectionStep l op := by
  have hr := InPlace.refines_removeItem k remover key
  rw [← hm] at hr
  cases h : l.removeItem k remover key with
  | error e =>
    obtain ⟨hafter, hstep⟩ := CollectionStep.of_error hr h
    exact ⟨by rwa [hafter], hstep⟩
  | ok l' =>
    have hafter : op.after l = l' := by rw [CollectionOp.after, hr.of_ok h]
    have hresult : op.result l = .ok () := by rw [CollectionOp.result, hr.of_ok h]
    obtain ⟨removed, hfound, heq⟩ := LocRequest.removeItem_ok h
    refine ⟨hafter ▸ LocRequest.removeItem_wellIndexed hl h, ⟨?_, ?_, ?_, ?_, ?_, ?_, ?_⟩⟩
    · intro k' key₁ key₂ a b a' b' ha hb ha' hb'
      rw [hafter] at ha' hb'
      by_cases hk : k' = k
      · subst hk
        obtain ⟨hane, rfl⟩ := removeItem_reindexed hl hfound h ha ha'
        obtain ⟨hbne, rfl⟩ := removeItem_reindexed hl hfound h hb hb'
        rw [LocRequest.reindexChild_index, LocRequest.reindexChild_index, closeGap_lt_iff hane hbne]
      · cases (removeItem_item_of_ne h hk ha).symm.trans ha'
        cases (removeItem_item_of_ne h hk hb).symm.trans hb'
        rfl
    · intro k' key' a a' ha ha' hne
      rw [hafter] at ha'
      by_cases hk : k' = k
      · subst hk
        obtain ⟨-, rfl⟩ := removeItem_reindexed hl hfound h ha ha'
        exact LocRequest.reindexChild_toUpdate hne
      · cases (removeItem_item_of_ne h hk ha).symm.trans ha'
        exact absurd rfl hne
    · intro k' key' a ha hnone
      rw [hafter] at hnone ⊢
      by_cases hk : k' = k
      · subst hk
        by_cases hkey : key' = key
        · subst hkey
          cases hfound.symm.trans ha
          rw [heq]
          cases k' <;> exact List.mem_append_right _ List.mem_cons_self
        · rw [LocRequest.removeItem_item_ne hfound h hkey, ha] at hnone
          cases hnone
      · rw [removeItem_item_of_ne h hk ha] at hnone
        cases hnone
    · intro k' key' hrem' _
      obtain ⟨rfl, rfl⟩ := Prod.mk.inj (Option.some.inj (hrem.symm.trans hrem'))
      rw [hafter, hfound]
      exact ⟨rfl, LocRequest.removeItem_item_self hl.keys h⟩
    · intro k' a ha
      rw [hno] at ha
      cases ha
    · intro k' key' hother
      rw [hafter]
      by_cases hk : k' = k
      · subst hk
        have hne : key' ≠ key := fun hkey => hother (by rw [habout, hkey])
        rw [LocRequest.removeItem_item_ne hfound h hne, Option.map_map]
        exact congrFun (congrArg Option.map (funext (LocRequest.reindexChild_unplaced removed.index))) _
      · rw [LocRequest.item?, LocRequest.removeItem_items_of_ne h hk]
        rfl
    · intro e he
      rw [hresult] at he
      cases he

/-- **One addition or removal.** -/
theorem collectionStep (hl : l.WellIndexed) (op : CollectionOp) :
    (op.after l).WellIndexed ∧ CollectionStep l op := by
  cases op with
  | addFile | addMetadataItem | addLink => exact collectionStep_addItem rfl rfl rfl rfl hl
  | removeFile | removeMetadataItem | removeLink => exact collectionStep_removeItem rfl rfl rfl rfl hl

/-- A sequence of additions and removals; a call that throws is followed by the next one. -/
def CollectionOp.run (l : LocRequest) (ops : List CollectionOp) : LocRequest :=
  ops.foldl CollectionOp.after l

theorem CollectionOp.run_wellIndexed (hl : l.WellIndexed) (ops : List CollectionOp) :
    (CollectionOp.run l ops).WellIndexed := by
  induction ops generalizing l with
  | nil => exact hl
  | cons op ops ih => exact ih (collectionStep hl op).1

/-- **Representation of the collections.**  In every sequence of additions and removals, each step
keeps the indices dense and the keys distinct, and does to the items what `CollectionStep` says. -/
theorem collections_sound (hl : l.WellIndexed) (ops : List CollectionOp) :
    ∀ pre op post, ops = pre ++ op :: post →
      (op.after (CollectionOp.run l pre)).WellIndexed ∧
        CollectionStep (CollectionOp.run l pre) op :=
  fun pre op _ _ => collectionStep (CollectionOp.run_wellIndexed hl pre) op

end

/-! ### Two links loaded in the reverse order -/

/-- A draft LOC whose two links came back from the database with the last one first. -/
def draftLocWithLinks : LocRequest where
  id := "15ed922d-5960-4147-a73f-97d362cb7c46"
  status := .draft
  requester := some (.polkadot "requester")
  ownerAddress := "owner"
  locType := .transaction
  links := [link "b" 1, link "a" 0]
where
  link (target : UUID) (index : ℕ) : LocLink := {
    key := target
    index := index
    submitter := .polkadot "requester"
    lifecycle := { status := .draft }
    data := (⟨"nature", none⟩ : LinkData) }

theorem draftLocWithLinks_wellIndexed : draftLocWithLinks.WellIndexed where
  indices k := by cases k <;> decide
  keys k := by cases k <;> decide

/-- The first link is removed, and a link is added under its target again. -/
def removeAndAddAgain : List CollectionOp :=
  [.removeLink (.polkadot "requester") "a", .addLink "a" (.polkadot "requester") "nature" .manualByUser 3]

theorem collections_sound_removeAndAddAgain :
    letI : Hashing := ⟨fun name => name⟩
    draftLocWithLinks.WellIndexed ∧ ∀ pre op post, removeAndAddAgain = pre ++ op :: post →
      (op.after (CollectionOp.run draftLocWithLinks pre)).WellIndexed ∧
        CollectionStep (CollectionOp.run draftLocWithLinks pre) op :=
  letI : Hashing := ⟨fun name => name⟩
  ⟨draftLocWithLinks_wellIndexed, collections_sound draftLocWithLinks_wellIndexed removeAndAddAgain⟩

end Logion
