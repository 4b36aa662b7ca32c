import Logion.Model.LocStep

/-!
# Effects — what one operation of a LOC does

Inversion lemmas for the operations of `LocStep`.

* `withoutItems`: the LOC without its three collections; item operations keep it.
* `Bulk l l' m f`: a bulk operation, every selected item having made its transition.
* `OneItem l l' k key g`: the first item with key `key` of kind `k` was rewritten by `g`.
* `step_withoutItems`: what `LocRequest.step` does outside the collections, operation by operation.
-/

namespace Logion

open Keyed Fallible

namespace LocRequest

variable {l l' : LocRequest} {k k' : ItemKind} {key key' : String}

/-! ### The collections as fields -/

@[simp] theorem items_setItems_self (xs : List (Item k)) : (l.setItems k xs).items k = xs := by
  cases k <;> rfl

theorem items_setItems_of_ne (h : k' ≠ k) (xs : List (Item k)) :
    (l.setItems k xs).items k' = l.items k' := by
  cases k <;> cases k' <;> first | rfl | exact absurd rfl h

@[simp] theorem items_setItemsToDelete (xs : List (Item k)) :
    (l.setItemsToDelete k xs).items k' = l.items k' := by
  cases k <;> cases k' <;> rfl

@[simp] theorem itemsToDelete_setItems (xs : List (Item k)) :
    (l.setItems k xs).itemsToDelete k' = l.itemsToDelete k' := by
  cases k <;> cases k' <;> rfl

@[simp] theorem itemsToDelete_setItemsToDelete_self (xs : List (Item k)) :
    (l.setItemsToDelete k xs).itemsToDelete k = xs := by
  cases k <;> rfl

theorem itemsToDelete_setItemsToDelete_of_ne (h : k' ≠ k) (xs : List (Item k)) :
    (l.setItemsToDelete k xs).itemsToDelete k' = l.itemsToDelete k' := by
  cases k <;> cases k' <;> first | rfl | exact absurd rfl h

/-- The LOC without its collections of items. -/
def withoutItems (l : LocRequest) : LocRequest :=
  { l with
    metadata := [], files := [], links := []
    metadataToDelete := [], filesToDelete := [], linksToDelete := [] }

@[simp] theorem withoutItems_setItems (xs : List (Item k)) :
    (l.setItems k xs).withoutItems = l.withoutItems := by
  cases k <;> rfl

@[simp] theorem withoutItems_setItemsToDelete (xs : List (Item k)) :
    (l.setItemsToDelete k xs).withoutItems = l.withoutItems := by
  cases k <;> rfl

theorem status_of_withoutItems (h : l'.withoutItems = l.withoutItems) : l'.status = l.status := by
  change l'.withoutItems.status = l.withoutItems.status
  rw [h]

theorem owner_of_withoutItems (h : l'.withoutItems = l.withoutItems) :
    l'.ownerAddress = l.ownerAddress := by
  change l'.withoutItems.ownerAddress = l.withoutItems.ownerAddress
  rw [h]

theorem requester_of_withoutItems (h : l'.withoutItems = l.withoutItems) :
    l'.requester = l.requester := by
  change l'.withoutItems.requester = l.withoutItems.requester
  rw [h]

theorem isVerifiedIssuer_congr (howner : l'.ownerAddress = l.ownerAddress)
    (hrequester : l'.requester = l.requester) (account : AccountId) :
    l'.isVerifiedIssuer account = l.isVerifiedIssuer account := by
  unfold isVerifiedIssuer isOwner isRequester getOwner getRequester
  rw [howner, hrequester]

/-! ### Bulk operations -/

/-- `l'` is `l` with every item selected by `filter` moved by `mutator`. -/
structure Bulk (l l' : LocRequest) (mutator : (k : ItemKind) → Item k → Except Err EmbeddableLifecycle)
    (filter : (k : ItemKind) → Item k → Bool) : Prop where
  rest : l'.withoutItems = l.withoutItems
  toDelete : ∀ k, l'.itemsToDelete k = l.itemsToDelete k
  items : ∀ k, mutateAllItems (mutator k) (l.items k) (filter k) = .ok (l'.items k)

variable {mutator : (k : ItemKind) → Item k → Except Err EmbeddableLifecycle}
  {filter : (k : ItemKind) → Item k → Bool}

theorem mutateEveryItem_ok (h : l.mutateEveryItem mutator filter = .ok l') :
    Bulk l l' mutator filter := by
  obtain ⟨metadata, hm, h⟩ := bind_eq_ok.mp h
  obtain ⟨files, hf, h⟩ := bind_eq_ok.mp h
  obtain ⟨links, hl, h⟩ := bind_eq_ok.mp h
  cases h
  refine ⟨rfl, fun k => by cases k <;> rfl, fun k => ?_⟩
  cases k
  · exact hm
  · exact hf
  · exact hl

theorem mutateAllItems_returns {mutate : Item k → Except Err EmbeddableLifecycle}
    {items : List (Item k)} {select : Item k → Bool} :
    Returns (mutateAllItems mutate items select) ↔
      ∀ item ∈ items, select item → Returns (mutate item) := by
  unfold mutateAllItems
  rw [mapM_returns]
  refine forall₂_congr fun item _ => ?_
  by_cases hs : select item
  · rw [if_pos hs, returns_bind]
    exact ⟨fun ⟨c, hc, _⟩ _ => ⟨c, hc⟩, fun h => (h hs).imp fun c hc => ⟨hc, returns_ok _⟩⟩
  · rw [if_neg hs]
    exact ⟨fun _ h => absurd h hs, fun _ => returns_ok _⟩

theorem mutateEveryItem_returns :
    Returns (l.mutateEveryItem mutator filter) ↔
      ∀ k, ∀ item ∈ l.items k, filter k item → Returns (mutator k item) := by
  constructor
  · rintro ⟨l', h⟩ k
    exact mutateAllItems_returns.mp ⟨_, (mutateEveryItem_ok h).items k⟩
  · intro h
    have h' := fun k => mutateAllItems_returns.mpr (h k)
    obtain ⟨metadata, hm⟩ := h' .metadata
    obtain ⟨files, hf⟩ := h' .file
    obtain ⟨links, hl⟩ := h' .link
    exact ⟨_, bind_eq_ok.mpr ⟨_, hm, bind_eq_ok.mpr ⟨_, hf, bind_eq_ok.mpr ⟨_, hl, rfl⟩⟩⟩⟩

/-- What one item does in `mutateAllItems`. -/
theorem mutateAllItems_item {mutate : Item k → Except Err EmbeddableLifecycle}
    {select : Item k → Bool} {item item' : Item k}
    (h : (if select item then do
        let lifecycle ← mutate item
        return { item with lifecycle := lifecycle, toUpdate := true }
      else return item : Except Err (Item k)) = .ok item') :
    item'.key = item.key ∧ item'.submitter = item.submitter ∧ item'.index = item.index ∧
      item'.data = item.data ∧
      (if select item then mutate item else .ok item.lifecycle) = .ok item'.lifecycle := by
  by_cases hs : select item
  · rw [if_pos hs] at h
    obtain ⟨c, hc, h⟩ := bind_eq_ok.mp h
    cases h
    rw [if_pos hs]
    exact ⟨rfl, rfl, rfl, rfl, hc⟩
  · rw [if_neg hs] at h
    cases h
    rw [if_neg hs]
    exact ⟨rfl, rfl, rfl, rfl, rfl⟩

end LocRequest

/-- An item after a bulk operation: selected ones are in a new lifecycle, and marked. -/
def Item.moved {k : ItemKind} (item : Item k) (select : Bool) (c : EmbeddableLifecycle) : Item k :=
  if select then { item with lifecycle := c, toUpdate := true } else item

section

variable {k : ItemKind} (item : Item k) (select : Bool) (c : EmbeddableLifecycle)

@[simp] theorem Item.moved_false : item.moved false c = item := rfl

@[simp] theorem Item.moved_true :
    item.moved true c = { item with lifecycle := c, toUpdate := true } := rfl

@[simp] theorem Item.moved_key : (item.moved select c).key = item.key := by
  cases select <;> rfl

@[simp] theorem Item.moved_submitter : (item.moved select c).submitter = item.submitter := by
  cases select <;> rfl

@[simp] theorem Item.moved_lifecycle :
    (item.moved select c).lifecycle = if select then c else item.lifecycle := by
  cases select <;> rfl

end

namespace LocRequest

variable {l l' : LocRequest} {k k' : ItemKind} {key key' : String}
  {mutator : (k : ItemKind) → Item k → Except Err EmbeddableLifecycle}
  {filter : (k : ItemKind) → Item k → Bool}

/-- The items of a bulk operation whose transitions are known. -/
theorem mutateAllItems_eq_map {mutate : Item k → Except Err EmbeddableLifecycle}
    {select : Item k → Bool} {items : List (Item k)} {c : Item k → EmbeddableLifecycle}
    (h : ∀ item ∈ items, select item = true → mutate item = .ok (c item)) :
    mutateAllItems mutate items select =
      .ok (items.map fun item => item.moved (select item) (c item)) := by
  unfold mutateAllItems
  rw [mapM_eq_ok]
  induction items with
  | nil => exact .nil
  | cons item items ih =>
    refine .cons ?_ (ih fun x hx => h x (List.mem_cons_of_mem item hx))
    dsimp only
    by_cases hs : select item = true
    · rw [if_pos hs, Item.moved, if_pos hs, h item List.mem_cons_self hs]
      rfl
    · rw [if_neg hs, Item.moved, if_neg hs]
      rfl

theorem Bulk.items_eq (h : Bulk l l' mutator filter) {c : Item k → EmbeddableLifecycle}
    (hc : ∀ item ∈ l.items k, filter k item = true → mutator k item = .ok (c item)) :
    l'.items k = (l.items k).map fun item => item.moved (filter k item) (c item) :=
  (Except.ok.inj ((mutateAllItems_eq_map hc).symm.trans (h.items k))).symm

/-- A bulk operation that selects nothing in a collection. -/
theorem Bulk.items_of_none (h : Bulk l l' mutator filter)
    (hnone : ∀ item, filter k item = false) : l'.items k = l.items k := by
  rw [h.items_eq (c := fun item => item.lifecycle) fun item _ hsel => by simp [hnone] at hsel]
  simp [hnone]

/-- The transitions of a bulk operation that returned have returned. -/
theorem Bulk.returns (h : Bulk l l' mutator filter) {item : Item k} (hmem : item ∈ l.items k)
    (hsel : filter k item = true) : Returns (mutator k item) :=
  mutateAllItems_returns.mp ⟨_, h.items k⟩ item hmem hsel

theorem Bulk.keys (h : Bulk l l' mutator filter) (k : ItemKind) :
    (l'.items k).map Item.key = (l.items k).map Item.key :=
  keys_mapM (fun _ _ hxy => (mutateAllItems_item hxy).1) (h.items k)

/-- An item after a bulk operation comes from the item with its key. -/
theorem Bulk.item (h : Bulk l l' mutator filter) {item' : Item k}
    (hit : l'.item? k key = some item') :
    ∃ item, l.item? k key = some item ∧ item'.submitter = item.submitter ∧
      (if filter k item then mutator k item else .ok item.lifecycle) = .ok item'.lifecycle := by
  obtain ⟨item, h1, h2⟩ := lookup_mapM (fun _ _ hxy => (mutateAllItems_item hxy).1) (h.items k) hit
  have h3 := mutateAllItems_item h2
  exact ⟨item, h1, h3.2.1, h3.2.2.2.2⟩

/-! ### One item -/

/-- `l'` is `l` with the first item of kind `k` and key `key` rewritten by `g`. -/
structure OneItem (l l' : LocRequest) (k : ItemKind) (key : String) (g : Item k → Item k) :
    Prop where
  keeps : ∀ item, item.key = key → (g item).key = key
  eq : l' = l.setItems k (modifyFirst Item.key key g (l.items k))

theorem OneItem.rest {g : Item k → Item k} (h : OneItem l l' k key g) :
    l'.withoutItems = l.withoutItems := by
  rw [h.eq, withoutItems_setItems]

theorem OneItem.keys {g : Item k → Item k} (h : OneItem l l' k key g) (k' : ItemKind) :
    (l'.items k').map Item.key = (l.items k').map Item.key := by
  rw [h.eq]
  by_cases hk : k' = k
  · subst hk
    rw [items_setItems_self]
    exact keys_modifyFirst h.keeps
  · rw [items_setItems_of_ne hk]

theorem OneItem.item_self {g : Item k → Item k} (h : OneItem l l' k key g) :
    l'.item? k key = (l.item? k key).map g := by
  rw [h.eq, item?, item?, items_setItems_self, findItem, lookup_modifyFirst h.keeps, if_pos rfl]

theorem OneItem.item_of_ne {g : Item k → Item k} (h : OneItem l l' k key g)
    (hne : ¬(k' = k ∧ key' = key)) : l'.item? k' key' = l.item? k' key' := by
  rw [h.eq, item?, item?]
  by_cases hk : k' = k
  · subst hk
    rw [items_setItems_self, findItem, lookup_modifyFirst h.keeps,
      if_neg fun hkey => hne ⟨rfl, hkey⟩]
  · rw [items_setItems_of_ne hk]

theorem getItemOrThrow_ok {item : Item k} :
    l.getItemOrThrow k key = .ok item ↔ l.item? k key = some item := by
  unfold getItemOrThrow
  cases l.item? k key <;> simp

theorem item?_key {item : Item k} (h : l.item? k key = some item) : item.key = key := lookup_key h

theorem mutateItem_ok {mutate : Item k → Except Err (Item k)} (hkey : ∀ item item',
    mutate item = .ok item' → item'.key = item.key) (h : l.mutateItem k key mutate = .ok l') :
    ∃ item item', l.item? k key = some item ∧ mutate item = .ok item' ∧
      OneItem l l' k key (fun _ => { item' with toUpdate := true }) := by
  obtain ⟨item, h1, h⟩ := bind_eq_ok.mp h
  obtain ⟨item', h2, h⟩ := bind_eq_ok.mp h
  cases h
  rw [getItemOrThrow_ok] at h1
  exact ⟨item, item', h1, h2, fun _ _ => (hkey _ _ h2).trans (item?_key h1), rfl⟩

theorem mutateItem_returns {mutate : Item k → Except Err (Item k)} :
    Returns (l.mutateItem k key mutate) ↔
      ∃ item, l.item? k key = some item ∧ Returns (mutate item) := by
  unfold mutateItem
  rw [returns_bind]
  refine exists_congr fun item => and_congr getItemOrThrow_ok ?_
  rw [returns_bind]
  exact exists_congr fun _ => and_iff_left (returns_ok _)

theorem mutateLifecycle_ok {mutate : Item k → Except Err EmbeddableLifecycle}
    (h : l.mutateLifecycle k key mutate = .ok l') :
    ∃ item c, l.item? k key = some item ∧ mutate item = .ok c ∧
      OneItem l l' k key (fun _ => { item with lifecycle := c, toUpdate := true }) := by
  obtain ⟨item, item', h1, h2, h3⟩ := mutateItem_ok (fun item item' hm => by
    obtain ⟨c, -, hm⟩ := bind_eq_ok.mp hm
    cases hm
    rfl) h
  obtain ⟨c, hc, h2⟩ := bind_eq_ok.mp h2
  cases h2
  exact ⟨item, c, h1, hc, h3⟩

theorem mutateLifecycle_returns {mutate : Item k → Except Err EmbeddableLifecycle} :
    Returns (l.mutateLifecycle k key mutate) ↔
      ∃ item, l.item? k key = some item ∧ Returns (mutate item) := by
  unfold mutateLifecycle
  rw [mutateItem_returns]
  refine exists_congr fun item => and_congr_right fun _ => ?_
  rw [returns_bind]
  exact exists_congr fun _ => and_iff_left (returns_ok _)

theorem setItemAddedOn_oneItem (addedOn : Moment) :
    OneItem l (l.setItemAddedOn k key addedOn) k key
      (fun item => { item with lifecycle := item.lifecycle.setAddedOn addedOn, toUpdate := true }) :=
  ⟨fun _ h => h, rfl⟩

/-! ### Guards -/

theorem ensureNoItem_ok {bad : (k : ItemKind) → Item k → Bool} {message : ItemKind → String} :
    l.ensureNoItem bad message = .ok () ↔ ∀ k, ∀ item ∈ l.items k, bad k item = false := by
  have hk : (∀ k, ∀ item ∈ l.items k, bad k item = false) ↔
      (∀ item ∈ l.metadata, bad .metadata item = false) ∧
        (∀ item ∈ l.files, bad .file item = false) ∧ ∀ item ∈ l.links, bad .link item = false :=
    ⟨fun h => ⟨h .metadata, h .file, h .link⟩, fun ⟨h1, h2, h3⟩ k => by
      cases k
      · exact h1
      · exact h2
      · exact h3⟩
  have hany : ∀ {k : ItemKind} (xs : List (Item k)),
      xs.any (bad k) = true ↔ ¬ ∀ item ∈ xs, bad k item = false := by
    intro k xs
    simp
  rw [hk]
  unfold ensureNoItem
  split_ifs with h1 h2 h3
  · exact ⟨fun h => (by cases h), fun ⟨h, _, _⟩ => absurd h ((hany _).mp h1)⟩
  · exact ⟨fun h => (by cases h), fun ⟨_, h, _⟩ => absurd h ((hany _).mp h2)⟩
  · exact ⟨fun h => (by cases h), fun ⟨_, _, h⟩ => absurd h ((hany _).mp h3)⟩
  · rw [hany, not_not] at h1 h2 h3
    exact ⟨fun _ => ⟨h1, h2, h3⟩, fun _ => rfl⟩

/-! ### The operations that write the status -/

theorem submit_ok (h : l.submit = .ok l') :
    l.status = .draft ∧
      Bulk { l with status := .reviewPending } l'
        (fun _ item => .ok { item.lifecycle with status := .reviewPending })
        (fun _ item => item.status = .draft) := by
  unfold submit at h
  split_ifs at h with h1 h2
  exact ⟨not_not.mp h1, mutateEveryItem_ok h⟩

theorem reject_ok {reason : String} {rejectedOn : Moment} (h : l.reject reason rejectedOn = .ok l') :
    l.status = .reviewPending ∧ l' = { l with
      status := .reviewRejected, rejectReason := some reason, decisionOn := some rejectedOn } := by
  unfold reject at h
  split_ifs at h with h1
  cases h
  exact ⟨not_not.mp h1, rfl⟩

theorem rework_ok (h : l.rework = .ok l') :
    (l.status = .reviewRejected ∨ l.status = .reviewAccepted) ∧
      l' = { l with status := .draft, decisionOn := none, rejectReason := none } := by
  unfold rework at h
  split_ifs at h with h1
  cases h
  exact ⟨by tauto, rfl⟩

theorem accept_ok {decisionOn : Moment} (h : l.accept decisionOn = .ok l') :
    l.status = .reviewPending ∧
      l' = { l with status := .reviewAccepted, decisionOn := some decisionOn } := by
  unfold accept at h
  split_ifs at h with h1
  obtain ⟨_, -, h⟩ := bind_eq_ok.mp h
  cases h
  exact ⟨not_not.mp h1, rfl⟩

/-- A guarded bulk operation: nothing happens to the items when the flag is off. -/
theorem bulkIf_ok {b : Bool} {l₁ : LocRequest}
    (h : (if b then l.mutateEveryItem mutator filter else .ok l) = .ok l₁) :
    Bulk l l₁ mutator (fun k item => b && filter k item) := by
  cases b with
  | true => exact mutateEveryItem_ok h
  | false =>
    cases h
    refine ⟨rfl, fun _ => rfl, fun k => mapM_eq_ok.mpr ?_⟩
    exact List.forall₂_same.mpr fun item _ => rfl

theorem preOpen_ok {autoPublish : Bool} (h : l.preOpen autoPublish = .ok l') :
    (l.status = .reviewAccepted ∨ l.status = .opened) ∧ ∃ l₁,
      Bulk l l₁
        (fun _ item =>
          item.lifecycle.prePublishOrAcknowledge (l.isPublishAcknowledge item.submitter) none)
        (fun _ item => autoPublish && item.status = .reviewAccepted) ∧
      l' = { l₁ with status := .opened } := by
  obtain ⟨hstatus, h⟩ := refused_eq_ok.mp h
  obtain ⟨l₁, hbulk, h⟩ := bind_eq_ok.mp h
  cases h
  exact ⟨by tauto, l₁, bulkIf_ok hbulk, rfl⟩

theorem cancelPreOpen_ok {autoPublish : Bool} (h : l.cancelPreOpen autoPublish = .ok l') :
    l.status = .opened ∧ ∃ l₁,
      Bulk l l₁
        (fun _ item =>
          item.lifecycle.cancelPrePublishOrAcknowledge (l.isPublishAcknowledge item.submitter))
        (fun _ item => autoPublish && (item.status = .published && item.lifecycle.addedOn.isNone)) ∧
      l' = { l₁ with status := .reviewAccepted } := by
  obtain ⟨hstatus, h⟩ := refused_eq_ok.mp h
  obtain ⟨l₁, hbulk, h⟩ := bind_eq_ok.mp h
  cases h
  exact ⟨not_not.mp hstatus, l₁, bulkIf_ok hbulk, rfl⟩

theorem preClose_ok {autoAck : Bool} (h : l.preClose autoAck = .ok l') :
    ∃ l₁,
      Bulk l l₁
        (fun _ item => item.lifecycle.preAcknowledge (l.isVerifiedIssuer item.submitter) false none)
        (fun _ _ => autoAck) ∧
      l' = if l.status = .opened then { l₁ with status := .closed } else l₁ := by
  obtain ⟨l₁, h1, h⟩ := bind_eq_ok.mp h
  cases h
  have hb : Bulk l l₁
      (fun _ item => item.lifecycle.preAcknowledge (l.isVerifiedIssuer item.submitter) false none)
      (fun _ _ => autoAck && true) := by
    cases autoAck with
    | true =>
      obtain ⟨_, -, h1⟩ := bind_eq_ok.mp h1
      obtain ⟨_, -, h1⟩ := bind_eq_ok.mp h1
      exact mutateEveryItem_ok h1
    | false =>
      obtain ⟨_, -, h1⟩ := bind_eq_ok.mp h1
      exact bulkIf_ok (b := false) h1
  refine ⟨l₁, by simpa using hb, ?_⟩
  rw [status_of_withoutItems hb.rest]

theorem cancelPreClose_ok {autoAck : Bool} (h : l.cancelPreClose autoAck = .ok l') :
    l.status = .closed ∧ ∃ l₁,
      Bulk l l₁ (fun _ item => item.lifecycle.cancelPreAcknowledge false)
        (fun _ item => autoAck &&
          (item.status = .acknowledged && item.lifecycle.acknowledgedByOwnerOn.isNone)) ∧
      l' = { l₁ with status := .opened } := by
  obtain ⟨hstatus, h⟩ := refused_eq_ok.mp h
  obtain ⟨l₁, hbulk, h⟩ := bind_eq_ok.mp h
  cases h
  exact ⟨not_not.mp hstatus, l₁, bulkIf_ok hbulk, rfl⟩

/-! ### The operations on one item -/

theorem publishAll_rest {addedOn : Moment} {keys : List String}
    (h : keys.foldlM (fun l key => l.mutateLifecycle k key fun item =>
      item.lifecycle.prePublishOrAcknowledge (l.isPublishAcknowledge item.submitter)
        (some addedOn)) l = .ok l') :
    l'.withoutItems = l.withoutItems := by
  induction keys generalizing l with
  | nil => cases h; rfl
  | cons key keys ih =>
    rw [List.foldlM_cons] at h
    obtain ⟨l₁, h1, h⟩ := bind_eq_ok.mp h
    obtain ⟨_, _, -, -, h2⟩ := mutateLifecycle_ok h1
    rw [ih h, h2.rest]

theorem prePublishOrAcknowledgeItems_rest {addedOn : Moment} {items : LocItems}
    (h : l.prePublishOrAcknowledgeItems addedOn items = .ok l') :
    l'.withoutItems = l.withoutItems := by
  obtain ⟨l₁, h1, h⟩ := bind_eq_ok.mp h
  obtain ⟨l₂, h2, h⟩ := bind_eq_ok.mp h
  rw [publishAll_rest h, publishAll_rest h2, publishAll_rest h1]

theorem openLoc_ok {createdOn : Moment} {items : LocItems} (h : l.openLoc createdOn items = .ok l') :
    ((l.status = .reviewAccepted ∨ l.status = .opened) ∧
        { l with locCreatedOn := some createdOn, status := .opened }.prePublishOrAcknowledgeItems
          createdOn items = .ok l') ∨
      (¬(l.status = .reviewAccepted ∨ l.status = .opened) ∧
        l' = { l with locCreatedOn := some createdOn }) := by
  unfold openLoc at h
  dsimp only at h
  split_ifs at h with h1
  · exact .inl ⟨h1, h⟩
  · cases h
    exact .inr ⟨h1, rfl⟩

theorem addItem_ok {submitter : AccountId} {data : ItemData k} {type : SubmissionType} {now : Moment}
    (h : l.addItem k key submitter data type now = .ok l') :
    l.item? k key = none ∧ l' = l.setItems k (l.items k ++ [{
      key := key
      index := (l.items k).length
      submitter := submitter
      lifecycle := EmbeddableLifecycle.fromSubmissionType type now
      data := data
      toAdd := true }]) := by
  obtain ⟨_, -, h⟩ := bind_eq_ok.mp h
  split_ifs at h with h1
  exact ⟨by simpa using h1, (Except.ok.inj h).symm⟩

/-- Items are added to draft and open LOCs only. -/
theorem addItem_editable {submitter : AccountId} {data : ItemData k} {type : SubmissionType}
    {now : Moment} (h : l.addItem k key submitter data type now = .ok l') :
    l.status = .draft ∨ l.status = .opened := by
  obtain ⟨_, hguard, -⟩ := bind_eq_ok.mp h
  unfold ensureEditable at hguard
  split_ifs at hguard with h1 h2
  exact h1

theorem removeItem_ok {remover : AccountId} (h : l.removeItem k remover key = .ok l') :
    ∃ item, l.item? k key = some item ∧ l' =
      (l.setItems k (reindexChildren item.index (eraseFirst Item.key item.key (l.items k)))
        ).setItemsToDelete k (l.itemsToDelete k ++ [item]) := by
  obtain ⟨_, -, h⟩ := bind_eq_ok.mp h
  cases hit : l.item? k key with
  | none => rw [hit] at h; cases h
  | some item =>
    rw [hit] at h
    dsimp only at h
    split_ifs at h with h1 h2
    exact ⟨item, rfl, (Except.ok.inj h).symm⟩

/-- A guard followed by a transition: the guard changes nothing. -/
theorem guard_ok {guard : Except Err PUnit} {x : Except Err LocRequest}
    (h : (do guard; x) = .ok l') : x = .ok l' := by
  obtain ⟨_, -, h⟩ := bind_eq_ok.mp h
  exact h

/-- A role check followed by a transition: what is left when the contributor is allowed. -/
theorem roleCheck_ok {check : Except Err Bool} {refusal : Err} {x : Except Err LocRequest}
    (h : (do
      if !(← check) then throw refusal
      x) = .ok l') : check = .ok true ∧ x = .ok l' := by
  obtain ⟨allowed, h1, h⟩ := bind_eq_ok.mp h
  cases allowed with
  | true => exact ⟨h1, h⟩
  | false => cases h

/-! ### When operations are accepted -/

theorem guard_returns {guard : Except Err PUnit} {x : Except Err LocRequest} :
    Returns (do guard; x) ↔ guard = .ok () ∧ Returns x := by
  rw [returns_bind]
  exact ⟨fun ⟨_, h1, h2⟩ => ⟨h1, h2⟩, fun ⟨h1, h2⟩ => ⟨_, h1, h2⟩⟩

theorem roleCheck_returns {check : Except Err Bool} {refusal : Err} {x : Except Err LocRequest} :
    Returns (do
      if !(← check) then throw refusal
      x) ↔ check = .ok true ∧ Returns x := by
  constructor
  · rintro ⟨l', h⟩
    exact ⟨(roleCheck_ok h).1, l', (roleCheck_ok h).2⟩
  · rintro ⟨rfl, h⟩
    exact h

/-- Publishing the accepted items never throws. -/
theorem preOpen_returns {autoPublish : Bool} :
    Returns (l.preOpen autoPublish) ↔ l.status = .reviewAccepted ∨ l.status = .opened := by
  unfold preOpen
  by_cases h1 : l.status ≠ .reviewAccepted ∧ l.status ≠ .opened
  · rw [if_pos h1]
    exact iff_of_false (not_returns_error _) (by tauto)
  · rw [if_neg h1]
    refine iff_of_true (returns_map.mpr ?_) (by tauto)
    cases autoPublish with
    | false => exact returns_ok l
    | true =>
      rw [if_pos rfl, publishAllAcceptedItems, mutateEveryItem_returns]
      intro k item _ hst
      rw [EmbeddableLifecycle.prePublishOrAcknowledge_returns]
      exact .inl (of_decide_eq_true hst)

/-- What the first check of `preClose(true)` accepts can be acknowledged by the owner. -/
theorem ackAllItemsByOwner_returns (h : l.ensureAllItemsAckedOrPublishedOnChain = .ok ()) :
    Returns l.ackAllItemsByOwner := by
  rw [ackAllItemsByOwner, mutateEveryItem_returns]
  intro k item hmem _
  rw [EmbeddableLifecycle.preAcknowledge_returns]
  have hgood := ensureNoItem_ok.mp h k item hmem
  simp only [EmbeddableLifecycle.isAcknowledgedOnChain, EmbeddableLifecycle.isAcknowledged,
    EmbeddableLifecycle.isPublishedOnChain, EmbeddableLifecycle.isPublished] at hgood
  by_contra hst
  simp [not_or.mp hst] at hgood

/-- With `autoAck` the two checks decide. -/
theorem preClose_autoAck_returns :
    Returns (l.preClose true) ↔ l.ensureAllItemsAckedOrPublishedOnChain = .ok () ∧
      l.ensureAllItemsAckedByVerifiedIssuerOnChain = .ok () := by
  unfold preClose
  refine returns_map.trans ?_
  rw [if_pos rfl, guard_returns, guard_returns]
  exact and_congr_right fun hguard => and_iff_left (ackAllItemsByOwner_returns hguard)

theorem ensureOpen_ok : l.ensureOpen = .ok () ↔ l.status = .opened := by
  unfold ensureOpen
  split_ifs with h1
  · exact iff_of_false (fun h => by cases h) h1
  · exact iff_of_true rfl (not_not.mp h1)

theorem canPrePublishOrAcknowledgeItem_ok {contributor : AccountId} :
    l.canPrePublishOrAcknowledgeItem k key contributor = .ok true ↔ l.status = .opened ∧
      ∃ item, l.item? k key = some item ∧
        l.canPrePublishOrAcknowledge item.submitter contributor = true := by
  unfold canPrePublishOrAcknowledgeItem
  rw [bind_eq_ok]
  constructor
  · rintro ⟨_, h1, h⟩
    obtain ⟨item, h2, h3⟩ := bind_eq_ok.mp h
    exact ⟨ensureOpen_ok.mp h1, item, getItemOrThrow_ok.mp h2, Except.ok.inj h3⟩
  · rintro ⟨h1, item, h2, h3⟩
    exact ⟨(), ensureOpen_ok.mpr h1, bind_eq_ok.mpr ⟨item, getItemOrThrow_ok.mpr h2, by rw [h3]; rfl⟩⟩

theorem canPreAcknowledgeItem_ok {contributor : AccountId} :
    l.canPreAcknowledgeItem k key contributor = .ok true ↔
      ∃ item, l.item? k key = some item ∧ l.canPreAcknowledge item.submitter contributor = true := by
  unfold canPreAcknowledgeItem
  rw [bind_eq_ok]
  refine exists_congr fun item => and_congr getItemOrThrow_ok ?_
  exact ⟨fun h => Except.ok.inj h, fun h => by rw [h]; rfl⟩

/-- The item that is checked is the item that is changed. -/
theorem checked_and_changed {p q : Item k → Prop} :
    ((∃ item, l.item? k key = some item ∧ p item) ∧ ∃ item, l.item? k key = some item ∧ q item) ↔
      ∃ item, l.item? k key = some item ∧ p item ∧ q item := by
  constructor
  · rintro ⟨⟨item, hit, hp⟩, item', hit', hq⟩
    obtain rfl : item = item' := Option.some.inj (hit.symm.trans hit')
    exact ⟨item, hit, hp, hq⟩
  · rintro ⟨item, hit, hp, hq⟩
    exact ⟨⟨item, hit, hp⟩, item, hit, hq⟩

theorem prePublishOrAcknowledgeItem_returns {contributor : AccountId} :
    Returns (l.prePublishOrAcknowledgeItem k key contributor) ↔ l.status = .opened ∧
      ∃ item, l.item? k key = some item ∧
        l.canPrePublishOrAcknowledge item.submitter contributor = true ∧
        (item.status = .reviewAccepted ∨ item.status =
          EmbeddableLifecycle.acknowledgedOrPublished (l.isPublishAcknowledge item.submitter)) := by
  unfold prePublishOrAcknowledgeItem
  rw [roleCheck_returns, canPrePublishOrAcknowledgeItem_ok, mutateLifecycle_returns, and_assoc,
    checked_and_changed]
  simp only [EmbeddableLifecycle.prePublishOrAcknowledge_returns]

theorem preAcknowledgeItem_returns {contributor : AccountId} {on : Option Moment} :
    Returns (l.preAcknowledgeItem k key contributor on) ↔
      ∃ item, l.item? k key = some item ∧ l.canPreAcknowledge item.submitter contributor = true ∧
        (item.status = .published ∨ item.status = .acknowledged) := by
  unfold preAcknowledgeItem
  rw [roleCheck_returns, canPreAcknowledgeItem_ok, mutateLifecycle_returns, checked_and_changed]
  simp only [EmbeddableLifecycle.preAcknowledge_returns]

/-! ### The operations that touch neither the items nor the status -/

/-- `l'` has the items, the status and the parties of `l`. -/
structure SameCore (l l' : LocRequest) : Prop where
  items : ∀ k, l'.items k = l.items k
  status : l'.status = l.status
  owner : l'.ownerAddress = l.ownerAddress
  requester : l'.requester = l.requester

end LocRequest

/-- Void, iDenfy, secrets and the deletion guards. -/
def LocOp.isSide : LocOp → Bool
  | .preVoid .. | .cancelPreVoid | .voidLoc .. | .initIdenfyVerification ..
  | .updateIdenfyVerification .. | .addSecret .. | .removeSecret ..
  | .deleteDraftRejectedOrAccepted | .deleteOpen => true
  | _ => false

/-- The operations on the void information. -/
def LocOp.isVoiding : LocOp → Bool
  | .preVoid .. | .cancelPreVoid | .voidLoc .. => true
  | _ => false

/-- The operations on the secrets. -/
def LocOp.isSecret : LocOp → Bool
  | .addSecret .. | .removeSecret .. => true
  | _ => false

namespace LocRequest

theorem addSecret_ok {l l' : LocRequest} {name value : String} (h : l.addSecret name value = .ok l') :
    name ∉ l.secrets.map RecoverableSecret.name ∧
      l' = { l with secrets := l.secrets ++ [⟨name, value, true⟩] } := by
  unfold addSecret at h
  split_ifs at h with h1 h2
  refine ⟨?_, (Except.ok.inj h).symm⟩
  simpa [hasSecret] using h2

theorem removeSecret_ok {l l' : LocRequest} {name : String} (h : l.removeSecret name = .ok l') :
    ∃ secret, lookup RecoverableSecret.name name l.secrets = some secret ∧ l' = { l with
      secrets := eraseFirst RecoverableSecret.name name l.secrets
      secretsToDelete := l.secretsToDelete ++ [secret] } := by
  unfold removeSecret at h
  cases hs : lookup RecoverableSecret.name name l.secrets with
  | none => rw [hs] at h; cases h
  | some secret =>
    rw [hs] at h
    exact ⟨secret, rfl, (Except.ok.inj h).symm⟩

/-- `l'` is `l` but for the fields that these operations write, each by its own operations. -/
structure Beside (l l' : LocRequest) (op : LocOp) : Prop where
  eq : l' = { l with
    voidInfo := l'.voidInfo, iDenfyVerification := l'.iDenfyVerification
    secrets := l'.secrets, secretsToDelete := l'.secretsToDelete }
  voidInfo : op.isVoiding = false → l'.voidInfo = l.voidInfo
  secrets : op.isSecret = false →
    l'.secrets = l.secrets ∧ l'.secretsToDelete = l.secretsToDelete

/-- **Side operations.** -/
theorem step_side [Hashing] {l l' : LocRequest} {op : LocOp} (hop : op.isSide = true)
    (h : l.step op = .ok l') : Beside l l' op := by
  cases op with
  | preVoid reason =>
    change l.preVoid reason = .ok l' at h
    unfold preVoid at h
    split_ifs at h
    cases h
    exact ⟨rfl, fun hno => (by cases hno), fun _ => ⟨rfl, rfl⟩⟩
  | cancelPreVoid =>
    change l.cancelPreVoid = .ok l' at h
    unfold cancelPreVoid at h
    split_ifs at h
    cases h
    exact ⟨rfl, fun hno => (by cases hno), fun _ => ⟨rfl, rfl⟩⟩
  | voidLoc timestamp =>
    cases h
    exact ⟨rfl, fun hno => (by cases hno), fun _ => ⟨rfl, rfl⟩⟩
  | initIdenfyVerification authToken scanRef =>
    cases h
    exact ⟨rfl, fun _ => rfl, fun _ => ⟨rfl, rfl⟩⟩
  | updateIdenfyVerification final overall rawJson =>
    change l.updateIdenfyVerification final overall rawJson = .ok l' at h
    unfold updateIdenfyVerification at h
    cases hv : l.iDenfyVerification with
    | none => rw [hv] at h; cases h
    | some v =>
      rw [hv] at h
      dsimp only at h
      split_ifs at h <;> cases h <;> exact ⟨rfl, fun _ => rfl, fun _ => ⟨rfl, rfl⟩⟩
  | addSecret name value =>
    obtain ⟨-, rfl⟩ := addSecret_ok h
    exact ⟨rfl, fun _ => rfl, fun hno => by cases hno⟩
  | removeSecret name =>
    obtain ⟨_, -, rfl⟩ := removeSecret_ok h
    exact ⟨rfl, fun _ => rfl, fun hno => by cases hno⟩
  | deleteDraftRejectedOrAccepted | deleteOpen =>
    obtain ⟨_, -, h⟩ := bind_eq_ok.mp h
    cases h
    exact ⟨rfl, fun _ => rfl, fun _ => ⟨rfl, rfl⟩⟩
  | _ => cases hop

theorem step_sameCore [Hashing] {l l' : LocRequest} {op : LocOp} (hop : op.isSide = true)
    (h : l.step op = .ok l') : SameCore l l' := by
  rw [(step_side hop h).eq]
  exact ⟨fun k => by cases k <;> rfl, rfl, rfl, rfl⟩

/-! ### Outside the collections -/

/-- `l` with the status of `l'`, and the fields that are written with the status. -/
def withStatusOf (l l' : LocRequest) : LocRequest :=
  { l with
    status := l'.status, decisionOn := l'.decisionOn, rejectReason := l'.rejectReason
    locCreatedOn := l'.locCreatedOn, closedOn := l'.closedOn }

theorem withStatusOf_of_rest {l l' : LocRequest} (h : l'.withoutItems = l.withoutItems) :
    l'.withoutItems = (l.withStatusOf l').withoutItems := by
  have hstatus : (l.withStatusOf l').withoutItems =
      l.withoutItems.withStatusOf l'.withoutItems := rfl
  rw [hstatus, h]
  rfl

theorem mutateItem_rest {l l' : LocRequest} {k : ItemKind} {key : String}
    {mutate : Item k → Except Err (Item k)} (h : l.mutateItem k key mutate = .ok l') :
    l'.withoutItems = l.withoutItems := by
  obtain ⟨_, -, h⟩ := bind_eq_ok.mp h
  obtain ⟨_, -, h⟩ := bind_eq_ok.mp h
  cases h
  exact withoutItems_setItems _

/-- Outside the collections, an operation on the items or on the status writes the status only. -/
theorem step_withoutItems [Hashing] {l l' : LocRequest} {op : LocOp} (hop : op.isSide = false)
    (h : l.step op = .ok l') : l'.withoutItems = (l.withStatusOf l').withoutItems := by
  cases op with
  | submit =>
    obtain ⟨-, hb⟩ := submit_ok h
    exact withStatusOf_of_rest (l := { l with status := .reviewPending }) hb.rest
  | reject reason rejectedOn => obtain ⟨-, rfl⟩ := reject_ok h; rfl
  | rework => obtain ⟨-, rfl⟩ := rework_ok h; rfl
  | accept decisionOn => obtain ⟨-, rfl⟩ := accept_ok h; rfl
  | preOpen autoPublish =>
    obtain ⟨-, l₁, hb, rfl⟩ := preOpen_ok h
    exact congrArg (fun w => { w with status := .opened }) (withStatusOf_of_rest hb.rest)
  | cancelPreOpen autoPublish =>
    obtain ⟨-, l₁, hb, rfl⟩ := cancelPreOpen_ok h
    exact congrArg (fun w => { w with status := .reviewAccepted }) (withStatusOf_of_rest hb.rest)
  | openLoc createdOn items =>
    rcases openLoc_ok h with ⟨-, h⟩ | ⟨-, rfl⟩
    · exact withStatusOf_of_rest
        (l := { l with locCreatedOn := some createdOn, status := .opened })
        (prePublishOrAcknowledgeItems_rest h)
    · rfl
  | preClose autoAck =>
    obtain ⟨l₁, hb, rfl⟩ := preClose_ok h
    split_ifs
    · exact congrArg (fun w => { w with status := .closed }) (withStatusOf_of_rest hb.rest)
    · exact withStatusOf_of_rest hb.rest
  | cancelPreClose autoAck =>
    obtain ⟨-, l₁, hb, rfl⟩ := cancelPreClose_ok h
    exact congrArg (fun w => { w with status := .opened }) (withStatusOf_of_rest hb.rest)
  | close timestamp => cases h; rfl
  | addFile | addMetadataItem | addLink =>
    obtain ⟨-, rfl⟩ := addItem_ok h
    exact withStatusOf_of_rest (withoutItems_setItems _)
  | removeItem k remover key =>
    obtain ⟨_, -, rfl⟩ := removeItem_ok h
    exact withStatusOf_of_rest
      ((withoutItems_setItemsToDelete _).trans (withoutItems_setItems _))
  | requestItemReview k key => exact withStatusOf_of_rest (mutateItem_rest h)
  | acceptItem k key now => exact withStatusOf_of_rest (mutateItem_rest (guard_ok h))
  | rejectItem k key reason now => exact withStatusOf_of_rest (mutateItem_rest (guard_ok h))
  | prePublishOrAcknowledgeItem | cancelPrePublishOrAcknowledgeItem | preAcknowledgeItem
  | cancelPreAcknowledgeItem => exact withStatusOf_of_rest (mutateItem_rest (roleCheck_ok h).2)
  | setItemAddedOn k key addedOn =>
    cases h
    exact withStatusOf_of_rest (setItemAddedOn_oneItem addedOn).rest
  | setFileFees => exact withStatusOf_of_rest (mutateItem_rest h)
  | updateFileContent => exact withStatusOf_of_rest (mutateItem_rest h)
  | setFileRestrictedDelivery hash restricted =>
    change l.setFileRestrictedDelivery hash restricted = .ok l' at h
    unfold setFileRestrictedDelivery at h
    split_ifs at h
    exact withStatusOf_of_rest (mutateItem_rest h)
  | setMetadataItemFee => cases h; rfl
  | setLinkFee => cases h; rfl
  | preVoid | cancelPreVoid | voidLoc | initIdenfyVerification | updateIdenfyVerification
  | addSecret | removeSecret | deleteDraftRejectedOrAccepted | deleteOpen => cases hop

/-- The id and the parties of a LOC never change. -/
theorem step_parties [Hashing] {l l' : LocRequest} {op : LocOp} (h : l.step op = .ok l') :
    l'.id = l.id ∧ l'.ownerAddress = l.ownerAddress ∧ l'.requester = l.requester := by
  cases hop : op.isSide with
  | true =>
    rw [(step_side hop h).eq]
    exact ⟨rfl, rfl, rfl⟩
  | false =>
    have hrest := step_withoutItems hop h
    have hid : l'.withoutItems.id = (l.withStatusOf l').withoutItems.id := by rw [hrest]
    exact ⟨hid, owner_of_withoutItems (l := l.withStatusOf l') hrest,
      requester_of_withoutItems (l := l.withStatusOf l') hrest⟩

theorem step_isOwner [Hashing] {l l' : LocRequest} {op : LocOp} (h : l.step op = .ok l')
    (account : AccountId) : l'.isOwner account = l.isOwner account := by
  unfold isOwner getOwner
  rw [(step_parties h).2.1]

theorem step_isVerifiedIssuer [Hashing] {l l' : LocRequest} {op : LocOp} (h : l.step op = .ok l')
    (account : AccountId) : l'.isVerifiedIssuer account = l.isVerifiedIssuer account :=
  isVerifiedIssuer_congr (step_parties h).2.1 (step_parties h).2.2 account

end LocRequest

end Logion
