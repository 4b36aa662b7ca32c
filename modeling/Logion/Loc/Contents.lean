import Logion.Loc.Projection

/-!
# Contents — what an item says does not change

The columns of an item that its submitter writes stay as they are while the item is on the LOC: the
transitions write the lifecycle, the synchroniser writes fees, the owner of a collection sets
`restrictedDelivery`, downloads add delivered copies.  `updateFileContent` is the exception.

* `ItemData.content`: the columns that the submitter writes.
* `step_content`: one operation.
-/

namespace Logion

open Fallible Keyed

/-- The columns that the submitter of an item writes. -/
def ItemData.content : {k : ItemKind} → ItemData k → ItemData k
  | .metadata, data =>
    let data : MetadataData := data
    ({ data with inclusionFee := none } : MetadataData)
  | .file, data =>
    let data : FileData := data
    ({ data with restrictedDelivery := false, fees := none, storageFeePaidBy := none, delivered := [] }
      : FileData)
  | .link, data =>
    let data : LinkData := data
    ({ data with inclusionFee := none } : LinkData)

/-- The one operation that rewrites them. -/
def LocOp.rewritesContent : LocOp → Bool
  | .updateFileContent .. => true
  | _ => false

namespace LocRequest

variable {l l' l₁ : LocRequest} {k : ItemKind} {key : String}

/-- The items of `l'` are those of `l`, with their contents. -/
structure SameContents (l l' : LocRequest) : Prop where
  keys : ∀ k, (l'.items k).map Item.key = (l.items k).map Item.key
  content : ∀ {k key} {item item' : Item k}, l.item? k key = some item →
    l'.item? k key = some item' → item'.data.content = item.data.content

theorem SameContents.of_items (h : ∀ k, l'.items k = l.items k) : SameContents l l' where
  keys k := by rw [h k]
  content {k key item item'} hit hit' := by
    rw [item?, h k] at hit'
    rw [Option.some.inj (hit'.symm.trans hit)]

theorem SameContents.trans (h : SameContents l l₁) (h' : SameContents l₁ l') :
    SameContents l l' where
  keys k := (h'.keys k).trans (h.keys k)
  content {k key item item'} hit hit' := by
    have hsome : (l₁.item? k key).isSome := by
      rw [item?, findItem, lookup_isSome, h.keys k, ← lookup_isSome, ← findItem, ← item?, hit]
      rfl
    obtain ⟨item₁, hit₁⟩ := Option.isSome_iff_exists.mp hsome
    rw [h'.content hit₁ hit', h.content hit hit₁]

theorem Bulk.sameContents {mutator : (k : ItemKind) → Item k → Except Err EmbeddableLifecycle}
    {filter : (k : ItemKind) → Item k → Bool} (h : Bulk l l' mutator filter) : SameContents l l' where
  keys := h.keys
  content {k key item item'} hit hit' := by
    obtain ⟨item₀, h1, h2⟩ :=
      lookup_mapM (fun _ _ hxy => (mutateAllItems_item hxy).1) (h.items k) hit'
    obtain rfl : item₀ = item := Option.some.inj (h1.symm.trans hit)
    rw [(mutateAllItems_item h2).2.2.2.1]

theorem OneItem.sameContents {g : Item k → Item k} (h : OneItem l l' k key g)
    (hg : ∀ item, l.item? k key = some item → (g item).data.content = item.data.content) :
    SameContents l l' where
  keys := h.keys
  content {k' key' item item'} hit hit' := by
    by_cases hk : k' = k ∧ key' = key
    · obtain ⟨rfl, rfl⟩ := hk
      rw [h.item_self, hit] at hit'
      cases hit'
      exact hg item hit
    · rw [h.item_of_ne hk, hit] at hit'
      cases hit'
      rfl

theorem mutateItem_sameContents {mutate : Item k → Except Err (Item k)}
    (hm : ∀ item item', mutate item = .ok item' →
      item'.key = item.key ∧ item'.data.content = item.data.content)
    (h : l.mutateItem k key mutate = .ok l') : SameContents l l' := by
  obtain ⟨item, item', hit, hmutate, hone⟩ := mutateItem_ok (fun _ _ h => (hm _ _ h).1) h
  refine hone.sameContents fun item₀ hit₀ => ?_
  obtain rfl : item = item₀ := Option.some.inj (hit.symm.trans hit₀)
  exact (hm _ _ hmutate).2

theorem mutateLifecycle_sameContents {mutate : Item k → Except Err EmbeddableLifecycle}
    (h : l.mutateLifecycle k key mutate = .ok l') : SameContents l l' :=
  mutateItem_sameContents (fun item item' hm => by
    obtain ⟨c, -, hm⟩ := bind_eq_ok.mp hm
    cases hm
    exact ⟨rfl, rfl⟩) h

theorem publishAll_sameContents {mutate : LocRequest → Item k → Except Err EmbeddableLifecycle}
    {keys : List String}
    (h : keys.foldlM (fun l key => l.mutateLifecycle k key (mutate l)) l = .ok l') :
    SameContents l l' := by
  induction keys generalizing l with
  | nil =>
    cases h
    exact .of_items fun _ => rfl
  | cons key keys ih =>
    rw [List.foldlM_cons] at h
    obtain ⟨l₁, h1, h⟩ := bind_eq_ok.mp h
    exact (mutateLifecycle_sameContents h1).trans (ih h)

theorem openLoc_sameContents {createdOn : Moment} {items : LocItems}
    (h : l.openLoc createdOn items = .ok l') : SameContents l l' := by
  have hstart : ∀ {l₀ : LocRequest}, (∀ k, l₀.items k = l.items k) → SameContents l l₀ :=
    fun hitems => .of_items hitems
  rcases openLoc_ok h with ⟨-, h⟩ | ⟨-, rfl⟩
  · obtain ⟨l₁, h1, h⟩ := bind_eq_ok.mp h
    obtain ⟨l₂, h2, h3⟩ := bind_eq_ok.mp h
    have hrest := ((publishAll_sameContents h1).trans (publishAll_sameContents h2)).trans
      (publishAll_sameContents h3)
    exact (hstart fun k => by cases k <;> rfl).trans hrest
  · exact hstart fun k => by cases k <;> rfl

/-- **The items that are there before and after an operation say the same.** -/
theorem step_content [Hashing] {op : LocOp} (hd : l.DistinctKeys)
    (hop : op.rewritesContent = false) (h : l.step op = .ok l') {item item' : Item k}
    (hit : l.item? k key = some item) (hit' : l'.item? k key = some item') :
    item'.data.content = item.data.content := by
  have hsame : ∀ {l₀ l₁ : LocRequest}, (∀ k, l₀.items k = l.items k) →
      (∀ k, l'.items k = l₁.items k) → SameContents l₀ l₁ →
      item'.data.content = item.data.content := by
    intro l₀ l₁ h0 h1 hsame
    have hall := ((SameContents.of_items h0).trans hsame).trans (.of_items h1)
    exact hall.content hit hit'
  have hone : SameContents l l' → item'.data.content = item.data.content :=
    fun hsame => hsame.content hit hit'
  have hadd : ∀ {k' : ItemKind} {key' : String} {submitter : AccountId} {data : ItemData k'}
      {type : SubmissionType} {now : Moment},
      l.addItem k' key' submitter data type now = .ok l' →
      item'.data.content = item.data.content := by
    intro k' key' submitter data type now hadd
    rw [addItem_items hadd hit] at hit'
    cases hit'
    rfl
  have hitems : (∀ k, l'.items k = l.items k) → item'.data.content = item.data.content :=
    fun hitems => hone (.of_items hitems)
  cases op with
  | submit =>
    obtain ⟨-, hb⟩ := submit_ok h
    exact hsame (fun k => by cases k <;> rfl) (fun _ => rfl) hb.sameContents
  | reject reason rejectedOn => obtain ⟨-, rfl⟩ := reject_ok h; exact hitems fun k => by cases k <;> rfl
  | rework => obtain ⟨-, rfl⟩ := rework_ok h; exact hitems fun k => by cases k <;> rfl
  | accept decisionOn => obtain ⟨-, rfl⟩ := accept_ok h; exact hitems fun k => by cases k <;> rfl
  | preOpen autoPublish =>
    obtain ⟨-, l₁, hb, rfl⟩ := preOpen_ok h
    exact hsame (fun _ => rfl) (fun k => by cases k <;> rfl) hb.sameContents
  | cancelPreOpen autoPublish =>
    obtain ⟨-, l₁, hb, rfl⟩ := cancelPreOpen_ok h
    exact hsame (fun _ => rfl) (fun k => by cases k <;> rfl) hb.sameContents
  | openLoc createdOn items => exact hone (openLoc_sameContents h)
  | preClose autoAck =>
    obtain ⟨l₁, hb, rfl⟩ := preClose_ok h
    refine hsame (fun _ => rfl) (fun k => ?_) hb.sameContents
    split_ifs
    · cases k <;> rfl
    · rfl
  | cancelPreClose autoAck =>
    obtain ⟨-, l₁, hb, rfl⟩ := cancelPreClose_ok h
    exact hsame (fun _ => rfl) (fun k => by cases k <;> rfl) hb.sameContents
  | close timestamp => cases h; exact hitems fun k => by cases k <;> rfl
  | addFile | addMetadataItem | addLink => exact hadd h
  | removeItem k' remover key' =>
    by_cases hk : k = k'
    · subst hk
      by_cases hkey : key = key'
      · subst hkey
        rw [removeItem_item_self hd h] at hit'
        cases hit'
      · obtain ⟨removed, hrem, -⟩ := removeItem_ok h
        rw [removeItem_item_ne hrem h hkey, hit] at hit'
        cases hit'
        unfold reindexChild
        split_ifs <;> rfl
    · rw [item?, removeItem_items_of_ne h hk] at hit'
      rw [Option.some.inj (hit'.symm.trans hit)]
  | requestItemReview k' key' => exact hone (mutateLifecycle_sameContents h)
  | acceptItem k' key' now => exact hone (mutateLifecycle_sameContents (guard_ok h))
  | rejectItem k' key' reason now => exact hone (mutateLifecycle_sameContents (guard_ok h))
  | prePublishOrAcknowledgeItem | cancelPrePublishOrAcknowledgeItem | preAcknowledgeItem
  | cancelPreAcknowledgeItem => exact hone (mutateLifecycle_sameContents (roleCheck_ok h).2)
  | setItemAddedOn k' key' addedOn =>
    cases h
    exact hone ((setItemAddedOn_oneItem addedOn).sameContents fun _ _ => rfl)
  | setFileFees =>
    exact hone (mutateItem_sameContents (fun _ _ hm => by cases hm; exact ⟨rfl, rfl⟩) h)
  | updateFileContent => cases hop
  | setFileRestrictedDelivery hash restricted =>
    change l.setFileRestrictedDelivery hash restricted = .ok l' at h
    unfold setFileRestrictedDelivery at h
    split_ifs at h
    exact hone (mutateItem_sameContents (fun _ _ hm => by cases hm; exact ⟨rfl, rfl⟩) h)
  | setMetadataItemFee nameHash fee =>
    cases h
    exact hone ((setMetadataItemFee_oneItem nameHash fee).sameContents fun _ _ => rfl)
  | setLinkFee target fee =>
    cases h
    exact hone ((setLinkFee_oneItem target fee).sameContents fun _ _ => rfl)
  | preVoid | cancelPreVoid | voidLoc | initIdenfyVerification | updateIdenfyVerification
  | addSecret | removeSecret | deleteDraftRejectedOrAccepted | deleteOpen =>
    exact hitems (step_sameCore rfl h).items

end LocRequest

end Logion
