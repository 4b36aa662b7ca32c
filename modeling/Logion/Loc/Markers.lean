import Logion.Loc.Projection

/-!
# Markers — what an operation does to the columns and the markers of the items

Additions and removals apart, an operation keeps the key and the index of every item, and an item
that it changes is marked to be updated.

* `Rewritten item item'`: what becomes of one item.
* `Rewrites l l'`: what becomes of the collections and of the lists of children to delete.
* `step_rewrites`: every operation but additions and removals.
* `step_secrets`: the operations that write the secrets.
-/

namespace Logion

open Keyed Fallible

/-! ### One item -/

/-- The key of a metadata item is the hash of its name. -/
def Item.Named [Hashing] : {k : ItemKind} → Item k → Prop
  | .metadata, item =>
    let data : MetadataData := item.data
    item.key = Hashing.of data.name
  | .file, _ => True
  | .link, _ => True

/-- `item` has become `item'`: its key, its index and its `_toAdd` are kept, and it is marked unless
it is the same. -/
structure Item.Rewritten [Hashing] {k : ItemKind} (item item' : Item k) : Prop where
  key : item'.key = item.key
  index : item'.index = item.index
  toAdd : item'.toAdd = item.toAdd
  named : item.Named → item'.Named
  marked : item'.toUpdate = true ∨ item' = item

section

variable [Hashing] {k : ItemKind} {item item' item'' : Item k}

theorem Item.Rewritten.refl (item : Item k) : item.Rewritten item :=
  ⟨rfl, rfl, rfl, id, .inr rfl⟩

theorem Item.Rewritten.trans (h : item.Rewritten item') (h' : item'.Rewritten item'') :
    item.Rewritten item'' where
  key := h'.key.trans h.key
  index := h'.index.trans h.index
  toAdd := h'.toAdd.trans h.toAdd
  named hn := h'.named (h.named hn)
  marked := by
    rcases h'.marked with hm | rfl
    · exact .inl hm
    · exact h.marked

/-- Another lifecycle, marked. -/
theorem Item.Rewritten.lifecycle (item : Item k) (c : EmbeddableLifecycle) :
    item.Rewritten { item with lifecycle := c, toUpdate := true } where
  key := rfl
  index := rfl
  toAdd := rfl
  named hn := by cases k <;> exact hn
  marked := .inl rfl

end

/-! ### The collections -/

namespace LocRequest

variable [Hashing] {l l' l₁ : LocRequest} {k : ItemKind} {key : String}

/-- Every item of `l` has become one of `l'`, in the same order. -/
structure Rewrites (l l' : LocRequest) : Prop where
  items : ∀ k, List.Forall₂ Item.Rewritten (l.items k) (l'.items k)
  toDelete : ∀ k, l'.itemsToDelete k = l.itemsToDelete k

theorem rewritten_refl (items : List (Item k)) : List.Forall₂ Item.Rewritten items items :=
  List.forall₂_same.mpr fun item _ => .refl item

theorem rewritten_trans {xs ys zs : List (Item k)} (h : List.Forall₂ Item.Rewritten xs ys)
    (h' : List.Forall₂ Item.Rewritten ys zs) : List.Forall₂ Item.Rewritten xs zs := by
  induction h generalizing zs with
  | nil => exact h'
  | cons hxy _ ih =>
    obtain ⟨z, zs, hyz, hrest, rfl⟩ := List.forall₂_cons_left_iff.mp h'
    exact .cons (hxy.trans hyz) (ih hrest)

theorem Rewrites.trans (h : Rewrites l l₁) (h' : Rewrites l₁ l') : Rewrites l l' where
  items k := rewritten_trans (h.items k) (h'.items k)
  toDelete k := (h'.toDelete k).trans (h.toDelete k)

theorem Rewrites.of_items (hitems : ∀ k, l'.items k = l.items k)
    (hdelete : ∀ k, l'.itemsToDelete k = l.itemsToDelete k) : Rewrites l l' where
  items k := by
    rw [hitems k]
    exact rewritten_refl _
  toDelete := hdelete

theorem rewritten_modifyFirst {g : Item k → Item k} {items : List (Item k)}
    (hg : ∀ item, lookup Item.key key items = some item → item.Rewritten (g item)) :
    List.Forall₂ Item.Rewritten items (modifyFirst Item.key key g items) := by
  induction items with
  | nil => exact .nil
  | cons item items ih =>
    by_cases hkey : item.key = key
    · rw [modifyFirst, if_pos hkey]
      exact .cons (hg item (by rw [lookup_cons, if_pos hkey])) (rewritten_refl items)
    · rw [modifyFirst, if_neg hkey]
      refine .cons (.refl item) (ih fun x hx => hg x ?_)
      rw [lookup_cons, if_neg hkey]
      exact hx

theorem OneItem.rewrites {g : Item k → Item k} (h : OneItem l l' k key g)
    (hg : ∀ item, l.item? k key = some item → item.Rewritten (g item)) : Rewrites l l' where
  items k' := by
    rw [h.eq]
    by_cases hk : k' = k
    · subst hk
      rw [items_setItems_self]
      exact rewritten_modifyFirst hg
    · rw [items_setItems_of_ne hk]
      exact rewritten_refl _
  toDelete k' := by rw [h.eq, itemsToDelete_setItems]

theorem mutateLifecycle_rewrites {mutate : Item k → Except Err EmbeddableLifecycle}
    (h : l.mutateLifecycle k key mutate = .ok l') : Rewrites l l' := by
  obtain ⟨item, c, hit, -, hone⟩ := mutateLifecycle_ok h
  refine hone.rewrites fun item' hit' => ?_
  cases hit.symm.trans hit'
  exact .lifecycle item c

theorem Bulk.rewrites {mutator : (k : ItemKind) → Item k → Except Err EmbeddableLifecycle}
    {filter : (k : ItemKind) → Item k → Bool} (h : Bulk l l' mutator filter) : Rewrites l l' where
  items k := by
    refine (mapM_eq_ok.mp (h.items k)).imp fun item item' hitem => ?_
    by_cases hsel : filter k item = true
    · rw [if_pos hsel] at hitem
      obtain ⟨c, -, hitem⟩ := bind_eq_ok.mp hitem
      cases hitem
      exact .lifecycle item c
    · rw [if_neg hsel] at hitem
      cases hitem
      exact .refl item
  toDelete := h.toDelete

theorem prePublishOrAcknowledgeItems_rewrites {addedOn : Moment} {items : LocItems}
    (h : l.prePublishOrAcknowledgeItems addedOn items = .ok l') : Rewrites l l' := by
  have hloop : ∀ {k : ItemKind} {keys : List String} {l l' : LocRequest},
      keys.foldlM (fun l key => l.mutateLifecycle k key fun item =>
        item.lifecycle.prePublishOrAcknowledge (l.isPublishAcknowledge item.submitter)
          (some addedOn)) l = .ok l' → Rewrites l l' := by
    intro k keys l l' hkeys
    exact foldlM_invariant (I := Rewrites l)
      (fun _ _ _ hl hstep => hl.trans (mutateLifecycle_rewrites hstep))
      (.of_items (fun _ => rfl) fun _ => rfl) hkeys
  obtain ⟨l₁, h₁, h⟩ := bind_eq_ok.mp h
  obtain ⟨l₂, h₂, h₃⟩ := bind_eq_ok.mp h
  exact ((hloop h₁).trans (hloop h₂)).trans (hloop h₃)

/-- A rewrite of the other columns of a file. -/
theorem mutateFile_rewrites {hash : Hash} {mutate : LocFile → FileData}
    (h : l.mutateItem .file hash (fun file => return { file with data := mutate file }) = .ok l') :
    Rewrites l l' := by
  obtain ⟨item, item', hit, heq, hone⟩ := mutateItem_ok (fun _ _ hm => by cases hm; rfl) h
  refine hone.rewrites fun item₀ hit₀ => ?_
  cases hit.symm.trans hit₀
  cases heq
  exact ⟨rfl, rfl, rfl, fun _ => trivial, .inl rfl⟩

/-! ### Every operation -/

/-- **Columns and markers.**  An operation that returns, additions and removals apart. -/
theorem step_rewrites {op : LocOp} (hop : op.changesItems = false) (h : l.step op = .ok l') :
    Rewrites l l' := by
  have hsame : ∀ {l l' : LocRequest}, l.items = l'.items → l.itemsToDelete = l'.itemsToDelete →
      Rewrites l l' :=
    fun hitems hdelete => .of_items (fun k => by rw [hitems]) fun k => by rw [hdelete]
  cases op with
  | submit =>
    have hpending : Rewrites l { l with status := .reviewPending } := hsame rfl rfl
    exact hpending.trans (submit_ok h).2.rewrites
  | reject => obtain ⟨-, rfl⟩ := reject_ok h; exact hsame rfl rfl
  | rework => obtain ⟨-, rfl⟩ := rework_ok h; exact hsame rfl rfl
  | accept => obtain ⟨-, rfl⟩ := accept_ok h; exact hsame rfl rfl
  | preOpen autoPublish =>
    obtain ⟨-, l₁, hb, rfl⟩ := preOpen_ok h
    exact hb.rewrites.trans (hsame rfl rfl)
  | cancelPreOpen autoPublish =>
    obtain ⟨-, l₁, hb, rfl⟩ := cancelPreOpen_ok h
    exact hb.rewrites.trans (hsame rfl rfl)
  | openLoc createdOn items =>
    rcases openLoc_ok h with ⟨-, h⟩ | ⟨-, rfl⟩
    · have hopened : Rewrites l { l with locCreatedOn := some createdOn, status := .opened } :=
        hsame rfl rfl
      exact hopened.trans (prePublishOrAcknowledgeItems_rewrites h)
    · exact hsame rfl rfl
  | preClose autoAck =>
    obtain ⟨l₁, hb, rfl⟩ := preClose_ok h
    split_ifs
    · exact hb.rewrites.trans (hsame rfl rfl)
    · exact hb.rewrites
  | cancelPreClose autoAck =>
    obtain ⟨-, l₁, hb, rfl⟩ := cancelPreClose_ok h
    exact hb.rewrites.trans (hsame rfl rfl)
  | close => cases h; exact hsame rfl rfl
  | requestItemReview => exact mutateLifecycle_rewrites h
  | acceptItem | rejectItem => exact mutateLifecycle_rewrites (guard_ok h)
  | prePublishOrAcknowledgeItem | cancelPrePublishOrAcknowledgeItem | preAcknowledgeItem
  | cancelPreAcknowledgeItem => exact mutateLifecycle_rewrites (roleCheck_ok h).2
  | setItemAddedOn k key addedOn =>
    cases h
    exact (setItemAddedOn_oneItem addedOn).rewrites fun item _ => .lifecycle item _
  | setFileFees => exact mutateFile_rewrites h
  | updateFileContent => exact mutateFile_rewrites h
  | setFileRestrictedDelivery hash restricted =>
    change l.setFileRestrictedDelivery hash restricted = .ok l' at h
    unfold setFileRestrictedDelivery at h
    split_ifs at h
    exact mutateFile_rewrites h
  | setMetadataItemFee nameHash fee =>
    cases h
    exact (setMetadataItemFee_oneItem nameHash fee).rewrites fun _ _ =>
      ⟨rfl, rfl, rfl, fun hn => hn, .inl rfl⟩
  | setLinkFee target fee =>
    cases h
    exact (setLinkFee_oneItem target fee).rewrites fun _ _ =>
      ⟨rfl, rfl, rfl, fun hn => hn, .inl rfl⟩
  | preVoid | cancelPreVoid | voidLoc | initIdenfyVerification | updateIdenfyVerification
  | addSecret | removeSecret | deleteDraftRejectedOrAccepted | deleteOpen =>
    rw [(step_side rfl h).eq]
    exact hsame rfl rfl
  | addFile | addMetadataItem | addLink | removeItem => cases hop

/-- The other operations leave the secrets. -/
theorem step_secrets {op : LocOp} (hop : op.isSecret = false) (h : l.step op = .ok l') :
    l'.secrets = l.secrets ∧ l'.secretsToDelete = l.secretsToDelete := by
  cases hside : op.isSide with
  | false =>
    have hrest := step_withoutItems hside h
    have hsecrets : l'.withoutItems.secrets = (l.withStatusOf l').withoutItems.secrets := by
      rw [hrest]
    have hdelete : l'.withoutItems.secretsToDelete =
        (l.withStatusOf l').withoutItems.secretsToDelete := by
      rw [hrest]
    exact ⟨hsecrets, hdelete⟩
  | true => exact (step_side hside h).secrets hop

end LocRequest

end Logion
