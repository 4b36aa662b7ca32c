import Logion.Loc.Effects

/-!
# Projection — what a LOC operation does to one item

Every operation of a LOC acts on an item through transitions of its lifecycle: `lifecycleOps l k item
op` lists those that the operation `op` makes on `item`.

* `Moves l l' ops`: the items of `l'` are those of `l`, each after its transitions `ops`.
* `step_item`: an operation that returns has removed the item or made exactly `lifecycleOps` on it.
* `step_item_from`: an item that is there comes from one that was, or was just added.
* `step_distinctKeys`: the keys of a collection stay distinct.
-/

namespace Logion

open Keyed Fallible

namespace LocRequest

variable {l l' l₁ : LocRequest} {k k' : ItemKind} {key key' : String}

/-- `op` on the item of kind `k` and key `key`, nothing on the others; `op` may read the submitter. -/
def onItem (k : ItemKind) (key : String) (op : AccountId → LifecycleOp) (k' : ItemKind)
    (item : Item k') : List LifecycleOp :=
  if k' = k ∧ item.key = key then [op item.submitter] else []

theorem onItem_self {op : AccountId → LifecycleOp} {item : Item k} (hkey : item.key = key) :
    onItem k key op k item = [op item.submitter] :=
  if_pos ⟨rfl, hkey⟩

theorem mem_onItem {op : AccountId → LifecycleOp} {item : Item k}
    {o : LifecycleOp} (hkey : item.key = key) (h : o ∈ onItem k' key' op k item) :
    k' = k ∧ key' = key ∧ o = op item.submitter := by
  unfold onItem at h
  split_ifs at h with h1
  · exact ⟨h1.1.symm, h1.2.symm.trans hkey, List.mem_singleton.mp h⟩
  · cases h

/-- The transitions an operation of the LOC makes on an item. -/
def lifecycleOps (l : LocRequest) (k : ItemKind) (item : Item k) : LocOp → List LifecycleOp
  | .submit => if item.status = .draft then [.setStatus .reviewPending] else []
  | .preOpen autoPublish =>
    if autoPublish && item.status = .reviewAccepted then
      [.prePublishOrAcknowledge (l.isPublishAcknowledge item.submitter) none]
    else []
  | .cancelPreOpen autoPublish =>
    if autoPublish && (item.status = .published && item.lifecycle.addedOn.isNone) then
      [.cancelPrePublishOrAcknowledge (l.isPublishAcknowledge item.submitter)]
    else []
  | .openLoc createdOn items =>
    if l.status = .reviewAccepted ∨ l.status = .opened then
      List.replicate ((items.keys k).count item.key)
        (.prePublishOrAcknowledge (l.isPublishAcknowledge item.submitter) (some createdOn))
    else []
  | .preClose autoAck =>
    if autoAck then [.preAcknowledge (l.isVerifiedIssuer item.submitter) false none] else []
  | .cancelPreClose autoAck =>
    if autoAck && (item.status = .acknowledged && item.lifecycle.acknowledgedByOwnerOn.isNone) then
      [.cancelPreAcknowledge false]
    else []
  | .requestItemReview k' key => onItem k' key (fun _ => .requestReview) k item
  | .acceptItem k' key now => onItem k' key (fun _ => .accept now) k item
  | .rejectItem k' key reason now => onItem k' key (fun _ => .reject reason now) k item
  | .prePublishOrAcknowledgeItem k' key _ =>
    onItem k' key (fun submitter => .prePublishOrAcknowledge (l.isPublishAcknowledge submitter) none)
      k item
  | .cancelPrePublishOrAcknowledgeItem k' key _ =>
    onItem k' key
      (fun submitter => .cancelPrePublishOrAcknowledge (l.isPublishAcknowledge submitter)) k item
  | .preAcknowledgeItem k' key contributor acknowledgedOn =>
    onItem k' key (fun submitter =>
      .preAcknowledge (l.isVerifiedIssuer submitter) (l.isVerifiedIssuer contributor) acknowledgedOn)
      k item
  | .cancelPreAcknowledgeItem k' key contributor =>
    onItem k' key (fun _ => .cancelPreAcknowledge (l.isVerifiedIssuer contributor)) k item
  | .setItemAddedOn k' key addedOn => onItem k' key (fun _ => .setAddedOn addedOn) k item
  | _ => []

/-! ### Moves -/

/-- The items of `l'` are those of `l`, each after its transitions. -/
structure Moves (l l' : LocRequest) (ops : (k : ItemKind) → Item k → List LifecycleOp) : Prop where
  keys : ∀ k, (l'.items k).map Item.key = (l.items k).map Item.key
  item : ∀ {k key item'}, l'.item? k key = some item' → ∃ item, l.item? k key = some item ∧
    item'.submitter = item.submitter ∧ item.lifecycle.steps (ops k item) = .ok item'.lifecycle

variable {ops ops' : (k : ItemKind) → Item k → List LifecycleOp}

/-- The forward reading: an item of `l` is still there, after its transitions. -/
theorem Moves.forward (h : Moves l l' ops) {item : Item k} (hit : l.item? k key = some item) :
    ∃ item', l'.item? k key = some item' ∧ item'.submitter = item.submitter ∧
      item.lifecycle.steps (ops k item) = .ok item'.lifecycle := by
  have hsome : (l'.item? k key).isSome := by
    rw [item?, findItem, lookup_isSome, h.keys k, ← lookup_isSome, ← findItem, ← item?, hit]
    rfl
  obtain ⟨item', hit'⟩ := Option.isSome_iff_exists.mp hsome
  obtain ⟨item₀, h1, h2⟩ := h.item hit'
  rw [hit] at h1
  cases h1
  exact ⟨item', hit', h2⟩

theorem Moves.of_items (h : ∀ k, l'.items k = l.items k) : Moves l l' (fun _ _ => []) where
  keys k := by rw [h k]
  item {k key item'} hit := by
    rw [item?, h k] at hit
    exact ⟨item', hit, rfl, rfl⟩

theorem Moves.of_items_right (h : Moves l l₁ ops) (hitems : ∀ k, l'.items k = l₁.items k) :
    Moves l l' ops where
  keys k := by rw [hitems k, h.keys k]
  item {k key item'} hit := by
    rw [item?, hitems k] at hit
    exact h.item hit

theorem Moves.of_items_left (h : Moves l₁ l' ops) (hitems : ∀ k, l₁.items k = l.items k) :
    Moves l l' ops where
  keys k := by rw [h.keys k, hitems k]
  item hit := by
    obtain ⟨item, hit₁, h⟩ := h.item hit
    rw [item?, hitems] at hit₁
    exact ⟨item, hit₁, h⟩

theorem steps_append {c c' c'' : EmbeddableLifecycle} {os os' : List LifecycleOp}
    (h : c.steps os = .ok c') (h' : c'.steps os' = .ok c'') : c.steps (os ++ os') = .ok c'' := by
  unfold EmbeddableLifecycle.steps at *
  rw [List.foldlM_append, h]
  exact h'

theorem Moves.trans (h : Moves l l₁ ops) (h' : Moves l₁ l' ops')
    (hops : ∀ k (item item' : Item k), item'.key = item.key → item'.submitter = item.submitter →
      ops' k item' = ops' k item) :
    Moves l l' (fun k item => ops k item ++ ops' k item) where
  keys k := (h'.keys k).trans (h.keys k)
  item {k key item'} hit := by
    obtain ⟨item₁, hit₁, hsub', hsteps'⟩ := h'.item hit
    obtain ⟨item, hit₀, hsub, hsteps⟩ := h.item hit₁
    have hkey : item₁.key = item.key := (item?_key hit₁).trans (item?_key hit₀).symm
    rw [hops k item item₁ hkey hsub] at hsteps'
    exact ⟨item, hit₀, hsub'.trans hsub, steps_append hsteps hsteps'⟩

theorem Moves.congr (h : Moves l l' ops) (heq : ∀ k item, ops k item = ops' k item) :
    Moves l l' ops' := by
  have : ops = ops' := funext fun k => funext fun item => heq k item
  rwa [← this]

theorem steps_singleton {c : EmbeddableLifecycle} {op : LifecycleOp} : c.steps [op] = c.step op := by
  unfold EmbeddableLifecycle.steps
  rw [List.foldlM_cons]
  cases c.step op <;> rfl

/-- A bulk operation moves the selected items. -/
theorem Bulk.moves {filter : (k : ItemKind) → Item k → Bool}
    (op : (k : ItemKind) → Item k → LifecycleOp)
    (h : Bulk l l' (fun k item => item.lifecycle.step (op k item)) filter) :
    Moves l l' (fun k item => if filter k item then [op k item] else []) where
  keys := h.keys
  item hit := by
    obtain ⟨item, hit₀, hsub, hc⟩ := h.item hit
    refine ⟨item, hit₀, hsub, ?_⟩
    by_cases hf : filter _ item
    · rw [if_pos hf] at hc ⊢
      rw [steps_singleton]
      exact hc
    · rw [if_neg hf] at hc ⊢
      exact hc

/-- A rewrite of one item that keeps its submitter and makes the transitions `os item`. -/
theorem OneItem.moves {g : Item k → Item k} (os : Item k → List LifecycleOp)
    (h : OneItem l l' k key g)
    (hg : ∀ item, l.item? k key = some item → (g item).submitter = item.submitter ∧
      item.lifecycle.steps (os item) = .ok (g item).lifecycle)
    (hself : ∀ item : Item k, item.key = key → ops k item = os item)
    (hother : ∀ (k' : ItemKind) (item : Item k'), ¬(k' = k ∧ item.key = key) → ops k' item = []) :
    Moves l l' ops where
  keys := h.keys
  item {k' key' item'} hit := by
    by_cases hk : k' = k ∧ key' = key
    · obtain ⟨rfl, rfl⟩ := hk
      rw [h.item_self] at hit
      obtain ⟨item, hit₀, rfl⟩ := Option.map_eq_some_iff.mp hit
      refine ⟨item, hit₀, (hg item hit₀).1, ?_⟩
      rw [hself item (item?_key hit₀)]
      exact (hg item hit₀).2
    · rw [h.item_of_ne hk] at hit
      refine ⟨item', hit, rfl, ?_⟩
      rw [hother k' item' fun ⟨h1, h2⟩ => hk ⟨h1, (item?_key hit).symm.trans h2⟩]
      rfl

/-- One transition of one item. -/
theorem mutateLifecycle_moves (op : AccountId → LifecycleOp)
    (h : l.mutateLifecycle k key (fun item => item.lifecycle.step (op item.submitter)) = .ok l') :
    Moves l l' (onItem k key op) := by
  obtain ⟨item, c, hit, hc, hone⟩ := mutateLifecycle_ok h
  refine hone.moves (fun item => [op item.submitter]) (fun item' hit' => ?_)
    (fun item' hkey => if_pos ⟨rfl, hkey⟩) (fun k' item' hne => if_neg hne)
  rw [hit] at hit'
  cases hit'
  exact ⟨rfl, by rw [steps_singleton]; exact hc⟩

/-- A rewrite of other columns of one item. -/
theorem OneItem.moves_nil {g : Item k → Item k} (h : OneItem l l' k key g)
    (hg : ∀ item, l.item? k key = some item →
      (g item).submitter = item.submitter ∧ (g item).lifecycle = item.lifecycle) :
    Moves l l' (fun _ _ => []) :=
  h.moves (fun _ => []) (fun item hit => ⟨(hg item hit).1, by rw [(hg item hit).2]; rfl⟩)
    (fun _ _ => rfl) (fun _ _ _ => rfl)

/-- A method that rewrites other columns of the item it is given. -/
theorem rewriteItem_moves_nil {g : Item k → Item k}
    (h : l.mutateItem k key (fun item => .ok (g item)) = .ok l')
    (hg : ∀ item, (g item).key = item.key ∧ (g item).submitter = item.submitter ∧
      (g item).lifecycle = item.lifecycle) :
    Moves l l' (fun _ _ => []) := by
  obtain ⟨item, item', hit, hmutate, hone⟩ :=
    mutateItem_ok (fun item item' hm => by cases hm; exact (hg item).1) h
  cases hmutate
  refine hone.moves_nil fun item₀ hit₀ => ?_
  obtain rfl : item = item₀ := Option.some.inj (hit.symm.trans hit₀)
  exact (hg item).2

/-! ### The chain-side opening -/

/-- The publication of an item by `open(items)`. -/
def publication (l : LocRequest) (addedOn : Moment) (submitter : AccountId) : LifecycleOp :=
  .prePublishOrAcknowledge (l.isPublishAcknowledge submitter) (some addedOn)

theorem isPublishAcknowledge_of_owner (h : l'.ownerAddress = l.ownerAddress) (submitter : AccountId) :
    l'.isPublishAcknowledge submitter = l.isPublishAcknowledge submitter := by
  unfold isPublishAcknowledge isOwner getOwner
  rw [h]

theorem publishAll_moves {addedOn : Moment} {keys : List String}
    (h : keys.foldlM (fun l key => l.mutateLifecycle k key fun item =>
      item.lifecycle.prePublishOrAcknowledge (l.isPublishAcknowledge item.submitter)
        (some addedOn)) l = .ok l') :
    Moves l l' (fun k' item => List.replicate (if k' = k then keys.count item.key else 0)
      (l.publication addedOn item.submitter)) := by
  induction keys generalizing l with
  | nil =>
    cases h
    exact (Moves.of_items fun _ => rfl).congr fun k' item => by simp
  | cons key keys ih =>
    rw [List.foldlM_cons] at h
    obtain ⟨l₁, h1, h⟩ := bind_eq_ok.mp h
    have hrest : l₁.withoutItems = l.withoutItems := by
      obtain ⟨_, _, -, -, h2⟩ := mutateLifecycle_ok h1
      exact h2.rest
    have hpub : ∀ submitter, l₁.publication addedOn submitter = l.publication addedOn submitter :=
      fun submitter => by
        rw [publication, publication, isPublishAcknowledge_of_owner (owner_of_withoutItems hrest)]
    have hfirst : Moves l l₁ (onItem k key (l.publication addedOn)) := mutateLifecycle_moves _ h1
    refine (hfirst.trans (ih h) fun k' item item' hkey hsub => by rw [hkey, hsub]).congr ?_
    intro k' item
    rw [hpub, onItem]
    by_cases hk : k' = k
    · by_cases hkey : item.key = key
      · simp [hk, hkey, List.replicate_succ]
      · simp [hk, hkey, Ne.symm hkey]
    · simp [hk]

theorem prePublishOrAcknowledgeItems_moves {addedOn : Moment} {items : LocItems}
    (h : l.prePublishOrAcknowledgeItems addedOn items = .ok l') :
    Moves l l' (fun k item => List.replicate ((items.keys k).count item.key)
      (l.publication addedOn item.submitter)) := by
  obtain ⟨l₁, h1, h⟩ := bind_eq_ok.mp h
  obtain ⟨l₂, h2, h3⟩ := bind_eq_ok.mp h
  have hpub : ∀ {l₀ : LocRequest}, l₀.withoutItems = l.withoutItems →
      ∀ submitter, l₀.publication addedOn submitter = l.publication addedOn submitter :=
    fun hrest submitter => by
      rw [publication, publication, isPublishAcknowledge_of_owner (owner_of_withoutItems hrest)]
  have hr1 := publishAll_rest h1
  have hr2 := (publishAll_rest h2).trans hr1
  have hmoves := ((publishAll_moves h1).trans (publishAll_moves h2)
    fun k item item' hkey hsub => by rw [hkey, hsub]).trans (publishAll_moves h3)
      fun k item item' hkey hsub => by rw [hkey, hsub]
  refine hmoves.congr fun k item => ?_
  rw [hpub hr1, hpub hr2]
  cases k <;> simp [LocItems.keys]

theorem openLoc_moves {createdOn : Moment} {items : LocItems}
    (h : l.openLoc createdOn items = .ok l') :
    Moves l l' (fun k item => l.lifecycleOps k item (.openLoc createdOn items)) := by
  rcases openLoc_ok h with ⟨hst, h⟩ | ⟨hst, rfl⟩
  · refine ((prePublishOrAcknowledgeItems_moves h).of_items_left
      fun k => by cases k <;> rfl).congr fun k item => ?_
    exact (if_pos hst).symm
  · refine (Moves.of_items fun k => by cases k <;> rfl).congr fun k item => ?_
    exact (if_neg hst).symm

/-! ### Every operation -/

theorem setFileFees_moves {hash : Hash} {fees : StorageFees} {paidBy : Option String}
    (h : l.setFileFees hash fees paidBy = .ok l') : Moves l l' (fun _ _ => []) :=
  rewriteItem_moves_nil h fun _ => ⟨rfl, rfl, rfl⟩

theorem updateFileContent_moves {hash : Hash} {name : String} {size : ℕ}
    {contentType cid : Option String}
    (h : l.updateFileContent hash name size contentType cid = .ok l') :
    Moves l l' (fun _ _ => []) :=
  rewriteItem_moves_nil h fun _ => ⟨rfl, rfl, rfl⟩

theorem setFileRestrictedDelivery_moves {hash : Hash} {restricted : Bool}
    (h : l.setFileRestrictedDelivery hash restricted = .ok l') : Moves l l' (fun _ _ => []) := by
  unfold setFileRestrictedDelivery at h
  split_ifs at h with h1
  exact rewriteItem_moves_nil h fun _ => ⟨rfl, rfl, rfl⟩

theorem setMetadataItemFee_oneItem (nameHash : Hash) (inclusionFee : ℕ) :
    OneItem l (l.setMetadataItemFee nameHash inclusionFee) .metadata nameHash (fun item =>
      let data : MetadataData := item.data
      { item with
        data := ({ data with inclusionFee := some inclusionFee } : MetadataData)
        toUpdate := true }) :=
  ⟨fun _ h => h, rfl⟩

theorem setLinkFee_oneItem (target : UUID) (inclusionFee : ℕ) :
    OneItem l (l.setLinkFee target inclusionFee) .link target (fun item =>
      let data : LinkData := item.data
      { item with
        data := ({ data with inclusionFee := some inclusionFee } : LinkData)
        toUpdate := true }) :=
  ⟨fun _ h => h, rfl⟩

theorem setItemAddedOn_moves (addedOn : Moment) :
    Moves l (l.setItemAddedOn k key addedOn) (onItem k key fun _ => .setAddedOn addedOn) :=
  (setItemAddedOn_oneItem addedOn).moves (fun _ => [.setAddedOn addedOn])
    (fun _ _ => ⟨rfl, steps_singleton⟩) (fun _ hkey => if_pos ⟨rfl, hkey⟩)
    (fun _ _ hne => if_neg hne)

/-! ### Additions and removals -/

/-- The keys of every collection are distinct. -/
def DistinctKeys (l : LocRequest) : Prop := ∀ k, ((l.items k).map Item.key).Nodup

theorem addItem_items {submitter : AccountId} {data : ItemData k} {type : SubmissionType}
    {now : Moment} (h : l.addItem k key submitter data type now = .ok l') {k' : ItemKind}
    {key' : String} {item : Item k'} (hit : l.item? k' key' = some item) :
    l'.item? k' key' = some item := by
  obtain ⟨-, rfl⟩ := addItem_ok h
  by_cases hk : k' = k
  · subst hk
    rw [item?, items_setItems_self, findItem, lookup_append_singleton]
    rw [item?, findItem] at hit
    rw [hit]
    rfl
  · rw [item?, items_setItems_of_ne hk]
    exact hit

/-- An item that is there after an addition is the new one, or was there before. -/
theorem addItem_item_from {submitter : AccountId} {data : ItemData k} {type : SubmissionType}
    {now : Moment} (h : l.addItem k key submitter data type now = .ok l') {item' : Item k'}
    (hit : l'.item? k' key' = some item') :
    l.item? k' key' = some item' ∨ (k' = k ∧ key' = key ∧ l.item? k' key' = none ∧
      item'.submitter = submitter ∧
      item'.lifecycle = EmbeddableLifecycle.fromSubmissionType type now) := by
  obtain ⟨hnone, rfl⟩ := addItem_ok h
  by_cases hk : k' = k
  · subst hk
    rw [item?, items_setItems_self, findItem, lookup_append_singleton] at hit
    rcases Option.or_eq_some_iff.mp hit with hold | ⟨hnone', hnew⟩
    · exact .inl hold
    · split_ifs at hnew with hkey
      cases hnew
      exact .inr ⟨rfl, hkey.symm, hnone', rfl, rfl⟩
  · rw [item?, items_setItems_of_ne hk] at hit
    exact .inl hit

theorem addItem_distinctKeys {submitter : AccountId} {data : ItemData k} {type : SubmissionType}
    {now : Moment} (hd : l.DistinctKeys) (h : l.addItem k key submitter data type now = .ok l') :
    l'.DistinctKeys := by
  obtain ⟨hnone, rfl⟩ := addItem_ok h
  intro k'
  by_cases hk : k' = k
  · subst hk
    rw [items_setItems_self, List.map_append]
    have hnot : key ∉ (l.items k').map Item.key := lookup_eq_none.mp hnone
    exact (hd k').append (List.nodup_singleton _) (by simpa using hnot)
  · rw [items_setItems_of_ne hk]
    exact hd k'

/-- What `reindexChildren` does to one child. -/
def reindexChild (dbIndex : ℕ) (child : Item k) : Item k :=
  if child.index > dbIndex then { child with index := child.index - 1, toUpdate := true } else child

theorem reindexChildren_eq (dbIndex : ℕ) (children : List (Item k)) :
    reindexChildren dbIndex children = children.map (reindexChild dbIndex) := rfl

theorem reindexChild_key (dbIndex : ℕ) (child : Item k) :
    (reindexChild dbIndex child).key = child.key := by
  unfold reindexChild
  split_ifs <;> rfl

theorem reindexChildren_keys (dbIndex : ℕ) (children : List (Item k)) :
    (reindexChildren dbIndex children).map Item.key = children.map Item.key := by
  rw [reindexChildren_eq, List.map_map]
  exact List.map_congr_left fun child _ => reindexChild_key dbIndex child

theorem reindexChild_lifecycle (dbIndex : ℕ) (child : Item k) :
    (reindexChild dbIndex child).submitter = child.submitter ∧
      (reindexChild dbIndex child).lifecycle = child.lifecycle := by
  unfold reindexChild
  split_ifs <;> exact ⟨rfl, rfl⟩

/-- The removed item is no longer found. -/
theorem removeItem_item_self {remover : AccountId} (hd : l.DistinctKeys)
    (h : l.removeItem k remover key = .ok l') : l'.item? k key = none := by
  obtain ⟨removed, hrem, rfl⟩ := removeItem_ok h
  rw [item?, items_setItemsToDelete, items_setItems_self, findItem, reindexChildren_eq,
    lookup_map (reindexChild_key _), item?_key hrem, lookup_eraseFirst_self (hd k)]
  rfl

/-- The other items of the collection are reindexed. -/
theorem removeItem_item_ne {remover : AccountId} {removed : Item k}
    (hrem : l.item? k key = some removed) (h : l.removeItem k remover key = .ok l')
    (hne : key' ≠ key) : l'.item? k key' = (l.item? k key').map (reindexChild removed.index) := by
  obtain ⟨removed', hrem', rfl⟩ := removeItem_ok h
  cases hrem.symm.trans hrem'
  rw [item?, items_setItemsToDelete, items_setItems_self, findItem, reindexChildren_eq,
    lookup_map (reindexChild_key _), item?_key hrem, lookup_eraseFirst_ne hne]
  rfl

theorem removeItem_items_of_ne {remover : AccountId} (h : l.removeItem k remover key = .ok l')
    (hk : k' ≠ k) : l'.items k' = l.items k' := by
  obtain ⟨removed, -, rfl⟩ := removeItem_ok h
  rw [items_setItemsToDelete, items_setItems_of_ne hk]

/-- Removing an item leaves nothing under its key, and the other items but for their index. -/
theorem removeItem_items {remover : AccountId} (hd : l.DistinctKeys)
    (h : l.removeItem k remover key = .ok l') {k' : ItemKind} {key' : String} {item : Item k'}
    (hit : l.item? k' key' = some item) :
    l'.item? k' key' = none ∨ ∃ item', l'.item? k' key' = some item' ∧
      item'.submitter = item.submitter ∧ item'.lifecycle = item.lifecycle := by
  by_cases hk : k' = k
  · subst hk
    by_cases hkey : key' = key
    · subst hkey
      exact .inl (removeItem_item_self hd h)
    · obtain ⟨removed, hrem, -⟩ := removeItem_ok h
      rw [removeItem_item_ne hrem h hkey, hit]
      exact .inr ⟨_, rfl, reindexChild_lifecycle removed.index item⟩
  · rw [item?, removeItem_items_of_ne h hk]
    exact .inr ⟨item, hit, rfl, rfl⟩

/-- The backward reading: an item that is there after a removal was there before. -/
theorem removeItem_item_from {remover : AccountId} (hd : l.DistinctKeys)
    (h : l.removeItem k remover key = .ok l') {item' : Item k'}
    (hit : l'.item? k' key' = some item') :
    ∃ item, l.item? k' key' = some item ∧
      item'.submitter = item.submitter ∧ item'.lifecycle = item.lifecycle := by
  by_cases hk : k' = k
  · subst hk
    have hkey : key' ≠ key := by
      rintro rfl
      rw [removeItem_item_self hd h] at hit
      cases hit
    obtain ⟨removed, hrem, -⟩ := removeItem_ok h
    rw [removeItem_item_ne hrem h hkey] at hit
    obtain ⟨item, hitem, rfl⟩ := Option.map_eq_some_iff.mp hit
    exact ⟨item, hitem, reindexChild_lifecycle removed.index item⟩
  · rw [item?, removeItem_items_of_ne h hk] at hit
    exact ⟨item', hit, rfl, rfl⟩

theorem removeItem_distinctKeys {remover : AccountId} (hd : l.DistinctKeys)
    (h : l.removeItem k remover key = .ok l') : l'.DistinctKeys := by
  obtain ⟨removed, -, rfl⟩ := removeItem_ok h
  intro k'
  rw [items_setItemsToDelete]
  by_cases hk : k' = k
  · subst hk
    rw [items_setItems_self, reindexChildren_keys, keys_eraseFirst]
    exact (hd k').erase _
  · rw [items_setItems_of_ne hk]
    exact hd k'

end LocRequest

/-- What an addition adds: the kind and the key of the item, its submitter, how and when. -/
def LocOp.addition [Hashing] :
    LocOp → Option (ItemKind × String × AccountId × SubmissionType × Moment)
  | .addFile hash submitter _ type now => some (.file, hash, submitter, type, now)
  | .addMetadataItem submitter name _ type now =>
    some (.metadata, Hashing.of name, submitter, type, now)
  | .addLink target submitter _ type now => some (.link, target, submitter, type, now)
  | _ => none

/-- The operations that add or remove an item. -/
def LocOp.changesItems : LocOp → Bool
  | .addFile .. | .addMetadataItem .. | .addLink .. | .removeItem .. => true
  | _ => false

namespace LocRequest

variable {l l' : LocRequest} {k : ItemKind} {key : String} [Hashing] {op : LocOp}

/-- An operation that returns, additions and removals apart, moves every item by `lifecycleOps`. -/
theorem step_moves (hop : op.changesItems = false) (h : l.step op = .ok l') :
    Moves l l' (fun k item => l.lifecycleOps k item op) := by
  cases op with
  | submit =>
    obtain ⟨-, hb⟩ := submit_ok h
    refine ((hb.moves (fun _ _ => .setStatus .reviewPending)).of_items_left
      fun k => by cases k <;> rfl).congr fun k item => ?_
    simp only [lifecycleOps, decide_eq_true_eq]
  | reject reason rejectedOn =>
    obtain ⟨-, rfl⟩ := reject_ok h
    exact Moves.of_items fun k => by cases k <;> rfl
  | rework =>
    obtain ⟨-, rfl⟩ := rework_ok h
    exact Moves.of_items fun k => by cases k <;> rfl
  | accept decisionOn =>
    obtain ⟨-, rfl⟩ := accept_ok h
    exact Moves.of_items fun k => by cases k <;> rfl
  | preOpen autoPublish =>
    obtain ⟨-, l₁, hb, rfl⟩ := preOpen_ok h
    exact (hb.moves (fun _ item =>
      .prePublishOrAcknowledge (l.isPublishAcknowledge item.submitter) none)).of_items_right
        fun k => by cases k <;> rfl
  | cancelPreOpen autoPublish =>
    obtain ⟨-, l₁, hb, rfl⟩ := cancelPreOpen_ok h
    exact (hb.moves (fun _ item =>
      .cancelPrePublishOrAcknowledge (l.isPublishAcknowledge item.submitter))).of_items_right
        fun k => by cases k <;> rfl
  | openLoc createdOn items => exact openLoc_moves h
  | preClose autoAck =>
    obtain ⟨l₁, hb, rfl⟩ := preClose_ok h
    refine (hb.moves (fun _ item =>
      .preAcknowledge (l.isVerifiedIssuer item.submitter) false none)).of_items_right fun k => ?_
    split_ifs
    · cases k <;> rfl
    · rfl
  | cancelPreClose autoAck =>
    obtain ⟨-, l₁, hb, rfl⟩ := cancelPreClose_ok h
    exact (hb.moves (fun _ _ => .cancelPreAcknowledge false)).of_items_right
      fun k => by cases k <;> rfl
  | close timestamp => cases h; exact Moves.of_items fun k => by cases k <;> rfl
  | requestItemReview k' key' => exact mutateLifecycle_moves (fun _ => .requestReview) h
  | acceptItem k' key' now => exact mutateLifecycle_moves (fun _ => .accept now) (guard_ok h)
  | rejectItem k' key' reason now =>
    exact mutateLifecycle_moves (fun _ => .reject reason now) (guard_ok h)
  | prePublishOrAcknowledgeItem k' key' contributor =>
    exact mutateLifecycle_moves (fun submitter =>
      .prePublishOrAcknowledge (l.isPublishAcknowledge submitter) none) (roleCheck_ok h).2
  | cancelPrePublishOrAcknowledgeItem k' key' contributor =>
    exact mutateLifecycle_moves (fun submitter =>
      .cancelPrePublishOrAcknowledge (l.isPublishAcknowledge submitter)) (roleCheck_ok h).2
  | preAcknowledgeItem k' key' contributor acknowledgedOn =>
    exact mutateLifecycle_moves (fun submitter => .preAcknowledge
      (l.isVerifiedIssuer submitter) (l.isVerifiedIssuer contributor) acknowledgedOn)
      (roleCheck_ok h).2
  | cancelPreAcknowledgeItem k' key' contributor =>
    exact mutateLifecycle_moves (fun _ =>
      .cancelPreAcknowledge (l.isVerifiedIssuer contributor)) (roleCheck_ok h).2
  | setItemAddedOn k' key' addedOn => cases h; exact setItemAddedOn_moves addedOn
  | setFileFees hash fees storageFeePaidBy => exact setFileFees_moves h
  | setMetadataItemFee nameHash inclusionFee =>
    cases h
    exact (setMetadataItemFee_oneItem nameHash inclusionFee).moves_nil fun _ _ => ⟨rfl, rfl⟩
  | setLinkFee target inclusionFee =>
    cases h
    exact (setLinkFee_oneItem target inclusionFee).moves_nil fun _ _ => ⟨rfl, rfl⟩
  | updateFileContent hash name size contentType cid => exact updateFileContent_moves h
  | setFileRestrictedDelivery hash restrictedDelivery => exact setFileRestrictedDelivery_moves h
  | preVoid | cancelPreVoid | voidLoc | initIdenfyVerification | updateIdenfyVerification
  | addSecret | removeSecret | deleteDraftRejectedOrAccepted | deleteOpen =>
    exact Moves.of_items (step_sameCore rfl h).items
  | addFile | addMetadataItem | addLink | removeItem => cases hop

/-- **One item, one step.**  An operation that returns has removed the item, or made on it exactly
the transitions `lifecycleOps`, all of them accepted. -/
theorem step_item (hd : l.DistinctKeys) {item : Item k} (hit : l.item? k key = some item)
    (h : l.step op = .ok l') :
    l'.item? k key = none ∨ ∃ item', l'.item? k key = some item' ∧
      item'.submitter = item.submitter ∧
      item.lifecycle.steps (l.lifecycleOps k item op) = .ok item'.lifecycle := by
  cases hop : op.changesItems with
  | false => exact .inr ((step_moves hop h).forward hit)
  | true =>
    cases op with
    | addFile => exact .inr ⟨item, addItem_items h hit, rfl, rfl⟩
    | addMetadataItem => exact .inr ⟨item, addItem_items h hit, rfl, rfl⟩
    | addLink => exact .inr ⟨item, addItem_items h hit, rfl, rfl⟩
    | removeItem k' remover key' =>
      rcases removeItem_items hd h hit with hnone | ⟨item', hit', hsub, hlife⟩
      · exact .inl hnone
      · exact .inr ⟨item', hit', hsub, by rw [hlife]; rfl⟩
    | _ => cases hop

/-- The backward reading: an item that is there after an operation was there before it, and made
`lifecycleOps`, or the operation has added it. -/
theorem step_item_from (hd : l.DistinctKeys) {item' : Item k} (hit : l'.item? k key = some item')
    (h : l.step op = .ok l') :
    (∃ item, l.item? k key = some item ∧ item'.submitter = item.submitter ∧
        item.lifecycle.steps (l.lifecycleOps k item op) = .ok item'.lifecycle) ∨
      (l.item? k key = none ∧ ∃ type now,
        op.addition = some (k, key, item'.submitter, type, now) ∧
        item'.lifecycle = EmbeddableLifecycle.fromSubmissionType type now) := by
  have hadd : ∀ {k' : ItemKind} {key' : String} {submitter : AccountId} {data : ItemData k'}
      {type : SubmissionType} {now : Moment},
      op.addition = some (k', key', submitter, type, now) → (∀ item, l.lifecycleOps k item op = []) →
      l.addItem k' key' submitter data type now = .ok l' →
      (∃ item, l.item? k key = some item ∧ item'.submitter = item.submitter ∧
        item.lifecycle.steps (l.lifecycleOps k item op) = .ok item'.lifecycle) ∨
      (l.item? k key = none ∧ ∃ type now,
        op.addition = some (k, key, item'.submitter, type, now) ∧
        item'.lifecycle = EmbeddableLifecycle.fromSubmissionType type now) := by
    intro k' key' submitter data type now hop hnil hadd
    rcases addItem_item_from hadd hit with hold | ⟨rfl, rfl, hnone, hsub, hlife⟩
    · exact .inl ⟨item', hold, rfl, by rw [hnil]; rfl⟩
    · exact .inr ⟨hnone, type, now, by rw [hop, hsub], hlife⟩
  cases hop : op.changesItems with
  | false => exact .inl ((step_moves hop h).item hit)
  | true =>
    cases op with
    | addFile => exact hadd rfl (fun _ => rfl) h
    | addMetadataItem => exact hadd rfl (fun _ => rfl) h
    | addLink => exact hadd rfl (fun _ => rfl) h
    | removeItem k' remover key' =>
      obtain ⟨item, hitem, hsub, hlife⟩ := removeItem_item_from hd h hit
      exact .inl ⟨item, hitem, hsub, by rw [hlife]; rfl⟩
    | _ => cases hop

theorem step_distinctKeys (hd : l.DistinctKeys) (h : l.step op = .ok l') : l'.DistinctKeys := by
  cases hop : op.changesItems with
  | false =>
    intro k
    rw [(step_moves hop h).keys k]
    exact hd k
  | true =>
    cases op with
    | addFile => exact addItem_distinctKeys hd h
    | addMetadataItem => exact addItem_distinctKeys hd h
    | addLink => exact addItem_distinctKeys hd h
    | removeItem k' remover key' => exact removeItem_distinctKeys hd h
    | _ => cases hop

/-- Over a whole run. -/
theorem run_distinctKeys (hd : l.DistinctKeys) (ops : List LocOp) :
    (run step l ops).DistinctKeys :=
  run_induct (fun _ _ _ hd h => step_distinctKeys hd h) hd ops

end LocRequest

end Logion
