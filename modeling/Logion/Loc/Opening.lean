import Logion.Loc.Reachable

/-!
# Opening — `preOpen`, `cancelPreOpen` and the accepted LOC

With `autoPublish`, `preOpen` publishes the accepted items: to ACKNOWLEDGED those whose publication
acknowledges (submitted by the owner, or by an account that is not a Polkadot one), to PUBLISHED the
others.  `cancelPreOpen` takes back the items that it finds PUBLISHED and undated.

* `openingUndone_iff`: when `cancelPreOpen` undoes `preOpen`.
* `keepsAccepted_iff`: the operations after which an accepted LOC has only accepted items.
* `itemsAccepted_iff`: the runs in which this holds in every state.
-/

namespace Logion

open Keyed Fallible

namespace EmbeddableLifecycle

/-- What `preOpen(true)` makes of an item. -/
def opened (c : EmbeddableLifecycle) (isAck : Bool) : EmbeddableLifecycle :=
  if c.status = .reviewAccepted then
    { c with status := acknowledgedOrPublished isAck, addedOn := none }
  else c

/-- What `cancelPreOpen(true)` makes of an item, when it returns. -/
def openingCancelled (c : EmbeddableLifecycle) : EmbeddableLifecycle :=
  if c.status = .published && c.addedOn.isNone then { c with status := .reviewAccepted } else c

/-- The items that `cancelPreOpen` gives back as `preOpen` found them. -/
theorem openingCancelled_opened_iff {c : EmbeddableLifecycle} {isAck : Bool} :
    (c.opened isAck).openingCancelled = c ↔
      (c.status = .reviewAccepted → isAck = false ∧ c.addedOn = none) ∧
        (c.status = .published → c.addedOn.isSome) := by
  obtain ⟨status, rejectReason, reviewedOn, addedOn, ownerOn, owner, issuerOn, issuer⟩ := c
  cases status <;> cases isAck <;> cases addedOn <;>
    simp [opened, openingCancelled, acknowledgedOrPublished]

theorem openingCancelled_status_iff {c : EmbeddableLifecycle} :
    c.openingCancelled.status = .reviewAccepted ↔
      c.status = .reviewAccepted ∨ (c.status = .published ∧ c.addedOn = none) := by
  unfold openingCancelled
  by_cases hsel : c.status = .published ∧ c.addedOn = none
  · simp [hsel]
  · rw [if_neg (by simpa using hsel), or_iff_left hsel]

end EmbeddableLifecycle

/-- The transitions that an accepted item accepts. -/
def LifecycleOp.leavesAccepted : LifecycleOp → Bool
  | .prePublishOrAcknowledge .. | .setAddedOn _ | .setStatus _ => true
  | _ => false

namespace EmbeddableLifecycle

theorem leavesAccepted_of_step {c c' : EmbeddableLifecycle} {o : LifecycleOp}
    (hc : c.status = .reviewAccepted) (h : c.step o = .ok c') : o.leavesAccepted = true := by
  have hno : ∀ {status : ItemStatus}, c.status = status → status ≠ .reviewAccepted →
      o.leavesAccepted = true := fun hst hne => absurd (hst.symm.trans hc) hne
  cases o with
  | prePublishOrAcknowledge | setAddedOn | setStatus => rfl
  | requestReview => exact hno (requestReview_ok h).1 (by simp)
  | accept now => exact hno (accept_ok h).1 (by simp)
  | reject reason now => exact hno (reject_ok h).1 (by simp)
  | cancelPrePublishOrAcknowledge isAck =>
    exact hno (cancelPrePublishOrAcknowledge_ok h).1 (by cases isAck <;> simp [acknowledgedOrPublished])
  | preAcknowledge expectVI byVI on =>
    rcases (preAcknowledge_ok h).1 with hst | hst
    · exact hno hst (by simp)
    · exact hno hst (by simp)
  | cancelPreAcknowledge byVI => exact hno (cancelPreAcknowledge_ok h).1 (by simp)

/-- An accepted item that makes no transition of these stays as it is. -/
theorem steps_accepted {c c' : EmbeddableLifecycle} {os : List LifecycleOp}
    (hc : c.status = .reviewAccepted) (h : c.steps os = .ok c')
    (hos : ∀ o ∈ os, o.leavesAccepted = false) : c' = c := by
  cases os with
  | nil => exact (Except.ok.inj h).symm
  | cons o os =>
    rw [steps, List.foldlM_cons] at h
    obtain ⟨c₁, h₁, -⟩ := bind_eq_ok.mp h
    have hleaves := leavesAccepted_of_step hc h₁
    rw [hos o List.mem_cons_self] at hleaves
    cases hleaves

end EmbeddableLifecycle

namespace LocRequest

variable {l l' : LocRequest} {k : ItemKind} {autoPublish : Bool}

/-! ### The LOC after `preOpen` and after `cancelPreOpen` -/

/-- What a collection shows of its items: their keys and their lifecycles. -/
def lifecycles (l : LocRequest) (k : ItemKind) : List (String × EmbeddableLifecycle) :=
  (l.items k).map fun item => (item.key, item.lifecycle)

theorem preOpen_items (h : l.preOpen true = .ok l') (k : ItemKind) :
    l'.items k = (l.items k).map fun item => item.moved (item.status = .reviewAccepted)
      (item.lifecycle.opened (l.isPublishAcknowledge item.submitter)) := by
  obtain ⟨-, l₁, hb, rfl⟩ := preOpen_ok h
  have hitems := hb.items_eq (k := k)
    (c := fun item => item.lifecycle.opened (l.isPublishAcknowledge item.submitter))
    fun item hmem hsel => by
      have hst : item.lifecycle.status = .reviewAccepted := by simpa using hsel
      obtain ⟨c, hc⟩ := hb.returns hmem hsel
      rw [hc, (EmbeddableLifecycle.prePublishOrAcknowledge_ok hc).2, EmbeddableLifecycle.opened,
        if_pos hst]
  simp only [Bool.true_and] at hitems
  rw [← hitems]
  cases k <;> rfl

theorem cancelPreOpen_items (h : l.cancelPreOpen true = .ok l') (k : ItemKind) :
    l'.items k = (l.items k).map fun item =>
      item.moved (item.status = .published && item.lifecycle.addedOn.isNone)
        item.lifecycle.openingCancelled := by
  obtain ⟨-, l₁, hb, rfl⟩ := cancelPreOpen_ok h
  have hitems := hb.items_eq (k := k) (c := fun item => item.lifecycle.openingCancelled)
    fun item hmem hsel => by
      obtain ⟨c, hc⟩ := hb.returns hmem hsel
      rw [hc, (EmbeddableLifecycle.cancelPrePublishOrAcknowledge_ok hc).2.2,
        EmbeddableLifecycle.openingCancelled, if_pos (by simpa using hsel)]
  simp only [Bool.true_and] at hitems
  rw [← hitems]
  cases k <;> rfl

/-- Without `autoPublish` the items stay. -/
theorem preOpen_items_noPublish (h : l.preOpen false = .ok l') (k : ItemKind) :
    l'.items k = l.items k := by
  obtain ⟨-, l₁, hb, rfl⟩ := preOpen_ok h
  rw [← hb.items_of_none (k := k) fun _ => rfl]
  cases k <;> rfl

theorem cancelPreOpen_items_noPublish (h : l.cancelPreOpen false = .ok l') (k : ItemKind) :
    l'.items k = l.items k := by
  obtain ⟨-, l₁, hb, rfl⟩ := cancelPreOpen_ok h
  rw [← hb.items_of_none (k := k) fun _ => rfl]
  cases k <;> rfl

theorem moved_opened (item : Item k) (isAck : Bool) :
    (item.moved (item.status = .reviewAccepted) (item.lifecycle.opened isAck)).lifecycle =
      item.lifecycle.opened isAck := by
  rw [Item.moved_lifecycle, EmbeddableLifecycle.opened]
  simp only [decide_eq_true_eq]
  split_ifs <;> rfl

theorem moved_openingCancelled (item : Item k) :
    (item.moved (item.status = .published && item.lifecycle.addedOn.isNone)
      item.lifecycle.openingCancelled).lifecycle = item.lifecycle.openingCancelled := by
  rw [Item.moved_lifecycle, EmbeddableLifecycle.openingCancelled]
  split_ifs <;> rfl

theorem preOpen_lifecycles (h : l.preOpen true = .ok l') (k : ItemKind) :
    l'.lifecycles k = (l.items k).map fun item =>
      (item.key, item.lifecycle.opened (l.isPublishAcknowledge item.submitter)) := by
  rw [lifecycles, preOpen_items h k, List.map_map]
  refine List.map_congr_left fun item _ => ?_
  simp only [Function.comp, Item.moved_key, moved_opened]

theorem cancelPreOpen_lifecycles (h : l.cancelPreOpen true = .ok l') (k : ItemKind) :
    l'.lifecycles k = (l.lifecycles k).map fun (key, c) => (key, c.openingCancelled) := by
  rw [lifecycles, lifecycles, cancelPreOpen_items h k, List.map_map, List.map_map]
  refine List.map_congr_left fun item _ => ?_
  simp only [Function.comp, Item.moved_key, moved_openingCancelled]

theorem preOpen_status (h : l.preOpen autoPublish = .ok l') : l'.status = .opened := by
  obtain ⟨-, l₁, -, rfl⟩ := preOpen_ok h
  rfl

theorem cancelPreOpen_status (h : l.cancelPreOpen autoPublish = .ok l') :
    l'.status = .reviewAccepted := by
  obtain ⟨-, l₁, -, rfl⟩ := cancelPreOpen_ok h
  rfl

theorem preOpen_isPublishAcknowledge (h : l.preOpen autoPublish = .ok l') (submitter : AccountId) :
    l'.isPublishAcknowledge submitter = l.isPublishAcknowledge submitter := by
  obtain ⟨-, l₁, hb, rfl⟩ := preOpen_ok h
  exact isPublishAcknowledge_of_owner (owner_of_withoutItems hb.rest) submitter

/-! ### `cancelPreOpen` undoes `preOpen` -/

/-- `preOpen` then `cancelPreOpen` return, and give back the status of the LOC and the lifecycles of
its items. -/
def OpeningUndone (l : LocRequest) (autoPublish : Bool) : Prop :=
  ∃ l₁, l.preOpen autoPublish = .ok l₁ ∧ ∃ l₂, l₁.cancelPreOpen autoPublish = .ok l₂ ∧
    l₂.status = l.status ∧ ∀ k, l₂.lifecycles k = l.lifecycles k

/-- With `autoPublish`, the accepted items are undated and get PUBLISHED rather than ACKNOWLEDGED,
and the items that are published already are dated. -/
def OnlyPublishes (l : LocRequest) (autoPublish : Bool) : Prop :=
  autoPublish = true → ∀ k, ∀ item ∈ l.items k,
    (item.status = .reviewAccepted →
      l.isPublishAcknowledge item.submitter = false ∧ item.lifecycle.addedOn = none) ∧
    (item.status = .published → item.lifecycle.addedOn.isSome)

/-- The items that `cancelPreOpen(true)` meets after `preOpen(true)`. -/
theorem cancelPreOpen_returns_after (h : l.preOpen true = .ok l') (hpub : l.OnlyPublishes true) :
    Returns (l'.cancelPreOpen true) := by
  refine cancelPreOpen_returns.mpr ⟨preOpen_status h, fun _ k => ?_⟩
  rw [preOpen_items h k, List.forall_mem_map]
  intro item hmem hst hadded
  obtain ⟨haccepted, hpublished⟩ := hpub rfl k item hmem
  rw [Item.moved_submitter, preOpen_isPublishAcknowledge h]
  by_cases hsel : item.lifecycle.status = .reviewAccepted
  · exact (haccepted hsel).1
  · have hkept : item.moved (item.status = .reviewAccepted)
        (item.lifecycle.opened (l.isPublishAcknowledge item.submitter)) = item := by
      rw [show decide (item.status = .reviewAccepted) = false from decide_eq_false hsel,
        Item.moved_false]
    rw [hkept] at hst hadded
    have hdated := hpublished hst
    simp [hadded] at hdated

/-- What is given back, item by item. -/
theorem cancelPreOpen_restores_iff {l₁ l₂ : LocRequest} (h₁ : l.preOpen true = .ok l₁)
    (h₂ : l₁.cancelPreOpen true = .ok l₂) :
    (∀ k, l₂.lifecycles k = l.lifecycles k) ↔ l.OnlyPublishes true := by
  unfold OnlyPublishes
  rw [forall_prop_of_true rfl]
  refine forall_congr' fun k => ?_
  rw [cancelPreOpen_lifecycles h₂ k, preOpen_lifecycles h₁ k, List.map_map, lifecycles,
    List.map_inj_left]
  refine forall₂_congr fun item _ => ?_
  rw [← EmbeddableLifecycle.openingCancelled_opened_iff]
  simp only [Function.comp, Prod.mk.injEq, true_and]

/-- **`cancelPreOpen` undoes `preOpen`** exactly when `preOpen` acknowledged no item: `cancelPreOpen`
looks for published items only. -/
theorem openingUndone_iff (hst : l.status = .reviewAccepted) (autoPublish : Bool) :
    l.OpeningUndone autoPublish ↔ l.OnlyPublishes autoPublish := by
  obtain ⟨l₁, h₁⟩ : Returns (l.preOpen autoPublish) := preOpen_returns.mpr (.inl hst)
  cases autoPublish with
  | false =>
    obtain ⟨l₂, h₂⟩ : Returns (l₁.cancelPreOpen false) := cancelPreOpen_returns.mpr
      ⟨preOpen_status h₁, fun hauto => by cases hauto⟩
    refine iff_of_true ⟨l₁, h₁, l₂, h₂, (cancelPreOpen_status h₂).trans hst.symm, fun k => ?_⟩
      fun hauto => by cases hauto
    rw [lifecycles, lifecycles, cancelPreOpen_items_noPublish h₂, preOpen_items_noPublish h₁]
  | true =>
    constructor
    · rintro ⟨l₁', h₁', l₂, h₂, -, hrestored⟩
      exact (cancelPreOpen_restores_iff h₁' h₂).mp hrestored
    · intro hpub
      obtain ⟨l₂, h₂⟩ := cancelPreOpen_returns_after h₁ hpub
      exact ⟨l₁, h₁, l₂, h₂, (cancelPreOpen_status h₂).trans hst.symm,
        (cancelPreOpen_restores_iff h₁ h₂).mpr hpub⟩

/-- A transaction LOC requested by the holder of an identity LOC. -/
def requestersDescription : LocRequestDescription where
  requesterAddress := some (.polkadot "requester")
  requesterIdentityLoc := some "5e4ef4bb-8657-444c-9880-d89e9403fc85"
  ownerAddress := .polkadot "owner"
  locType := .transaction
  createdOn := 1
  userIdentity := none
  collectionParams := none
  fees := ⟨none, none, none⟩

def requestersLoc : LocRequest :=
  LocRequestFactory.newInstance "15ed922d-5960-4147-a73f-97d362cb7c46" requestersDescription true
    .manualByUser

theorem requestersLoc_created [Hashing] : Created requestersLoc :=
  .newLocRequest "15ed922d-5960-4147-a73f-97d362cb7c46" requestersDescription true rfl

/-- The owner adds a link to the draft, the requester submits it, the owner accepts it. -/
def addAndAccept : List LocOp :=
  [.addLink "target" (.polkadot "owner") "nature" .manualByOwner 2, .submit, .accept 3]

/-- The LOC accepted with the link of its owner. -/
def requestersLocAccepted : LocRequest :=
  { requestersLoc with
    status := .reviewAccepted
    decisionOn := some 3
    links := [{
      key := "target"
      index := 0
      submitter := .polkadot "owner"
      lifecycle :=
        { status := .reviewAccepted, acknowledgedByOwner := true, acknowledgedByOwnerOn := some 2 }
      data := (⟨"nature", none⟩ : LinkData)
      toAdd := true }] }

theorem run_addAndAccept [Hashing] : run step requestersLoc addAndAccept = requestersLocAccepted :=
  rfl

theorem openingUndone_iff_requestersLoc : requestersLocAccepted.status = .reviewAccepted ∧
    (requestersLocAccepted.OpeningUndone true ↔ requestersLocAccepted.OnlyPublishes true) :=
  ⟨rfl, openingUndone_iff rfl true⟩

/-- The link of the owner, acknowledged by `preOpen(true)`, stays acknowledged. -/
theorem opening_not_undone :
    letI : Hashing := ⟨fun name => name⟩
    ¬ ∀ l, Reachable l → l.status = .reviewAccepted → l.locCreatedOn = none →
      ∀ autoPublish, l.OpeningUndone autoPublish := by
  let _ : Hashing := ⟨fun name => name⟩
  intro h
  have hreachable : Reachable requestersLocAccepted :=
    run_addAndAccept ▸ reachable_run requestersLoc_created addAndAccept
  obtain ⟨l₁, h₁, l₂, h₂, -, hrestored⟩ := h _ hreachable rfl rfl true
  have hpub := (cancelPreOpen_restores_iff h₁ h₂).mp hrestored rfl .link _ List.mem_cons_self
  have hack : requestersLocAccepted.isPublishAcknowledge (.polkadot "owner") = false := (hpub.1 rfl).1
  simp [isPublishAcknowledge, isOwner, getOwner, requestersLocAccepted, requestersLoc,
    requestersDescription, LocRequestFactory.newInstance, AccountId.polkadot] at hack

/-! ### An accepted LOC has only accepted items -/

/-- When the LOC is accepted, all its items are. -/
def ItemsAccepted (l : LocRequest) : Prop :=
  l.status = .reviewAccepted → ∀ k, ∀ item ∈ l.items k, item.status = .reviewAccepted

/-- The operation leaves the LOC accepted only with accepted items: an opening is cancelled over
items that are accepted or given back, and an accepted LOC gets no date for an item of its own. -/
def KeepsAccepted (l : LocRequest) : LocOp → Prop
  | .cancelPreOpen autoPublish => CancelsOpening l (.cancelPreOpen autoPublish) →
      ∀ k, ∀ item ∈ l.items k, item.status = .reviewAccepted ∨
        (autoPublish = true ∧ item.status = .published ∧ item.lifecycle.addedOn = none)
  | .setItemAddedOn k key _ => l.status = .reviewAccepted → l.item? k key = none
  | _ => True

/-- `accept` checks the items. -/
theorem accept_checks {decisionOn : Moment} (h : l.accept decisionOn = .ok l') :
    ∀ k, ∀ item ∈ l'.items k, item.status = .reviewAccepted := by
  obtain ⟨-, rfl⟩ := accept_ok h
  unfold accept at h
  split_ifs at h
  obtain ⟨_, hcheck, -⟩ := bind_eq_ok.mp h
  intro k item hmem
  have hmem' : item ∈ l.items k := by cases k <;> exact hmem
  simpa using ensureNoItem_ok.mp hcheck k item hmem'

/-- The items that `cancelPreOpen` leaves accepted. -/
theorem cancelPreOpen_accepted_iff (h : l.cancelPreOpen autoPublish = .ok l') :
    (∀ k, ∀ item ∈ l'.items k, item.status = .reviewAccepted) ↔
      ∀ k, ∀ item ∈ l.items k, item.status = .reviewAccepted ∨
        (autoPublish = true ∧ item.status = .published ∧ item.lifecycle.addedOn = none) := by
  refine forall_congr' fun k => ?_
  cases autoPublish with
  | false =>
    rw [cancelPreOpen_items_noPublish h k]
    simp
  | true =>
    rw [cancelPreOpen_items h k, List.forall_mem_map]
    refine forall₂_congr fun item _ => ?_
    rw [Item.status, moved_openingCancelled, EmbeddableLifecycle.openingCancelled_status_iff]
    simp

section

variable [Hashing] {op : LocOp}

/-- The operations that may bring the LOC to its accepted status. -/
theorem accepted_from (h : l.step op = .ok l') (hst : l'.status = .reviewAccepted) :
    (∃ decisionOn, op = .accept decisionOn) ∨ (∃ autoPublish, op = .cancelPreOpen autoPublish) ∨
      l.status = .reviewAccepted := by
  obtain ⟨hacc, hstatus⟩ := step_status h
  rw [hst] at hstatus
  cases op with
  | accept decisionOn => exact .inl ⟨decisionOn, rfl⟩
  | cancelPreOpen autoPublish => exact .inr (.inl ⟨autoPublish, rfl⟩)
  | openLoc createdOn items =>
    simp only [LocOp.statusAfter] at hstatus
    split_ifs at hstatus
    exact .inr (.inr hstatus.symm)
  | preClose autoAck =>
    simp only [LocOp.statusAfter] at hstatus
    split_ifs at hstatus
    exact .inr (.inr hstatus.symm)
  | submit | reject | rework | preOpen | cancelPreClose | close => cases hstatus
  | _ => exact .inr (.inr hstatus.symm)

/-- In a LOC that stays accepted, the only such transition is the date of `set...AddedOn`. -/
theorem leavesAccepted_of_mem {k : ItemKind} {item : Item k} {o : LifecycleOp}
    (h : l.step op = .ok l') (hst : l.status = .reviewAccepted) (hst' : l'.status = .reviewAccepted)
    (ho : o ∈ l.lifecycleOps k item op) (hleaves : o.leavesAccepted = true) :
    ∃ addedOn, op = .setItemAddedOn k item.key addedOn := by
  obtain ⟨hacc, hstatus⟩ := step_status h
  rw [hst] at hacc
  rw [hst, hst'] at hstatus
  cases op with
  | submit => cases hacc
  | preOpen | openLoc => simp [LocOp.statusAfter] at hstatus
  | cancelPreOpen autoPublish => cases hacc
  | preClose | cancelPreClose =>
    simp only [lifecycleOps] at ho
    split_ifs at ho
    · cases List.mem_singleton.mp ho
      cases hleaves
    · cases ho
  | prePublishOrAcknowledgeItem k' key' contributor =>
    have hopen := (prePublishOrAcknowledgeItem_returns.mp ⟨l', h⟩).1
    rw [hst] at hopen
    cases hopen
  | setItemAddedOn k' key' addedOn =>
    simp only [lifecycleOps] at ho
    obtain ⟨rfl, rfl, -⟩ := mem_onItem rfl ho
    exact ⟨addedOn, rfl⟩
  | requestItemReview | acceptItem | rejectItem | cancelPrePublishOrAcknowledgeItem
  | preAcknowledgeItem | cancelPreAcknowledgeItem =>
    simp only [lifecycleOps] at ho
    obtain ⟨-, -, rfl⟩ := mem_onItem rfl ho
    cases hleaves
  | _ => cases ho

/-- An accepted operation that leaves a LOC accepted over an item that is not. -/
theorem itemsAccepted_of_step (hd : l.DistinctKeys) (hl : l.ItemsAccepted)
    (hkeeps : l.KeepsAccepted op) (h : l.step op = .ok l') : l'.ItemsAccepted := by
  intro hst' k item' hmem'
  rcases accepted_from h hst' with ⟨decisionOn, rfl⟩ | ⟨autoPublish, rfl⟩ | hst
  · exact accept_checks h k item' hmem'
  · have hback := hkeeps (cancelPreOpen_returns.mp ⟨l', h⟩)
    exact (cancelPreOpen_accepted_iff h).mpr hback k item' hmem'
  · have hit' := lookup_of_mem (step_distinctKeys hd h k) hmem'
    rcases step_item_from hd hit' h with ⟨item, hit, -, hsteps⟩ | ⟨-, type, now, hadd, -⟩
    · have hitem : item.status = .reviewAccepted := hl hst k item (mem_of_lookup hit)
      have hsame := EmbeddableLifecycle.steps_accepted hitem hsteps fun o ho => by
        by_contra hleaves
        rw [Bool.not_eq_false] at hleaves
        obtain ⟨addedOn, rfl⟩ := leavesAccepted_of_mem h hst hst' ho hleaves
        have hnone := hkeeps hst
        rw [item?_key hit, hit] at hnone
        cases hnone
      rw [Item.status, hsame]
      exact hitem
    · have heditable : l.status = .draft ∨ l.status = .opened := by
        cases op with
        | addFile | addMetadataItem | addLink => exact addItem_editable h
        | _ => cases hadd
      rw [hst] at heditable
      simp at heditable

/-- **One operation.**  From a LOC that is accepted, if at all, with accepted items. -/
theorem keepsAccepted_iff (hl : l.DistinctKeys ∧ l.ItemsAccepted) :
    l.KeepsAccepted op ↔
      (attempt step l op).DistinctKeys ∧ (attempt step l op).ItemsAccepted := by
  obtain ⟨hd, haccepted⟩ := hl
  rcases attempt_cases step l op with ⟨e, herr, heq⟩ | hok
  · rw [heq]
    refine iff_of_true ?_ ⟨hd, haccepted⟩
    cases op with
    | cancelPreOpen autoPublish =>
      intro hcancel
      obtain ⟨l', h⟩ := cancelPreOpen_returns.mpr hcancel
      have hstep : l.step (.cancelPreOpen autoPublish) = .ok l' := h
      rw [hstep] at herr
      cases herr
    | setItemAddedOn k key addedOn => cases herr
    | _ => trivial
  · refine Iff.trans ?_ (and_iff_right (step_distinctKeys hd hok)).symm
    refine ⟨fun hkeeps => itemsAccepted_of_step hd haccepted hkeeps hok, fun haccepted' => ?_⟩
    cases op with
    | cancelPreOpen autoPublish =>
      exact fun _ => (cancelPreOpen_accepted_iff hok).mp (haccepted' (step_status hok).2)
    | setItemAddedOn k key addedOn =>
      intro hst
      by_contra hsome
      obtain ⟨item, hit⟩ := Option.ne_none_iff_exists'.mp hsome
      have hone : OneItem l (l.setItemAddedOn k key addedOn) k key _ :=
        setItemAddedOn_oneItem addedOn
      have hafter := hone.item_self
      rw [hit] at hafter
      have hdated := haccepted' ((step_status hok).2.trans hst) k _ (mem_of_lookup hafter)
      have hitem : item.status = .reviewAccepted := haccepted hst k item (mem_of_lookup hit)
      simp [EmbeddableLifecycle.setAddedOn, hitem] at hdated
    | _ => trivial

/-- **An accepted LOC has only accepted items**, in every state of a run from a LOC of the factory,
exactly when no opening is cancelled over an item that is not given back, and no accepted LOC gets a
date for one of its items. -/
theorem itemsAccepted_iff (h : Created l) (ops : List LocOp) :
    Always step ItemsAccepted l ops ↔ Along step KeepsAccepted l ops := by
  obtain ⟨l₀, hb, hevolves, hst⟩ := created_of_blank h
  have hd : l.DistinctKeys := (reachable_sound ⟨l, h, .refl⟩).keys
  rw [← always_iff_of (P := fun l => l.DistinctKeys ∧ l.ItemsAccepted) (Q := fun _ => True)
    (fun _ _ hl _ => keepsAccepted_iff hl) (fun _ _ => trivial) ⟨hd, fun hacc => absurd hacc hst⟩]
  exact forall₂_congr fun pre _ => (and_iff_right (run_distinctKeys hd pre)).symm

/-- The LOC is accepted with the link of its owner, pre-opened, and the opening is cancelled. -/
def openThenCancel : List LocOp := addAndAccept ++ [.preOpen true, .cancelPreOpen true]

omit [Hashing] in
theorem itemsAccepted_iff_openThenCancel :
    letI : Hashing := ⟨fun name => name⟩
    Created requestersLoc ∧ (Always step ItemsAccepted requestersLoc openThenCancel ↔
      Along step KeepsAccepted requestersLoc openThenCancel) :=
  letI : Hashing := ⟨fun name => name⟩
  ⟨requestersLoc_created, itemsAccepted_iff requestersLoc_created openThenCancel⟩

omit [Hashing] in
/-- The link stays acknowledged in a LOC that is back to its accepted status. -/
theorem accepted_over_acknowledged_link :
    letI : Hashing := ⟨fun name => name⟩
    ¬ ∀ l, Created l → ∀ ops, Always step ItemsAccepted l ops := by
  let _ : Hashing := ⟨fun name => name⟩
  intro h
  have haccepted := h requestersLoc requestersLoc_created openThenCancel _ (List.prefix_refl _)
  have hfinal : run step requestersLoc openThenCancel =
      { requestersLocAccepted with
        links := [{
          key := "target"
          index := 0
          submitter := .polkadot "owner"
          lifecycle :=
            { status := .acknowledged, acknowledgedByOwner := true, acknowledgedByOwnerOn := some 2 }
          data := (⟨"nature", none⟩ : LinkData)
          toAdd := true
          toUpdate := true }] } := by
    rw [openThenCancel, run_append, run_addAndAccept]
    rfl
  rw [hfinal] at haccepted
  have hst := haccepted rfl .link _ List.mem_cons_self
  cases hst

end

end LocRequest

end Logion
