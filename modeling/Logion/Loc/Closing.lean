import Logion.Loc.InPlace
import Logion.Loc.Reachable

/-!
# Closing — `preClose` and `cancelPreClose`

With `autoAck`, `preClose` acknowledges every item in the name of the owner, which sets the owner's
flag and writes no date over the owner's date; `cancelPreClose` then takes the flag away again.

* `preClose_returns`: the checks decide whether `preClose` throws.
* `preClose_items`: the items after it; all of them are acknowledged.
* `closesSoundly_iff`: when `preClose` closes the LOC over items that are all confirmed on chain.
* `closingUndone_iff`: when `cancelPreClose` undoes `preClose`.
-/

namespace Logion

open Keyed Effect Fallible EmbeddableLifecycle

namespace EmbeddableLifecycle

/-- The lifecycle after `preAcknowledge(expectVerifiedIssuer, false)`: acknowledged by the owner,
without a date. -/
def ackedByOwner (c : EmbeddableLifecycle) (expectVerifiedIssuer : Bool) : EmbeddableLifecycle :=
  { c.setAcknowledged false none with
    status :=
      if (c.setAcknowledged false none).fullyAcknowledged expectVerifiedIssuer then .acknowledged
      else c.status }

variable {c : EmbeddableLifecycle} {expectVI : Bool}

theorem preAcknowledge_owner (h : c.status = .published ∨ c.status = .acknowledged) :
    c.preAcknowledge expectVI false none = .ok (c.ackedByOwner expectVI) := by
  obtain ⟨c', hc'⟩ : Returns (c.preAcknowledge expectVI false none) := preAcknowledge_returns.mpr h
  rw [hc', (preAcknowledge_ok hc').2]
  rfl

/-- The lifecycle after `cancelPreAcknowledge(false)`. -/
def releasedByOwner (c : EmbeddableLifecycle) : EmbeddableLifecycle :=
  { c with status := .published, acknowledgedByOwner := false }

theorem cancelPreAcknowledge_owner (h : c.status = .acknowledged)
    (howner : c.acknowledgedByOwnerOn = none) (hissuer : c.acknowledgedByVerifiedIssuerOn = none) :
    c.cancelPreAcknowledge false = .ok c.releasedByOwner := by
  obtain ⟨c', hc'⟩ : Returns (c.cancelPreAcknowledge false) :=
    cancelPreAcknowledge_returns.mpr ⟨h, howner, hissuer⟩
  rw [hc', (cancelPreAcknowledge_ok hc').2.2.2]
  simp [releasedByOwner]

theorem isAcknowledgedOnChain_iff : c.isAcknowledgedOnChain expectVI = true ↔
    c.status = .acknowledged ∧ c.acknowledgedByOwnerOn.isSome ∧
      (expectVI = true → c.acknowledgedByVerifiedIssuerOn.isSome) := by
  cases expectVI <;> simp [isAcknowledgedOnChain, isAcknowledged]

theorem isPublishedOnChain_iff :
    c.isPublishedOnChain = true ↔ c.status = .published ∧ c.addedOn.isSome := by
  simp [isPublishedOnChain, isPublished]

end EmbeddableLifecycle

namespace LocRequest

variable {l l' : LocRequest} {k : ItemKind} {autoAck : Bool}

/-- The checks that `preClose` makes. -/
def PreCloseChecks (l : LocRequest) (autoAck : Bool) : Prop :=
  if autoAck then l.ensureAllItemsAckedOrPublishedOnChain = .ok () ∧
    l.ensureAllItemsAckedByVerifiedIssuerOnChain = .ok ()
  else l.ensureAllItemsAckedOnChain = .ok ()

theorem preClose_returns : Returns (l.preClose autoAck) ↔ l.PreCloseChecks autoAck := by
  cases autoAck with
  | true => exact preClose_autoAck_returns
  | false =>
    unfold preClose PreCloseChecks
    refine returns_map.trans ?_
    rw [if_neg (by simp), if_neg (by simp), guard_returns]
    exact and_iff_left (returns_ok l)

/-- What the checks of `preClose(true)` say about an item. -/
theorem PreCloseChecks.item (h : l.PreCloseChecks true) {item : Item k} (hmem : item ∈ l.items k) :
    (item.lifecycle.isAcknowledgedOnChain (l.isVerifiedIssuer item.submitter) = true ∨
        item.lifecycle.isPublishedOnChain = true) ∧
      (l.isVerifiedIssuer item.submitter = true →
        item.lifecycle.acknowledgedByVerifiedIssuerOn.isSome) := by
  have h1 := ensureNoItem_ok.mp h.1 k item hmem
  have h2 := ensureNoItem_ok.mp h.2 k item hmem
  constructor
  · simpa [or_iff_not_imp_left] using h1
  · intro hvi
    simpa [isSubmittedByVerifiedIssuerButNotAcknowledgedOnChain, hvi, Option.isSome_iff_ne_none]
      using h2

/-- What the check of `preClose(false)` says about an item. -/
theorem PreCloseChecks.item_noAck (h : l.PreCloseChecks false) {item : Item k}
    (hmem : item ∈ l.items k) :
    item.lifecycle.isAcknowledgedOnChain (l.isVerifiedIssuer item.submitter) = true := by
  simpa using ensureNoItem_ok.mp h k item hmem

/-- The items that the checks accept are published or acknowledged. -/
theorem PreCloseChecks.status (h : l.PreCloseChecks true) {item : Item k}
    (hmem : item ∈ l.items k) : item.status = .published ∨ item.status = .acknowledged := by
  rcases (h.item hmem).1 with hack | hpub
  · exact .inr (isAcknowledgedOnChain_iff.mp hack).1
  · exact .inl (isPublishedOnChain_iff.mp hpub).1

/-- Once the owner has acknowledged it, an item that the checks accept is acknowledged. -/
theorem PreCloseChecks.ackedByOwner_status (h : l.PreCloseChecks true) (hl : l.Sound)
    {item : Item k} (hmem : item ∈ l.items k) :
    (item.lifecycle.ackedByOwner (l.isVerifiedIssuer item.submitter)).status = .acknowledged := by
  have hfull : (item.lifecycle.setAcknowledged false none).fullyAcknowledged
      (l.isVerifiedIssuer item.submitter) = true := by
    by_cases hvi : l.isVerifiedIssuer item.submitter = true
    · have hflag := (hl.of_mem hmem).issuer ((h.item hmem).2 hvi)
      simp [fullyAcknowledged, setAcknowledged, hflag]
    · simp [fullyAcknowledged, setAcknowledged, hvi]
  exact if_pos hfull

/-! ### The LOC after `preClose` -/

/-- `preClose` writes no more than the status of the LOC and the items. -/
theorem preClose_rest (h : l.preClose autoAck = .ok l') :
    l'.withoutItems = { l with status := l'.status }.withoutItems := by
  obtain ⟨l₁, hb, rfl⟩ := preClose_ok h
  have hrest := hb.rest
  split_ifs with hst
  · have hclosed : { l₁ with status := LocRequestStatus.closed }.withoutItems =
        { l₁.withoutItems with status := LocRequestStatus.closed } := rfl
    rw [hclosed, hrest]
    rfl
  · rw [hrest, status_of_withoutItems hrest]

theorem preClose_isVerifiedIssuer (h : l.preClose autoAck = .ok l') (account : AccountId) :
    l'.isVerifiedIssuer account = l.isVerifiedIssuer account :=
  isVerifiedIssuer_congr (owner_of_withoutItems (l := { l with status := l'.status }) (preClose_rest h))
    (requester_of_withoutItems (l := { l with status := l'.status }) (preClose_rest h)) account

theorem preClose_items (h : l.preClose true = .ok l') (k : ItemKind) :
    l'.items k = (l.items k).map fun item =>
      { item with
        lifecycle := item.lifecycle.ackedByOwner (l.isVerifiedIssuer item.submitter)
        toUpdate := true } := by
  have hchecks : l.PreCloseChecks true := preClose_returns.mp ⟨l', h⟩
  obtain ⟨l₁, hb, rfl⟩ := preClose_ok h
  have hitems := hb.items_eq (k := k)
    (c := fun item => item.lifecycle.ackedByOwner (l.isVerifiedIssuer item.submitter))
    fun item hmem _ => preAcknowledge_owner (hchecks.status hmem)
  simp only [Item.moved_true] at hitems
  rw [← hitems]
  split_ifs <;> cases k <;> rfl

theorem preClose_items_noAck (h : l.preClose false = .ok l') (k : ItemKind) :
    l'.items k = l.items k := by
  obtain ⟨l₁, hb, rfl⟩ := preClose_ok h
  rw [← hb.items_of_none (k := k) fun _ => rfl]
  split_ifs <;> cases k <;> rfl

theorem preClose_status (h : l.preClose autoAck = .ok l') (hst : l.status = .opened) :
    l'.status = .closed := by
  obtain ⟨l₁, -, rfl⟩ := preClose_ok h
  rw [if_pos hst]

/-! ### `preClose` is sound -/

/-- An item that a closed LOC may have: acknowledged by everyone, and confirmed on chain. -/
structure ConfirmedItem (l : LocRequest) (item : Item k) : Prop where
  status : item.status = .acknowledged
  added : item.lifecycle.addedOn.isSome
  owner : item.lifecycle.acknowledgedByOwner = true
  issuer : l.isVerifiedIssuer item.submitter = true →
    item.lifecycle.acknowledgedByVerifiedIssuerOn.isSome

/-- `preClose(autoAck)` throws and changes nothing, or closes the LOC over confirmed items. -/
def ClosesSoundly (l : LocRequest) (autoAck : Bool) : Prop :=
  (∃ e, exec (InPlace.preClose autoAck) l = (.error e, l)) ∨
    ∃ l', exec (InPlace.preClose autoAck) l = (.ok (), l') ∧ l'.status = .closed ∧
      ∀ k, ∀ item ∈ l'.items k, l'.ConfirmedItem item

/-- If the checks of `preClose(autoAck)` pass, the acknowledged items were added on chain. -/
def AcknowledgedItemsAdded (l : LocRequest) (autoAck : Bool) : Prop :=
  l.PreCloseChecks autoAck →
    ∀ k, ∀ item ∈ l.items k, item.status = .acknowledged → item.lifecycle.addedOn.isSome

/-- An item that the checks accept, once the owner has acknowledged it. -/
theorem confirmedItem_ackedByOwner_iff (h : l.PreCloseChecks true) (hl : l.Sound) {item : Item k}
    (hmem : item ∈ l.items k) :
    l.ConfirmedItem { item with
      lifecycle := item.lifecycle.ackedByOwner (l.isVerifiedIssuer item.submitter)
      toUpdate := true } ↔
    (item.status = .acknowledged → item.lifecycle.addedOn.isSome) := by
  constructor
  · exact fun hconfirmed _ => hconfirmed.added
  · intro hadded
    refine ⟨h.ackedByOwner_status hl hmem, ?_, rfl, (h.item hmem).2⟩
    rcases (h.item hmem).1 with hack | hpub
    · exact hadded (isAcknowledgedOnChain_iff.mp hack).1
    · exact (isPublishedOnChain_iff.mp hpub).2

/-- An item that the check of `preClose(false)` accepts. -/
theorem confirmedItem_noAck_iff (h : l.PreCloseChecks false) (hl : l.Sound) {item : Item k}
    (hmem : item ∈ l.items k) :
    l.ConfirmedItem item ↔ (item.status = .acknowledged → item.lifecycle.addedOn.isSome) := by
  obtain ⟨hst, howner, hissuer⟩ := isAcknowledgedOnChain_iff.mp (h.item_noAck hmem)
  constructor
  · exact fun hconfirmed _ => hconfirmed.added
  · exact fun hadded => ⟨hst, hadded hst, (hl.of_mem hmem).owner howner, hissuer⟩

/-- The items after a `preClose` that returned are confirmed exactly when the acknowledged ones were
added. -/
theorem preClose_confirmed_iff (h : l.preClose autoAck = .ok l') (hl : l.Sound) :
    (∀ k, ∀ item ∈ l'.items k, l'.ConfirmedItem item) ↔
      ∀ k, ∀ item ∈ l.items k, item.status = .acknowledged → item.lifecycle.addedOn.isSome := by
  have hchecks : l.PreCloseChecks autoAck := preClose_returns.mp ⟨l', h⟩
  have hconfirmed : ∀ {k} (item : Item k), l'.ConfirmedItem item ↔ l.ConfirmedItem item := by
    intro k item
    have hvi := preClose_isVerifiedIssuer h item.submitter
    exact ⟨fun ⟨h1, h2, h3, h4⟩ => ⟨h1, h2, h3, fun hv => h4 (hvi.trans hv)⟩,
      fun ⟨h1, h2, h3, h4⟩ => ⟨h1, h2, h3, fun hv => h4 (hvi.symm.trans hv)⟩⟩
  refine forall_congr' fun k => ?_
  simp only [hconfirmed]
  cases autoAck with
  | false =>
    rw [preClose_items_noAck h k]
    exact forall₂_congr fun item hmem => confirmedItem_noAck_iff hchecks hl hmem
  | true =>
    rw [preClose_items h k, List.forall_mem_map]
    exact forall₂_congr fun item hmem => confirmedItem_ackedByOwner_iff hchecks hl hmem

/-- **`preClose` is sound** exactly when the acknowledged items that pass its checks were added on
chain. -/
theorem closesSoundly_iff [Hashing] (hl : Reachable l) (hst : l.status = .opened) (autoAck : Bool) :
    l.ClosesSoundly autoAck ↔ l.AcknowledgedItemsAdded autoAck := by
  have hrefines := InPlace.refines_preClose autoAck
  unfold ClosesSoundly AcknowledgedItemsAdded
  cases h : l.preClose autoAck with
  | error e =>
    have hchecks : ¬ l.PreCloseChecks autoAck := by
      rw [← preClose_returns, h]
      exact not_returns_error e
    exact iff_of_true (.inl ⟨e, hrefines.of_error h⟩) fun hc => absurd hc hchecks
  | ok l' =>
    have hchecks : l.PreCloseChecks autoAck := preClose_returns.mp ⟨l', h⟩
    have hexec := hrefines.of_ok h
    rw [forall_prop_of_true hchecks, ← preClose_confirmed_iff h (reachable_sound hl), hexec]
    constructor
    · rintro (⟨e, he⟩ | ⟨l₁, heq, -, hconfirmed⟩)
      · cases (Prod.mk.inj he).1
      · cases (Prod.mk.inj heq).2
        exact hconfirmed
    · exact fun hconfirmed => .inr ⟨l', rfl, preClose_status h hst, hconfirmed⟩

/-- The officer adds a link and acknowledges it over HTTP, without anything on chain. -/
def addAndAcknowledgeLink : List LocOp :=
  [.addLink "target" (.polkadot "owner") "nature" .manualByOwner 2,
    .prePublishOrAcknowledgeItem .link "target" (.polkadot "owner")]

/-- The LOC of the officer with that link. -/
def ownersLocWithLink (lifecycle : EmbeddableLifecycle) : LocRequest :=
  { ownersLoc with
    links := [{
      key := "target"
      index := 0
      submitter := .polkadot "owner"
      lifecycle := lifecycle
      data := (⟨"nature", none⟩ : LinkData)
      toAdd := true
      toUpdate := true }] }

/-- Acknowledged by its submitter, who is the owner; dated by the local clock only. -/
def acknowledgedByItsOwner : EmbeddableLifecycle :=
  { status := .acknowledged, acknowledgedByOwner := true, acknowledgedByOwnerOn := some 2 }

theorem run_addAndAcknowledgeLink [Hashing] : run step ownersLoc addAndAcknowledgeLink =
    ownersLocWithLink acknowledgedByItsOwner := rfl

theorem ownersLocWithLink_reachable [Hashing] :
    Reachable (ownersLocWithLink acknowledgedByItsOwner) :=
  run_addAndAcknowledgeLink ▸ reachable_run ownersLoc_created addAndAcknowledgeLink

theorem closesSoundly_iff_ownersLink :
    letI : Hashing := ⟨fun name => name⟩
    Reachable (ownersLocWithLink acknowledgedByItsOwner) ∧
      (ownersLocWithLink acknowledgedByItsOwner).status = .opened ∧
      ((ownersLocWithLink acknowledgedByItsOwner).ClosesSoundly false ↔
        (ownersLocWithLink acknowledgedByItsOwner).AcknowledgedItemsAdded false) :=
  letI : Hashing := ⟨fun name => name⟩
  ⟨ownersLocWithLink_reachable, rfl, closesSoundly_iff ownersLocWithLink_reachable rfl false⟩

/-- The date that `addLink` wrote from the local clock passes for an acknowledgement on chain. -/
theorem closes_over_unconfirmed_link :
    letI : Hashing := ⟨fun name => name⟩
    ¬ ∀ l, Reachable l → l.status = .opened → ∀ autoAck, l.ClosesSoundly autoAck := by
  let _ : Hashing := ⟨fun name => name⟩
  intro h
  have hsound := h _ ownersLocWithLink_reachable rfl false
  have hexec : exec (InPlace.preClose false) (ownersLocWithLink acknowledgedByItsOwner) =
      (.ok (), { ownersLocWithLink acknowledgedByItsOwner with status := .closed }) := rfl
  rw [ClosesSoundly, hexec] at hsound
  rcases hsound with ⟨e, he⟩ | ⟨l', heq, -, hconfirmed⟩
  · cases (Prod.mk.inj he).1
  · cases (Prod.mk.inj heq).2
    have hadded := (hconfirmed .link _ List.mem_cons_self).added
    cases hadded

/-! ### `cancelPreClose` undoes `preClose` -/

/-- What the claim of restoration is about: the status, the flags and the dates. -/
def acknowledgements (c : EmbeddableLifecycle) :
    ItemStatus × Option Moment × (Bool × Option Moment) × (Bool × Option Moment) :=
  (c.status, c.addedOn, (c.acknowledgedByOwner, c.acknowledgedByOwnerOn),
    (c.acknowledgedByVerifiedIssuer, c.acknowledgedByVerifiedIssuerOn))

/-- After a `preClose` that returns, `cancelPreClose` returns and gives back the status of the LOC
and the acknowledgements of its items. -/
def ClosingUndone (l : LocRequest) (autoAck : Bool) : Prop :=
  ∀ l₁, l.preClose autoAck = .ok l₁ → ∃ l₂, l₁.cancelPreClose autoAck = .ok l₂ ∧
    l₂.status = l.status ∧ ∀ k,
      (l₂.items k).map (fun item => (item.key, acknowledgements item.lifecycle)) =
        (l.items k).map (fun item => (item.key, acknowledgements item.lifecycle))

/-- If `preClose` acknowledges the items, and its checks pass, then none was acknowledged before:
each is published, without flag of the owner and without date of a verified issuer. -/
def NothingAcknowledged (l : LocRequest) (autoAck : Bool) : Prop :=
  autoAck = true → l.PreCloseChecks true → ∀ k, ∀ item ∈ l.items k,
    item.status = .published ∧ item.lifecycle.acknowledgedByOwner = false ∧
      item.lifecycle.acknowledgedByVerifiedIssuerOn = none

/-- What is left of the acknowledgements of an item once the owner has acknowledged it without a date
and has taken this back. -/
theorem acknowledgements_released_iff {c : EmbeddableLifecycle} (hc : c.Flagged) (expectVI : Bool) :
    acknowledgements (c.ackedByOwner expectVI).releasedByOwner = acknowledgements c ↔
      c.status = .published ∧ c.acknowledgedByOwner = false := by
  have hreleased : acknowledgements (c.ackedByOwner expectVI).releasedByOwner =
      (.published, c.addedOn, (false, none),
        (c.acknowledgedByVerifiedIssuer, c.acknowledgedByVerifiedIssuerOn)) := rfl
  rw [hreleased]
  simp only [acknowledgements, Prod.mk.injEq, true_and, and_true]
  constructor
  · rintro ⟨hst, howner, -⟩
    exact ⟨hst.symm, howner.symm⟩
  · rintro ⟨hst, howner⟩
    refine ⟨hst.symm, howner.symm, ?_⟩
    have hdate : ¬ c.acknowledgedByOwnerOn.isSome = true := fun hs => by
      rw [hc.owner hs] at howner
      cases howner
    simpa using (Option.not_isSome_iff_eq_none.mp hdate).symm

theorem cancelPreClose_items_noAck (h : l.cancelPreClose false = .ok l') (k : ItemKind) :
    l'.items k = l.items k := by
  obtain ⟨-, l₁, hb, rfl⟩ := cancelPreClose_ok h
  rw [← hb.items_of_none (k := k) fun _ => rfl]
  cases k <;> rfl

/-- The items after `cancelPreClose(true)`, when all of them are acknowledged and undated. -/
theorem cancelPreClose_items (h : l.cancelPreClose true = .ok l') (hack : ∀ item ∈ l.items k,
      item.status = .acknowledged ∧ item.lifecycle.acknowledgedByOwnerOn = none) :
    l'.items k = (l.items k).map fun item =>
      { item with lifecycle := item.lifecycle.releasedByOwner, toUpdate := true } := by
  have hissuer := (cancelPreClose_returns.mp ⟨l', h⟩).2 rfl k
  obtain ⟨-, l₁, hb, rfl⟩ := cancelPreClose_ok h
  have hitems := hb.items_eq (k := k) (c := fun item => item.lifecycle.releasedByOwner)
    fun item hmem _ => by
      obtain ⟨hst, howner⟩ := hack item hmem
      exact cancelPreAcknowledge_owner hst howner (hissuer item hmem hst howner)
  have hall : ∀ item ∈ l.items k, (true && (decide (item.status = .acknowledged) &&
      item.lifecycle.acknowledgedByOwnerOn.isNone)) = true := by
    intro item hmem
    simp [hack item hmem]
  have hrestored : l₁.items k = (l.items k).map fun item =>
      { item with lifecycle := item.lifecycle.releasedByOwner, toUpdate := true } := by
    rw [hitems]
    exact List.map_congr_left fun item hmem => by rw [hall item hmem]; rfl
  rw [← hrestored]
  cases k <;> rfl

theorem closingUndone_noAck (hst : l.status = .opened) : l.ClosingUndone false := by
  intro l₁ h
  have hclosed := preClose_status h hst
  obtain ⟨l₂, h₂⟩ : Returns (l₁.cancelPreClose false) := cancelPreClose_returns.mpr
    ⟨hclosed, fun hauto => by cases hauto⟩
  refine ⟨l₂, h₂, ?_, fun k => ?_⟩
  · obtain ⟨-, l₃, -, rfl⟩ := cancelPreClose_ok h₂
    exact hst.symm
  · rw [cancelPreClose_items_noAck h₂ k, preClose_items_noAck h k]

/-- After `preClose(true)` every item is acknowledged, and the owner's date is gone. -/
theorem preClose_acknowledged (hl : l.Sound) (h : l.preClose true = .ok l') :
    ∀ item ∈ l'.items k,
      item.status = .acknowledged ∧ item.lifecycle.acknowledgedByOwnerOn = none := by
  have hchecks : l.PreCloseChecks true := preClose_returns.mp ⟨l', h⟩
  rw [preClose_items h k, List.forall_mem_map]
  exact fun item hmem => ⟨hchecks.ackedByOwner_status hl hmem, rfl⟩

/-- The cancel that follows throws on an item dated by its verified issuer. -/
theorem cancelPreClose_returns_after (hl : l.Sound) (hst : l.status = .opened)
    (h : l.preClose true = .ok l') : Returns (l'.cancelPreClose true) ↔
      ∀ k, ∀ item ∈ l.items k, item.lifecycle.acknowledgedByVerifiedIssuerOn = none := by
  rw [cancelPreClose_returns, and_iff_right (preClose_status h hst), forall_prop_of_true rfl]
  refine forall_congr' fun k => ?_
  have hissuer : (∀ item ∈ l.items k, item.lifecycle.acknowledgedByVerifiedIssuerOn = none) ↔
      ∀ item ∈ l'.items k, item.lifecycle.acknowledgedByVerifiedIssuerOn = none := by
    rw [preClose_items h k, List.forall_mem_map]
    rfl
  rw [hissuer]
  refine forall₂_congr fun item hmem => ?_
  obtain ⟨hack, howner⟩ := preClose_acknowledged hl h item hmem
  rw [forall_prop_of_true hack, forall_prop_of_true howner]

/-- What the cancel gives back, when it returns. -/
theorem cancelPreClose_restores_iff {l₁ l₂ : LocRequest} (hl : l.Sound)
    (h₁ : l.preClose true = .ok l₁) (h₂ : l₁.cancelPreClose true = .ok l₂) :
    (l₂.items k).map (fun item => (item.key, acknowledgements item.lifecycle)) =
        (l.items k).map (fun item => (item.key, acknowledgements item.lifecycle)) ↔
      ∀ item ∈ l.items k,
        item.status = .published ∧ item.lifecycle.acknowledgedByOwner = false := by
  rw [cancelPreClose_items h₂ (preClose_acknowledged hl h₁), preClose_items h₁ k, List.map_map,
    List.map_map, List.map_inj_left]
  refine forall₂_congr fun item hmem => ?_
  simp only [Function.comp, Prod.mk.injEq, true_and]
  exact acknowledgements_released_iff (hl.of_mem hmem) _

/-- **`cancelPreClose` undoes `preClose`** exactly when `preClose` had nothing to acknowledge again:
the owner's date that it erased, and the issuer's date that stops the cancel, are not given back. -/
theorem closingUndone_iff [Hashing] (hl : Reachable l) (hst : l.status = .opened) (autoAck : Bool) :
    l.ClosingUndone autoAck ↔ l.NothingAcknowledged autoAck := by
  have hsound := reachable_sound hl
  cases autoAck with
  | false => exact iff_of_true (closingUndone_noAck hst) fun hauto => by cases hauto
  | true =>
    unfold NothingAcknowledged
    rw [forall_prop_of_true rfl]
    constructor
    · intro hundone hchecks k item hmem
      obtain ⟨l₁, h₁⟩ := preClose_returns.mpr hchecks
      obtain ⟨l₂, h₂, -, hrestored⟩ := hundone l₁ h₁
      have hissuer := (cancelPreClose_returns_after hsound hst h₁).mp ⟨l₂, h₂⟩ k item hmem
      obtain ⟨hpub, howner⟩ := (cancelPreClose_restores_iff hsound h₁ h₂).mp (hrestored k) item hmem
      exact ⟨hpub, howner, hissuer⟩
    · intro hnothing l₁ h₁
      have hitems := hnothing (preClose_returns.mp ⟨l₁, h₁⟩)
      obtain ⟨l₂, h₂⟩ := (cancelPreClose_returns_after hsound hst h₁).mpr
        fun k item hmem => (hitems k item hmem).2.2
      refine ⟨l₂, h₂, ?_, fun k => (cancelPreClose_restores_iff hsound h₁ h₂).mpr fun item hmem =>
        ⟨(hitems k item hmem).1, (hitems k item hmem).2.1⟩⟩
      obtain ⟨-, l₃, -, rfl⟩ := cancelPreClose_ok h₂
      exact hst.symm

/-- The link of the officer, once the chain has dated it. -/
def confirmedLink : EmbeddableLifecycle := { acknowledgedByItsOwner with addedOn := some 5 }

theorem confirmedLink_reachable [Hashing] : Reachable (ownersLocWithLink confirmedLink) := by
  obtain ⟨l₀, hcreated, hevolves⟩ := ownersLocWithLink_reachable
  exact ⟨l₀, hcreated, .operation (.setItemAddedOn .link "target" 5) hevolves rfl⟩

theorem closingUndone_iff_ownersLink :
    letI : Hashing := ⟨fun name => name⟩
    Reachable (ownersLocWithLink confirmedLink) ∧
      (ownersLocWithLink confirmedLink).status = .opened ∧
      ((ownersLocWithLink confirmedLink).ClosingUndone true ↔
        (ownersLocWithLink confirmedLink).NothingAcknowledged true) :=
  letI : Hashing := ⟨fun name => name⟩
  ⟨confirmedLink_reachable, rfl, closingUndone_iff confirmedLink_reachable rfl true⟩

/-- Closing and cancelling leaves the acknowledged link published, without the owner's flag and
date. -/
theorem closing_not_undone :
    letI : Hashing := ⟨fun name => name⟩
    ¬ ∀ l, Reachable l → l.status = .opened → ∀ autoAck, l.ClosingUndone autoAck := by
  let _ : Hashing := ⟨fun name => name⟩
  intro h
  have hclose : (ownersLocWithLink confirmedLink).preClose true =
      .ok { ownersLocWithLink { confirmedLink with acknowledgedByOwnerOn := none } with
        status := .closed } := rfl
  obtain ⟨l₂, hcancel, -, hrestored⟩ := h _ confirmedLink_reachable rfl true _ hclose
  have hl₂ : { ownersLocWithLink { confirmedLink with acknowledgedByOwnerOn := none } with
        status := .closed }.cancelPreClose true =
      .ok (ownersLocWithLink
        { confirmedLink with
          status := .published, acknowledgedByOwner := false, acknowledgedByOwnerOn := none }) := rfl
  obtain rfl := Except.ok.inj (hcancel.symm.trans hl₂)
  have hlink := hrestored .link
  cases hlink

end LocRequest

end Logion
