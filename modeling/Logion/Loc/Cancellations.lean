import Logion.Loc.Reachable

/-!
# Cancellations — the cancel operations of an item against its pre operations

* `Reached`: what the transitions make of a new lifecycle.
* `UndoesPrePublication`, `UndoesAcknowledgement`: the cancellation restores the whole lifecycle.
* `undoesPrePublication`: it always does for the publication.
* `undoesAcknowledgement_iff`: for an acknowledgement, exactly when it is the last one expected of
  an item that is only published, and the other party is not confirmed on chain.
-/

namespace Logion

open Keyed Fallible

namespace EmbeddableLifecycle

variable {c c' : EmbeddableLifecycle}

/-! ### The two acknowledgements by party -/

/-- The flag of a party. -/
def acknowledgedBy (c : EmbeddableLifecycle) (byVerifiedIssuer : Bool) : Bool :=
  if byVerifiedIssuer then c.acknowledgedByVerifiedIssuer else c.acknowledgedByOwner

/-- The date of a party. -/
def acknowledgedByOn (c : EmbeddableLifecycle) (byVerifiedIssuer : Bool) : Option Moment :=
  if byVerifiedIssuer then c.acknowledgedByVerifiedIssuerOn else c.acknowledgedByOwnerOn

theorem acknowledgedByOn_setAcknowledged_not (v : Bool) (on : Option Moment) :
    (c.setAcknowledged v on).acknowledgedByOn (!v) = c.acknowledgedByOn (!v) := by cases v <;> rfl

/-- Nobody is left once `v` has acknowledged: the other party has, or is not expected to. -/
theorem fullyAcknowledged_setAcknowledged (v e : Bool) (on : Option Moment) :
    (c.setAcknowledged v on).fullyAcknowledged e = (c.acknowledgedBy (!v) || (!e && !v)) := by
  cases v <;> cases e <;> simp [setAcknowledged, fullyAcknowledged, acknowledgedBy]

/-- The dates in the way of a cancellation, whichever party it is for. -/
theorem dates_none_iff (v : Bool) :
    c.acknowledgedByOwnerOn = none ∧ c.acknowledgedByVerifiedIssuerOn = none ↔
      c.acknowledgedByOn v = none ∧ c.acknowledgedByOn (!v) = none := by
  cases v <;> simp [acknowledgedByOn, and_comm]

theorem Flagged.date_none (hc : c.Flagged) {v : Bool} (h : c.acknowledgedBy v = false) :
    c.acknowledgedByOn v = none := by
  cases v with
  | true => exact Option.not_isSome_iff_eq_none.mp fun hs => by simp_all [acknowledgedBy, hc.issuer hs]
  | false => exact Option.not_isSome_iff_eq_none.mp fun hs => by simp_all [acknowledgedBy, hc.owner hs]

/-! ### Lifecycles that are reached -/

/-- What transitions make of the lifecycle of a new item. -/
def Reached (c : EmbeddableLifecycle) : Prop :=
  ∃ type now ops, (fromSubmissionType type now).steps ops = .ok c

theorem Reached.flagged (hc : c.Reached) : c.Flagged := by
  obtain ⟨type, now, ops, h⟩ := hc
  exact (flagged_fromSubmissionType type now).steps h

/-! ### Publication -/

/-- A publication before the chain confirms it, and its cancellation: status, flags and dates are
what they were. -/
def UndoesPrePublication (c : EmbeddableLifecycle) (b : Bool) : Prop :=
  c.status = .reviewAccepted → c.addedOn = none →
    (do let c' ← c.prePublishOrAcknowledge b none; c'.cancelPrePublishOrAcknowledge b) = .ok c

theorem undoesPrePublication (b : Bool) : c.UndoesPrePublication b := by
  intro hst hon
  have hpre : c.prePublishOrAcknowledge b none =
      .ok { c with status := acknowledgedOrPublished b, addedOn := none } := by
    simp [prePublishOrAcknowledge, hst]
  rw [hpre]
  change cancelPrePublishOrAcknowledge _ b = _
  simp only [cancelPrePublishOrAcknowledge, ne_eq, not_true_eq_false, if_false, Option.isSome_none,
    Bool.false_eq_true]
  rw [← hst, ← hon]

/-! ### Acknowledgement -/

/-- An acknowledgement before the chain confirms it, by a party that has not acknowledged yet, and
its cancellation by that party. -/
def UndoesAcknowledgement (c : EmbeddableLifecycle) (expectVerifiedIssuer v : Bool) : Prop :=
  c.acknowledgedBy v = false → ∀ c', c.preAcknowledge expectVerifiedIssuer v none = .ok c' →
    c'.cancelPreAcknowledge v = .ok c

/-- The party `v` is the last one to acknowledge a published item, and the other one, if it has,
only in advance. -/
structure LastAcknowledgement (c : EmbeddableLifecycle) (expectVerifiedIssuer v : Bool) : Prop where
  published : c.status = .published
  unconfirmed : c.acknowledgedByOn (!v) = none
  last : c.acknowledgedBy (!v) = true ∨ (expectVerifiedIssuer = false ∧ v = false)

/-- A cancellation that returns gives a published item. -/
theorem cancelPreAcknowledge_published {v : Bool} (h : c'.cancelPreAcknowledge v = .ok c) :
    c.status = .published := by
  obtain ⟨-, -, -, rfl⟩ := cancelPreAcknowledge_ok h
  rfl

theorem lastAcknowledgement_of_undone {e v : Bool} (hpre : c.preAcknowledge e v none = .ok c')
    (h : c'.cancelPreAcknowledge v = .ok c) : c.LastAcknowledgement e v := by
  have hpublished := cancelPreAcknowledge_published h
  obtain ⟨hst, howner, hissuer, -⟩ := cancelPreAcknowledge_ok h
  obtain ⟨-, rfl⟩ := preAcknowledge_ok hpre
  have hdates := (dates_none_iff v).mp ⟨howner, hissuer⟩
  refine ⟨hpublished, ?_, ?_⟩
  · rw [← acknowledgedByOn_setAcknowledged_not v none]
    exact hdates.2
  · by_contra hlast
    -- the item stays published, and a published item cannot be cancelled
    have hnot : (c.setAcknowledged v none).fullyAcknowledged e = false := by
      rw [fullyAcknowledged_setAcknowledged]
      cases e <;> cases v <;> simp_all
    simp [hnot, hpublished] at hst

theorem undone_of_lastAcknowledgement {e v : Bool} (hc : c.Flagged)
    (hflag : c.acknowledgedBy v = false) (hlast : c.LastAcknowledgement e v)
    (hpre : c.preAcknowledge e v none = .ok c') : c'.cancelPreAcknowledge v = .ok c := by
  have hown : c.acknowledgedByOn v = none := hc.date_none hflag
  obtain ⟨howner, hissuer⟩ := (dates_none_iff v).mpr ⟨hown, hlast.unconfirmed⟩
  have hfull : (c.setAcknowledged v none).fullyAcknowledged e = true := by
    rw [fullyAcknowledged_setAcknowledged]
    rcases hlast.last with h | ⟨rfl, rfl⟩
    · simp [h]
    · simp
  obtain ⟨-, rfl⟩ := preAcknowledge_ok hpre
  rw [if_pos hfull]
  obtain ⟨status, reason, reviewedOn, addedOn, ownerOn, owner, issuerOn, issuer⟩ := c
  obtain rfl : status = .published := hlast.published
  obtain rfl : ownerOn = none := howner
  obtain rfl : issuerOn = none := hissuer
  cases v with
  | true =>
    obtain rfl : issuer = false := hflag
    simp [setAcknowledged, cancelPreAcknowledge]
  | false =>
    obtain rfl : owner = false := hflag
    simp [setAcknowledged, cancelPreAcknowledge]

/-- **An acknowledgement is undone exactly where it was the last one**, for the lifecycles in which
it is accepted at all. -/
theorem undoesAcknowledgement_iff (hc : c.Flagged) (e v : Bool) :
    c.UndoesAcknowledgement e v ↔
      (c.acknowledgedBy v = false → c.status = .published ∨ c.status = .acknowledged →
        c.LastAcknowledgement e v) := by
  constructor
  · intro h hflag hst
    obtain ⟨c', hpre⟩ := preAcknowledge_returns.mpr hst
    exact lastAcknowledgement_of_undone hpre (h hflag c' hpre)
  · intro h hflag c' hpre
    exact undone_of_lastAcknowledgement hc hflag (h hflag (preAcknowledge_ok hpre).1) hpre

/-! ### Both -/

/-- **The cancel operations undo the pre operations** of every lifecycle that is reached, exactly
where an acknowledgement still to come is the last one expected. -/
theorem cancellationsUndo_iff (hc : c.Reached) (b e v : Bool) :
    c.UndoesPrePublication b ∧ c.UndoesAcknowledgement e v ↔
      (c.acknowledgedBy v = false → c.status = .published ∨ c.status = .acknowledged →
        c.LastAcknowledgement e v) :=
  (and_iff_right (undoesPrePublication b)).trans (undoesAcknowledgement_iff hc.flagged e v)

/-- An item that its verified issuer has submitted, reviewed and published on chain. -/
def issuersItem : EmbeddableLifecycle where
  status := .published
  reviewedOn := some 2
  addedOn := some 3

/-- Its verified issuer has acknowledged it in advance. -/
def ackedByIssuer : EmbeddableLifecycle :=
  { issuersItem with acknowledgedByVerifiedIssuer := true }

/-- Its verified issuer has acknowledged it on chain. -/
def confirmedByIssuer : EmbeddableLifecycle :=
  { ackedByIssuer with acknowledgedByVerifiedIssuerOn := some 4 }

/-- An item that the owner has not acknowledged, acknowledged at its publication. -/
def acknowledgedAtOnce : EmbeddableLifecycle := { issuersItem with status := .acknowledged }

/-- Where the verified issuer has acknowledged in advance, the owner's cancellation restores the
item. -/
theorem cancellationsUndo_iff_owner :
    ackedByIssuer.UndoesPrePublication true ∧ ackedByIssuer.UndoesAcknowledgement true false := by
  refine (cancellationsUndo_iff ⟨.manualByUser, 1, [.requestReview, .accept 2,
    .prePublishOrAcknowledge false (some 3), .preAcknowledge true true none], by decide⟩
    true true false).mpr fun _ _ => ?_
  exact ⟨rfl, rfl, .inl rfl⟩

/-- The owner acknowledges the item in advance and cannot cancel: the item of a verified issuer
that has not acknowledged yet stays published, and one that it has confirmed on chain is refused.
An item acknowledged at its publication is published after the cancellation. -/
theorem cancellations_notUndone :
    (issuersItem.Reached ∧ ¬ issuersItem.UndoesAcknowledgement true false) ∧
    (confirmedByIssuer.Reached ∧ ¬ confirmedByIssuer.UndoesAcknowledgement true false) ∧
    (acknowledgedAtOnce.Reached ∧ ¬ acknowledgedAtOnce.UndoesAcknowledgement false false) := by
  refine ⟨⟨⟨.manualByUser, 1, ?_, ?_⟩, fun h => ?_⟩, ⟨⟨.manualByUser, 1, ?_, ?_⟩, fun h => ?_⟩,
    ⟨.manualByUser, 1, ?_, ?_⟩, fun h => ?_⟩
  · exact [.requestReview, .accept 2, .prePublishOrAcknowledge false (some 3)]
  · decide
  · exact absurd (h rfl _ rfl) (by decide)
  · exact [.requestReview, .accept 2, .prePublishOrAcknowledge false (some 3),
      .preAcknowledge true true (some 4)]
  · decide
  · exact absurd (h rfl _ rfl) (by decide)
  · exact [.requestReview, .accept 2, .prePublishOrAcknowledge true (some 3)]
  · decide
  · exact absurd (h rfl _ rfl) (by decide)

end EmbeddableLifecycle

end Logion
