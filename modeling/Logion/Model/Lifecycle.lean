import Logion.Lib.Fallible
import Logion.Model.Basic

/-!
# Lifecycle — the lifecycle of one item (`loc_lifecycle.ts`)

`EmbeddableLifecycle` with its transitions, as the code computes them: a status, a review, the date
of the publication on chain and two acknowledgements, each a flag and a date.  Every transition
throws outside the statuses it accepts.
-/

namespace Logion

open Fallible

/-- `ItemStatus`. -/
inductive ItemStatus
  | draft
  | reviewPending
  | reviewAccepted
  | reviewRejected
  | published
  | acknowledged
  deriving DecidableEq, Repr

/-- The text stored for a status and printed in messages. -/
def ItemStatus.text : ItemStatus → String
  | draft => "DRAFT"
  | reviewPending => "REVIEW_PENDING"
  | reviewAccepted => "REVIEW_ACCEPTED"
  | reviewRejected => "REVIEW_REJECTED"
  | published => "PUBLISHED"
  | acknowledged => "ACKNOWLEDGED"

/-- `SubmissionType`; the "user" is the requester or a verified issuer. -/
inductive SubmissionType
  | manualByUser
  | manualByOwner
  | directByRequester
  deriving DecidableEq, Repr

structure EmbeddableLifecycle where
  status : ItemStatus
  rejectReason : Option String := none
  reviewedOn : Option Moment := none
  addedOn : Option Moment := none
  acknowledgedByOwnerOn : Option Moment := none
  acknowledgedByOwner : Bool := false
  acknowledgedByVerifiedIssuerOn : Option Moment := none
  acknowledgedByVerifiedIssuer : Bool := false
  deriving DecidableEq, Repr

namespace EmbeddableLifecycle

def requestReview (c : EmbeddableLifecycle) : Except Err EmbeddableLifecycle :=
  if c.status ≠ .draft then
    .error (.badRequest ("Cannot request a review on item with status " ++ c.status.text))
  else .ok { c with status := .reviewPending }

/-- `accept()`; `now` is the time of the call. -/
def accept (c : EmbeddableLifecycle) (now : Moment) : Except Err EmbeddableLifecycle :=
  if c.status ≠ .reviewPending then
    .error (.badRequest ("Cannot accept an item with status " ++ c.status.text))
  else .ok { c with status := .reviewAccepted, reviewedOn := some now }

def reject (c : EmbeddableLifecycle) (reason : String) (now : Moment) :
    Except Err EmbeddableLifecycle :=
  if c.status ≠ .reviewPending then
    .error (.badRequest ("Cannot reject an item with status " ++ c.status.text))
  else .ok { c with status := .reviewRejected, rejectReason := some reason, reviewedOn := some now }

/-- The status an item gets when it is published. -/
def acknowledgedOrPublished (isAcknowledged : Bool) : ItemStatus :=
  if isAcknowledged then .acknowledged else .published

/-- The date is written whether or not one was given. -/
def prePublishOrAcknowledge (c : EmbeddableLifecycle) (isAcknowledged : Bool)
    (addedOn : Option Moment) : Except Err EmbeddableLifecycle :=
  if c.status ≠ .reviewAccepted ∧ c.status ≠ acknowledgedOrPublished isAcknowledged then
    .error (.badRequest ("Cannot pre-publish/-acknowledge item with status " ++ c.status.text))
  else .ok { c with status := acknowledgedOrPublished isAcknowledged, addedOn := addedOn }

def cancelPrePublishOrAcknowledge (c : EmbeddableLifecycle) (isAcknowledged : Bool) :
    Except Err EmbeddableLifecycle :=
  if c.status ≠ acknowledgedOrPublished isAcknowledged then
    .error (.badRequest
      ("Cannot cancel pre-publish/-acknowledge of item with status " ++ c.status.text))
  else if c.addedOn.isSome then .error (.badRequest "Cannot cancel, published/acknowledged")
  else .ok { c with status := .reviewAccepted }

/-- The acknowledgement of one party: its flag and its date, again written in any case. -/
def setAcknowledged (c : EmbeddableLifecycle) (byVerifiedIssuer : Bool)
    (acknowledgedOn : Option Moment) : EmbeddableLifecycle :=
  if byVerifiedIssuer then
    { c with
      acknowledgedByVerifiedIssuer := true, acknowledgedByVerifiedIssuerOn := acknowledgedOn }
  else { c with acknowledgedByOwner := true, acknowledgedByOwnerOn := acknowledgedOn }

/-- Whether everyone expected has acknowledged. -/
def fullyAcknowledged (c : EmbeddableLifecycle) (expectVerifiedIssuer : Bool) : Bool :=
  (c.acknowledgedByOwner && c.acknowledgedByVerifiedIssuer) ||
    (!expectVerifiedIssuer && c.acknowledgedByOwner)

def preAcknowledge (c : EmbeddableLifecycle) (expectVerifiedIssuer byVerifiedIssuer : Bool)
    (acknowledgedOn : Option Moment) : Except Err EmbeddableLifecycle :=
  if c.status ≠ .published ∧ c.status ≠ .acknowledged then
    .error (.badRequest ("Cannot confirm-acknowledge item with status " ++ c.status.text))
  else
    let c' := c.setAcknowledged byVerifiedIssuer acknowledgedOn
    .ok (if c'.fullyAcknowledged expectVerifiedIssuer then { c' with status := .acknowledged }
      else c')

def cancelPreAcknowledge (c : EmbeddableLifecycle) (byVerifiedIssuer : Bool) :
    Except Err EmbeddableLifecycle :=
  if c.status ≠ .acknowledged then
    .error (.badRequest ("Cannot confirm-acknowledge item with status " ++ c.status.text))
  else if c.acknowledgedByVerifiedIssuerOn.isSome ∨ c.acknowledgedByOwnerOn.isSome then
    .error (.badRequest "Cannot cancel, acknowledged")
  else if byVerifiedIssuer then
    .ok { c with acknowledgedByVerifiedIssuer := false, status := .published }
  else .ok { c with acknowledgedByOwner := false, status := .published }

def isAcknowledged (c : EmbeddableLifecycle) : Bool := c.status = .acknowledged

def isAcknowledgedOnChain (c : EmbeddableLifecycle) (expectVerifiedIssuer : Bool) : Bool :=
  c.isAcknowledged &&
    ((expectVerifiedIssuer && c.acknowledgedByOwnerOn.isSome &&
        c.acknowledgedByVerifiedIssuerOn.isSome) ||
      (!expectVerifiedIssuer && c.acknowledgedByOwnerOn.isSome))

def isPublished (c : EmbeddableLifecycle) : Bool := c.status = .published

def isPublishedOnChain (c : EmbeddableLifecycle) : Bool := c.isPublished && c.addedOn.isSome

/-- `setAddedOn`: never throws; a date already set is only logged. -/
def setAddedOn (c : EmbeddableLifecycle) (addedOn : Moment) : EmbeddableLifecycle :=
  { c with
    addedOn := some addedOn
    status := if c.status = .reviewAccepted then .published else c.status }

/-- `fromSubmissionType`; `now` is the time of the call. -/
def fromSubmissionType (submissionType : SubmissionType) (now : Moment) : EmbeddableLifecycle where
  status :=
    match submissionType with
    | .directByRequester => .published
    | .manualByOwner => .reviewAccepted
    | .manualByUser => .draft
  acknowledgedByOwner := submissionType = .manualByOwner
  acknowledgedByOwnerOn := if submissionType = .manualByOwner then some now else none

end EmbeddableLifecycle

/-! ## The transitions as one step function -/

/-- A transition of a lifecycle; `setStatus` is the `status` setter of an item, used by
`updateAllDraftItemsStatus`. -/
inductive LifecycleOp
  | requestReview
  | accept (now : Moment)
  | reject (reason : String) (now : Moment)
  | prePublishOrAcknowledge (isAcknowledged : Bool) (addedOn : Option Moment)
  | cancelPrePublishOrAcknowledge (isAcknowledged : Bool)
  | preAcknowledge (expectVerifiedIssuer byVerifiedIssuer : Bool) (acknowledgedOn : Option Moment)
  | cancelPreAcknowledge (byVerifiedIssuer : Bool)
  | setAddedOn (addedOn : Moment)
  | setStatus (status : ItemStatus)
  deriving DecidableEq, Repr

namespace EmbeddableLifecycle

def step (c : EmbeddableLifecycle) : LifecycleOp → Except Err EmbeddableLifecycle
  | .requestReview => c.requestReview
  | .accept now => c.accept now
  | .reject reason now => c.reject reason now
  | .prePublishOrAcknowledge isAck addedOn => c.prePublishOrAcknowledge isAck addedOn
  | .cancelPrePublishOrAcknowledge isAck => c.cancelPrePublishOrAcknowledge isAck
  | .preAcknowledge expectVI byVI on => c.preAcknowledge expectVI byVI on
  | .cancelPreAcknowledge byVI => c.cancelPreAcknowledge byVI
  | .setAddedOn addedOn => .ok (c.setAddedOn addedOn)
  | .setStatus status => .ok { c with status := status }

/-- Several transitions, all of which must succeed. -/
def steps (c : EmbeddableLifecycle) (ops : List LifecycleOp) : Except Err EmbeddableLifecycle :=
  ops.foldlM step c

/-! ### What each transition returns -/

variable {c c' : EmbeddableLifecycle}

theorem requestReview_ok (h : c.requestReview = .ok c') :
    c.status = .draft ∧ c' = { c with status := .reviewPending } := by
  unfold requestReview at h
  split_ifs at h with h1
  cases h
  exact ⟨not_not.mp h1, rfl⟩

theorem accept_ok {now : Moment} (h : c.accept now = .ok c') :
    c.status = .reviewPending ∧
      c' = { c with status := .reviewAccepted, reviewedOn := some now } := by
  unfold accept at h
  split_ifs at h with h1
  cases h
  exact ⟨not_not.mp h1, rfl⟩

theorem reject_ok {reason : String} {now : Moment} (h : c.reject reason now = .ok c') :
    c.status = .reviewPending ∧ c' =
      { c with status := .reviewRejected, rejectReason := some reason, reviewedOn := some now } := by
  unfold reject at h
  split_ifs at h with h1
  cases h
  exact ⟨not_not.mp h1, rfl⟩

theorem prePublishOrAcknowledge_ok {isAck : Bool} {addedOn : Option Moment}
    (h : c.prePublishOrAcknowledge isAck addedOn = .ok c') :
    (c.status = .reviewAccepted ∨ c.status = acknowledgedOrPublished isAck) ∧
      c' = { c with status := acknowledgedOrPublished isAck, addedOn := addedOn } := by
  unfold prePublishOrAcknowledge at h
  split_ifs at h with h1
  cases h
  exact ⟨by tauto, rfl⟩

theorem cancelPrePublishOrAcknowledge_ok {isAck : Bool}
    (h : c.cancelPrePublishOrAcknowledge isAck = .ok c') :
    c.status = acknowledgedOrPublished isAck ∧ c.addedOn = none ∧
      c' = { c with status := .reviewAccepted } := by
  unfold cancelPrePublishOrAcknowledge at h
  split_ifs at h with h1 h2
  cases h
  exact ⟨not_not.mp h1, by simpa using h2, rfl⟩

theorem preAcknowledge_ok {expectVI byVI : Bool} {on : Option Moment}
    (h : c.preAcknowledge expectVI byVI on = .ok c') :
    (c.status = .published ∨ c.status = .acknowledged) ∧
      c' = { c.setAcknowledged byVI on with
        status := if (c.setAcknowledged byVI on).fullyAcknowledged expectVI then .acknowledged
          else c.status } := by
  unfold preAcknowledge at h
  split_ifs at h with h1
  cases h
  refine ⟨by tauto, ?_⟩
  dsimp only
  split_ifs with h2
  · rfl
  · cases byVI <;> rfl

theorem cancelPreAcknowledge_ok {byVI : Bool} (h : c.cancelPreAcknowledge byVI = .ok c') :
    c.status = .acknowledged ∧ c.acknowledgedByOwnerOn = none ∧
      c.acknowledgedByVerifiedIssuerOn = none ∧
      c' = { c with
        status := .published
        acknowledgedByOwner := c.acknowledgedByOwner && byVI
        acknowledgedByVerifiedIssuer := c.acknowledgedByVerifiedIssuer && !byVI } := by
  unfold cancelPreAcknowledge at h
  split_ifs at h with h1 h2 h3
  all_goals
    cases h
    have h2' := not_or.mp h2
    refine ⟨not_not.mp h1, by simpa using h2'.2, by simpa using h2'.1, ?_⟩
  · simp [h3]
  · simp [Bool.eq_false_iff.mpr h3]

/-! ### When each transition is accepted -/

theorem prePublishOrAcknowledge_returns {isAck : Bool} {addedOn : Option Moment} :
    Returns (c.prePublishOrAcknowledge isAck addedOn) ↔
      c.status = .reviewAccepted ∨ c.status = acknowledgedOrPublished isAck := by
  unfold prePublishOrAcknowledge
  split_ifs with h1
  · exact iff_of_false (not_returns_error _) (by tauto)
  · exact iff_of_true (returns_ok _) (by tauto)

theorem cancelPrePublishOrAcknowledge_returns {isAck : Bool} :
    Returns (c.cancelPrePublishOrAcknowledge isAck) ↔
      c.status = acknowledgedOrPublished isAck ∧ c.addedOn = none := by
  unfold cancelPrePublishOrAcknowledge
  split_ifs with h1 h2
  · exact iff_of_false (not_returns_error _) fun h => h1 h.1
  · exact iff_of_false (not_returns_error _) fun h => by simp [h.2] at h2
  · exact iff_of_true (returns_ok _) ⟨not_not.mp h1, by simpa using h2⟩

theorem preAcknowledge_returns {expectVI byVI : Bool} {on : Option Moment} :
    Returns (c.preAcknowledge expectVI byVI on) ↔
      c.status = .published ∨ c.status = .acknowledged := by
  unfold preAcknowledge
  split_ifs with h1
  · exact iff_of_false (not_returns_error _) (by tauto)
  · exact iff_of_true (returns_ok _) (by tauto)

theorem cancelPreAcknowledge_returns {byVI : Bool} :
    Returns (c.cancelPreAcknowledge byVI) ↔ c.status = .acknowledged ∧
      c.acknowledgedByOwnerOn = none ∧ c.acknowledgedByVerifiedIssuerOn = none := by
  unfold cancelPreAcknowledge
  split_ifs with h1 h2 h3
  · exact iff_of_false (not_returns_error _) fun h => h1 h.1
  · exact iff_of_false (not_returns_error _) fun h => by simp [h.2] at h2
  all_goals exact iff_of_true (returns_ok _) (by simp_all)

end EmbeddableLifecycle

end Logion
