import Logion.Loc.Effects

/-!
# Status — the status automaton of a LOC and its on-chain facts

The HTTP side (`preOpen`, `cancelPreOpen`, ...) and the chain side (`open`, `close`) write the same
status field.

* `step_status`: what each operation does to the status, and from which statuses it is accepted.
* `cancelPreOpen_returns`, `cancelPreClose_returns`: exactly when the two cancels are accepted;
  neither reads `locCreatedOn` or `closedOn`.
* `irreversible_iff`: the runs in which an opening and a closing made on chain are never undone.
-/

namespace Logion

open Keyed Fallible

/-! ### The automaton -/

/-- The statuses from which an operation can be accepted. -/
def LocOp.accepts : LocOp → LocRequestStatus → Prop
  | .submit, s => s = .draft
  | .reject .., s => s = .reviewPending
  | .rework, s => s = .reviewRejected ∨ s = .reviewAccepted
  | .accept _, s => s = .reviewPending
  | .preOpen _, s => s = .reviewAccepted ∨ s = .opened
  | .cancelPreOpen _, s => s = .opened
  | .cancelPreClose _, s => s = .closed
  | .deleteDraftRejectedOrAccepted, s => s = .draft ∨ s = .reviewRejected ∨ s = .reviewAccepted
  | .deleteOpen, s => s = .opened
  | _, _ => True

/-- The status after an operation that returns. -/
def LocOp.statusAfter : LocOp → LocRequestStatus → LocRequestStatus
  | .submit, _ => .reviewPending
  | .reject .., _ => .reviewRejected
  | .rework, _ => .draft
  | .accept _, _ => .reviewAccepted
  | .preOpen _, _ => .opened
  | .cancelPreOpen _, _ => .reviewAccepted
  | .openLoc .., s => if s = .reviewAccepted ∨ s = .opened then .opened else s
  | .preClose _, s => if s = .opened then .closed else s
  | .cancelPreClose _, _ => .opened
  | .close _, _ => .closed
  | _, s => s

namespace LocRequest

variable {l l' : LocRequest} {op : LocOp}

theorem mutateLifecycle_status {k : ItemKind} {key : String}
    {mutate : Item k → Except Err EmbeddableLifecycle}
    (h : l.mutateLifecycle k key mutate = .ok l') : l'.status = l.status := by
  obtain ⟨_, _, -, -, hone⟩ := mutateLifecycle_ok h
  exact status_of_withoutItems hone.rest

theorem mutateItem_status {k : ItemKind} {key : String} {mutate : Item k → Except Err (Item k)}
    (h : l.mutateItem k key mutate = .ok l') : l'.status = l.status := by
  obtain ⟨_, -, h⟩ := bind_eq_ok.mp h
  obtain ⟨_, -, h⟩ := bind_eq_ok.mp h
  cases h
  exact status_of_withoutItems (withoutItems_setItems _)

/-- **The status automaton.** -/
theorem step_status [Hashing] (h : l.step op = .ok l') :
    op.accepts l.status ∧ l'.status = op.statusAfter l.status := by
  cases op with
  | submit =>
    obtain ⟨hst, hb⟩ := submit_ok h
    exact ⟨hst, status_of_withoutItems hb.rest⟩
  | reject reason rejectedOn =>
    obtain ⟨hst, rfl⟩ := reject_ok h
    exact ⟨hst, rfl⟩
  | rework =>
    obtain ⟨hst, rfl⟩ := rework_ok h
    exact ⟨hst, rfl⟩
  | accept decisionOn =>
    obtain ⟨hst, rfl⟩ := accept_ok h
    exact ⟨hst, rfl⟩
  | preOpen autoPublish =>
    obtain ⟨hst, l₁, -, rfl⟩ := preOpen_ok h
    exact ⟨hst, rfl⟩
  | cancelPreOpen autoPublish =>
    obtain ⟨hst, l₁, -, rfl⟩ := cancelPreOpen_ok h
    exact ⟨hst, rfl⟩
  | openLoc createdOn items =>
    rcases openLoc_ok h with ⟨hst, h⟩ | ⟨hst, rfl⟩
    · exact ⟨trivial, (status_of_withoutItems (prePublishOrAcknowledgeItems_rest h)).trans
        (if_pos hst).symm⟩
    · exact ⟨trivial, (if_neg hst).symm⟩
  | preClose autoAck =>
    obtain ⟨l₁, hb, rfl⟩ := preClose_ok h
    refine ⟨trivial, ?_⟩
    simp only [LocOp.statusAfter]
    split_ifs
    · rfl
    · exact status_of_withoutItems hb.rest
  | cancelPreClose autoAck =>
    obtain ⟨hst, l₁, -, rfl⟩ := cancelPreClose_ok h
    exact ⟨hst, rfl⟩
  | close timestamp => cases h; exact ⟨trivial, rfl⟩
  | addFile | addMetadataItem | addLink =>
    obtain ⟨-, rfl⟩ := addItem_ok h
    exact ⟨trivial, status_of_withoutItems (withoutItems_setItems _)⟩
  | removeItem k remover key =>
    obtain ⟨_, -, rfl⟩ := removeItem_ok h
    exact ⟨trivial, status_of_withoutItems
      ((withoutItems_setItemsToDelete _).trans (withoutItems_setItems _))⟩
  | requestItemReview k key => exact ⟨trivial, mutateLifecycle_status h⟩
  | acceptItem k key now => exact ⟨trivial, mutateLifecycle_status (guard_ok h)⟩
  | rejectItem k key reason now => exact ⟨trivial, mutateLifecycle_status (guard_ok h)⟩
  | prePublishOrAcknowledgeItem | cancelPrePublishOrAcknowledgeItem | preAcknowledgeItem
  | cancelPreAcknowledgeItem =>
    exact ⟨trivial, mutateLifecycle_status (roleCheck_ok h).2⟩
  | setItemAddedOn k key addedOn =>
    cases h
    exact ⟨trivial, status_of_withoutItems (setItemAddedOn_oneItem addedOn).rest⟩
  | setFileFees => exact ⟨trivial, mutateItem_status h⟩
  | updateFileContent => exact ⟨trivial, mutateItem_status h⟩
  | setFileRestrictedDelivery hash restricted =>
    change l.setFileRestrictedDelivery hash restricted = .ok l' at h
    unfold setFileRestrictedDelivery at h
    split_ifs at h
    exact ⟨trivial, mutateItem_status h⟩
  | setMetadataItemFee => cases h; exact ⟨trivial, rfl⟩
  | setLinkFee => cases h; exact ⟨trivial, rfl⟩
  | deleteDraftRejectedOrAccepted =>
    refine ⟨?_, (step_sameCore rfl h).status⟩
    obtain ⟨_, h1, -⟩ := bind_eq_ok.mp h
    unfold deleteDraftRejectedOrAccepted at h1
    split_ifs at h1 with h2
    simp only [LocOp.accepts]
    tauto
  | deleteOpen =>
    refine ⟨?_, (step_sameCore rfl h).status⟩
    obtain ⟨_, h1, -⟩ := bind_eq_ok.mp h
    unfold deleteOpen at h1
    split_ifs at h1 with h2
    exact not_not.mp h2
  | preVoid | cancelPreVoid | voidLoc | initIdenfyVerification | updateIdenfyVerification
  | addSecret | removeSecret => exact ⟨trivial, (step_sameCore rfl h).status⟩

/-! ### When the two cancels are accepted -/

/-- `cancelPublishAllAcceptedItems` throws on a published item that it expects acknowledged. -/
theorem cancelPreOpen_returns {autoPublish : Bool} :
    Returns (l.cancelPreOpen autoPublish) ↔ l.status = .opened ∧
      (autoPublish → ∀ k, ∀ item ∈ l.items k, item.status = .published →
        item.lifecycle.addedOn = none → l.isPublishAcknowledge item.submitter = false) := by
  unfold cancelPreOpen
  by_cases hst : l.status = .opened
  · rw [if_neg (not_not.mpr hst)]
    refine Iff.trans returns_map ?_
    rw [and_iff_right hst]
    cases autoPublish with
    | false => simp
    | true =>
      rw [if_pos rfl, cancelPublishAllAcceptedItems, mutateEveryItem_returns]
      simp only [Bool.and_eq_true, decide_eq_true_eq, Option.isNone_iff_eq_none, forall_const]
      refine forall_congr' fun k => forall₂_congr fun item _ => ?_
      rw [EmbeddableLifecycle.cancelPrePublishOrAcknowledge_returns, and_imp]
      refine imp_congr_right fun hpub => imp_congr_right fun hadded => ?_
      rw [show item.lifecycle.status = .published from hpub, and_iff_left hadded]
      cases l.isPublishAcknowledge item.submitter <;> simp [EmbeddableLifecycle.acknowledgedOrPublished]
  · rw [if_pos hst]
    simp [hst]

/-- `cancelPreAckItems` throws on an item acknowledged on chain by its verified issuer alone. -/
theorem cancelPreClose_returns {autoAck : Bool} :
    Returns (l.cancelPreClose autoAck) ↔ l.status = .closed ∧
      (autoAck → ∀ k, ∀ item ∈ l.items k, item.status = .acknowledged →
        item.lifecycle.acknowledgedByOwnerOn = none →
        item.lifecycle.acknowledgedByVerifiedIssuerOn = none) := by
  unfold cancelPreClose
  by_cases hst : l.status = .closed
  · rw [if_neg (not_not.mpr hst)]
    refine Iff.trans returns_map ?_
    rw [and_iff_right hst]
    cases autoAck with
    | false => simp
    | true =>
      rw [if_pos rfl, cancelPreAckItems, mutateEveryItem_returns]
      simp only [Bool.and_eq_true, decide_eq_true_eq, Option.isNone_iff_eq_none, forall_const]
      refine forall_congr' fun k => forall₂_congr fun item _ => ?_
      rw [EmbeddableLifecycle.cancelPreAcknowledge_returns, and_imp]
      refine imp_congr_right fun hack => imp_congr_right fun howner => ?_
      rw [and_iff_right (show item.lifecycle.status = .acknowledged from hack),
        and_iff_right howner]
  · rw [if_pos hst]
    simp [hst]

/-! ### Facts made on chain -/

/-- The statuses of a LOC that is open on chain. -/
def OpenOrClosed (l : LocRequest) : Prop := l.status = .opened ∨ l.status = .closed

end LocRequest

def LocOp.isDeletion : LocOp → Bool
  | .deleteDraftRejectedOrAccepted | .deleteOpen => true
  | _ => false

namespace LocRequest

variable [Hashing]

/-- The chain-side `open` takes effect on a LOC that was accepted or open. -/
def OpensOnChain (l : LocRequest) : LocOp → Prop
  | .openLoc createdOn items =>
    (l.status = .reviewAccepted ∨ l.status = .opened) ∧ Returns (l.openLoc createdOn items)
  | _ => False

/-- The chain-side `close`, which never throws. -/
def ClosesOnChain : LocOp → Prop
  | .close _ => True
  | _ => False

/-- Every state of the run is open or closed, and no deletion guard accepts. -/
def StaysOpened (l : LocRequest) (ops : List LocOp) : Prop :=
  Always step OpenOrClosed l ops ∧
    Along step (fun l op => op.isDeletion → ¬ Returns (l.step op)) l ops

/-- Every state of the run is closed. -/
def StaysClosed (l : LocRequest) (ops : List LocOp) : Prop :=
  Always step (fun l => l.status = .closed) l ops

/-- In the run, what the chain side opened stays open or closed and is never deleted, and what it
closed stays closed. -/
def Irreversible (l : LocRequest) (ops : List LocOp) : Prop :=
  ∀ pre op post, ops = pre ++ op :: post →
    (OpensOnChain (run step l pre) op → StaysOpened (attempt step (run step l pre) op) post) ∧
      (ClosesOnChain op → StaysClosed (attempt step (run step l pre) op) post)

/-- The HTTP operations that undo an opening: they look at the status alone. -/
def CancelsOpening (l : LocRequest) : LocOp → Prop
  | .cancelPreOpen autoPublish => l.status = .opened ∧
      (autoPublish → ∀ k, ∀ item ∈ l.items k, item.status = .published →
        item.lifecycle.addedOn = none → l.isPublishAcknowledge item.submitter = false)
  | .deleteOpen => l.status = .opened
  | _ => False

/-- The HTTP operation that undoes a closing. -/
def CancelsClosing (l : LocRequest) : LocOp → Prop
  | .cancelPreClose autoAck => l.status = .closed ∧
      (autoAck → ∀ k, ∀ item ∈ l.items k, item.status = .acknowledged →
        item.lifecycle.acknowledgedByOwnerOn = none →
        item.lifecycle.acknowledgedByVerifiedIssuerOn = none)
  | _ => False

/-- No opening or closing made on chain is undone by an HTTP operation. -/
def NothingCancelled (l : LocRequest) (ops : List LocOp) : Prop :=
  ∀ pre op post, ops = pre ++ op :: post →
    (OpensOnChain (run step l pre) op →
        Along step (fun l op => ¬ CancelsOpening l op) (attempt step (run step l pre) op) post) ∧
      (ClosesOnChain op →
        Along step (fun l op => ¬ CancelsClosing l op) (attempt step (run step l pre) op) post)

theorem deleteOpen_returns {l : LocRequest} : Returns (l.step .deleteOpen) ↔ l.status = .opened := by
  constructor
  · rintro ⟨l', h⟩
    exact (step_status h).1
  · intro h
    refine ⟨l, ?_⟩
    simp only [step, deleteOpen, h]
    rfl

/-- An accepted operation that takes an open or closed LOC out of these statuses, or deletes it. -/
theorem cancelsOpening_of_step {l l' : LocRequest} {op : LocOp} (hl : OpenOrClosed l)
    (h : l.step op = .ok l') (hbad : ¬ OpenOrClosed l' ∨ op.isDeletion) : CancelsOpening l op := by
  obtain ⟨hacc, hst⟩ := step_status h
  rw [OpenOrClosed, hst] at hbad
  cases op with
  | cancelPreOpen autoPublish => exact cancelPreOpen_returns.mp ⟨l', h⟩
  | deleteOpen => exact hacc
  | submit | reject | rework | accept | deleteDraftRejectedOrAccepted =>
    rcases hl with hl | hl <;> rw [hl] at hacc <;> simp [LocOp.accepts] at hacc
  | preClose | openLoc => rcases hl with hl | hl <;> simp [LocOp.statusAfter, LocOp.isDeletion, hl] at hbad
  | preOpen | cancelPreClose | close => simp [LocOp.statusAfter, LocOp.isDeletion] at hbad
  | _ => exact absurd hl (by simpa [OpenOrClosed, LocOp.statusAfter, LocOp.isDeletion] using hbad)

/-- One operation on a LOC that is open or closed. -/
theorem not_cancelsOpening_iff {l : LocRequest} {op : LocOp} (hl : OpenOrClosed l) :
    ¬ CancelsOpening l op ↔
      OpenOrClosed (attempt step l op) ∧ (op.isDeletion → ¬ Returns (l.step op)) := by
  constructor
  · intro hnot
    rcases attempt_cases step l op with ⟨e, herr, heq⟩ | hok
    · rw [heq, herr]
      exact ⟨hl, fun _ => not_returns_error e⟩
    · refine ⟨by_contra fun hbad => hnot (cancelsOpening_of_step hl hok (.inl hbad)), ?_⟩
      exact fun hdel => absurd (cancelsOpening_of_step hl hok (.inr hdel)) hnot
  · rintro ⟨hstay, hdel⟩ hcancel
    cases op with
    | cancelPreOpen autoPublish =>
      obtain ⟨l', h⟩ := cancelPreOpen_returns.mpr hcancel
      have hstep : l.step (.cancelPreOpen autoPublish) = .ok l' := h
      rw [attempt_of_ok hstep, OpenOrClosed, (step_status hstep).2] at hstay
      simp [LocOp.statusAfter] at hstay
    | deleteOpen => exact hdel rfl (deleteOpen_returns.mpr hcancel)
    | _ => exact hcancel

/-- One operation on a closed LOC. -/
theorem not_cancelsClosing_iff {l : LocRequest} {op : LocOp} (hl : l.status = .closed) :
    ¬ CancelsClosing l op ↔ (attempt step l op).status = .closed := by
  constructor
  · intro hnot
    rcases attempt_cases step l op with ⟨e, -, heq⟩ | hok
    · rw [heq, hl]
    · obtain ⟨hacc, hst⟩ := step_status hok
      rw [hst, hl]
      rw [hl] at hacc
      cases op with
      | cancelPreClose autoAck => exact absurd (cancelPreClose_returns.mp ⟨_, hok⟩) hnot
      | submit | reject | rework | accept | preOpen | cancelPreOpen => simp [LocOp.accepts] at hacc
      | _ => rfl
  · intro hstay hcancel
    cases op with
    | cancelPreClose autoAck =>
      obtain ⟨l', h⟩ := cancelPreClose_returns.mpr hcancel
      have hstep : l.step (.cancelPreClose autoAck) = .ok l' := h
      rw [attempt_of_ok hstep, (step_status hstep).2] at hstay
      cases hstay
    | _ => exact hcancel

theorem attempt_openLoc_status {l : LocRequest} {op : LocOp} (h : OpensOnChain l op) :
    OpenOrClosed (attempt step l op) := by
  cases op with
  | openLoc createdOn items =>
    obtain ⟨hst, l', h⟩ := h
    have hstep : l.step (.openLoc createdOn items) = .ok l' := h
    rw [attempt_of_ok hstep]
    exact .inl ((step_status hstep).2.trans (if_pos hst))
  | _ => cases h

theorem attempt_close_status {l : LocRequest} {op : LocOp} (h : ClosesOnChain op) :
    (attempt step l op).status = .closed := by
  cases op with
  | close timestamp => rfl
  | _ => cases h

/-- **On-chain facts of a LOC.**  A run keeps every opening and closing made on chain exactly when
no HTTP operation of it cancels one. -/
theorem irreversible_iff (l : LocRequest) (ops : List LocOp) :
    Irreversible l ops ↔ NothingCancelled l ops := by
  unfold Irreversible NothingCancelled
  refine forall_congr' fun pre => forall₂_congr fun op post => imp_congr_right fun _ => ?_
  refine and_congr (imp_congr_right fun hopen => ?_) (imp_congr_right fun hclose => ?_)
  · exact always_along_iff (fun _ _ => not_cancelsOpening_iff) (attempt_openLoc_status hopen)
  · exact always_iff_of (Q := fun _ => True) (fun _ _ hl _ => not_cancelsClosing_iff hl)
      (fun _ _ => trivial) (attempt_close_status hclose)

/-- An accepted LOC without items. -/
def acceptedLoc : LocRequest where
  id := "15ed922d-5960-4147-a73f-97d362cb7c46"
  status := .reviewAccepted
  requester := some (.polkadot "requester")
  ownerAddress := "owner"
  locType := .transaction

omit [Hashing] in
/-- The client opens the LOC, the chain confirms, then the client cancels: back to accepted. -/
theorem cancelPreOpen_undoes_open :
    ¬ @Irreversible ⟨fun name => name⟩ acceptedLoc
      [.preOpen false, .openLoc 5 emptyItems, .cancelPreOpen false] := by
  intro h
  have hopen := (h [.preOpen false] (.openLoc 5 emptyItems) [.cancelPreOpen false] rfl).1
    ⟨.inr rfl, returns_ok _⟩
  rcases hopen.1 [.cancelPreOpen false] (List.prefix_refl _) with hst | hst <;> cases hst

end LocRequest

end Logion
