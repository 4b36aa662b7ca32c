import Logion.Lib.RowUpdates
import Logion.Model.LocRequest
import Logion.Store.LocTables
import Logion.Sync.Database

/-!
# AccountRecoveries — the status of an account recovery (`account_recovery.model.ts`)

A request is accepted or rejected by the legal officer, cancelled by the requester, and activated by the
synchronization of a `createRecovery` extrinsic, which selects the accepted requests first and updates
each of them later.  Every update is a transaction of its own.

* `accept`, `reject`, `cancel`, `setActivated`: the changes; the last two do not check all of the status.
* `Transition`, `transition_of_change`: what a change of a request in a proper status does.
* `TrueHistory`: the status and the decision, in terms of what has been committed.
* `WasSelected`, `knowledge`: a request that was selected by the synchronization was accepted, and can
  only have been activated or cancelled since then.
* `trueHistory_run`: it holds along the runs in which a request is cancelled in time, is not cancelled
  between its selection and its activation, and is saved as it was loaded.
-/

namespace Logion

open Fallible ReadCommitted RowUpdates

/-! ### Requests -/

/-- `AccountRecoveryRequestAggregateRoot`, a row of `account_recovery_request`; the columns of
`LegalOfficerDecision` are its own. -/
structure AccountRecoveryRequest where
  id : UUID
  addressToRecover : Option String
  createdOn : Option Moment
  requesterAddress : String
  requesterIdentityLocId : UUID
  status : AccountRecoveryStatus
  decisionOn : Option Moment
  rejectReason : Option String
  legalOfficerAddress : String
  otherLegalOfficerAddress : String
  deriving DecidableEq

/-- `NewAccountRecoveryRequestParameters`. -/
structure NewAccountRecoveryRequestParameters where
  id : UUID
  requesterAddress : String
  requesterIdentityLoc : UUID
  legalOfficerAddress : String
  otherLegalOfficerAddress : String
  createdOn : Moment
  addressToRecover : String
  deriving DecidableEq

/-- `newAccountRecoveryRequest`, once the identity LOC was found to be valid. -/
def newAccountRecoveryRequest (params : NewAccountRecoveryRequestParameters) :
    AccountRecoveryRequest where
  id := params.id
  addressToRecover := some params.addressToRecover
  createdOn := some params.createdOn
  requesterAddress := params.requesterAddress
  requesterIdentityLocId := params.requesterIdentityLoc
  status := .pending
  decisionOn := none
  rejectReason := none
  legalOfficerAddress := params.legalOfficerAddress
  otherLegalOfficerAddress := params.otherLegalOfficerAddress

namespace AccountRecoveryRequest

def getLegalOfficer (r : AccountRecoveryRequest) : AccountId := .polkadot r.legalOfficerAddress

def getRequester (r : AccountRecoveryRequest) : AccountId := .polkadot r.requesterAddress

def reject (r : AccountRecoveryRequest) (reason : String) (decisionOn : Moment) :
    Except Err AccountRecoveryRequest :=
  if r.status ≠ .pending then throw (.badRequest "Request is not pending")
  else return { r with
    status := .rejected, decisionOn := some decisionOn, rejectReason := some reason }

def accept (r : AccountRecoveryRequest) (decisionOn : Moment) : Except Err AccountRecoveryRequest :=
  if r.status ≠ .pending then throw (.badRequest "Request is not pending")
  else return { r with status := .accepted, decisionOn := some decisionOn }

/-- It only warns when the request is not accepted. -/
def setActivated (r : AccountRecoveryRequest) : AccountRecoveryRequest := { r with status := .activated }

def cancel (r : AccountRecoveryRequest) : Except Err AccountRecoveryRequest :=
  if r.status = .activated then throw (.badRequest "Cannot cancel when already activated")
  else if r.status = .pending then return { r with status := .cancelled }
  else if r.status = .rejected then return { r with status := .rejectedCancelled }
  else return { r with status := .acceptedCancelled }

/-- The row after the UPDATE of a save; the primary key is never written. -/
def write (entity reread current : AccountRecoveryRequest) : AccountRecoveryRequest where
  id := current.id
  addressToRecover :=
    writeColumn entity.addressToRecover reread.addressToRecover current.addressToRecover
  createdOn := writeColumn entity.createdOn reread.createdOn current.createdOn
  requesterAddress :=
    writeColumn entity.requesterAddress reread.requesterAddress current.requesterAddress
  requesterIdentityLocId := writeColumn entity.requesterIdentityLocId reread.requesterIdentityLocId
    current.requesterIdentityLocId
  status := writeColumn entity.status reread.status current.status
  decisionOn := writeColumn entity.decisionOn reread.decisionOn current.decisionOn
  rejectReason := writeColumn entity.rejectReason reread.rejectReason current.rejectReason
  legalOfficerAddress :=
    writeColumn entity.legalOfficerAddress reread.legalOfficerAddress current.legalOfficerAddress
  otherLegalOfficerAddress := writeColumn entity.otherLegalOfficerAddress
    reread.otherLegalOfficerAddress current.otherLegalOfficerAddress

end AccountRecoveryRequest

namespace AccountRecoveries

/-! ### Calls -/

/-- A call of `acceptRequest`, `rejectRequest` or `cancel`, or the synchronization of a `createRecovery`
extrinsic with one of its legal officers. -/
inductive Call
  | accept (authenticatedUser : AccountId)
  | reject (authenticatedUser : AccountId) (rejectReason : String)
  | cancel (authenticatedUser : AccountId)
  | createRecovery (signer legalOfficer : AccountId)
  deriving DecidableEq

/-- The accepted requests of the signer with the legal officer. -/
def Call.selects : Call → Option (AccountRecoveryRequest → Bool)
  | .createRecovery signer legalOfficer => some fun r =>
    r.getRequester = signer && r.getLegalOfficer = legalOfficer && r.status = .accepted
  | _ => none

/-- `authenticatedUser.require(...)`. -/
def require (p : Prop) [Decidable p] : Except (Option Err) Unit := if p then return () else throw none

/-- The mutator that the call hands to `update`. -/
def Call.mutate (now : Moment) (r : AccountRecoveryRequest) :
    Call → Except (Option Err) AccountRecoveryRequest
  | .accept user => do
    require (user = r.getLegalOfficer)
    (r.accept now).mapError some
  | .reject user rejectReason => do
    require (user = r.getLegalOfficer)
    (r.reject rejectReason now).mapError some
  | .cancel user => do
    require (user = r.getRequester)
    r.cancel.mapError some
  | .createRecovery _ _ => return r.setActivated

variable {ι : Type} (calls : ι → Call)

/-- The calls, each in an `update` of its own. -/
def updates : Code ι Moment AccountRecoveryRequest (Option Err) where
  selects t := (calls t).selects
  mutate t now r := (calls t).mutate now r
  write := AccountRecoveryRequest.write

end AccountRecoveries

/-! ### The contract -/

def AccountRecoveryStatus.isCancelled : AccountRecoveryStatus → Bool
  | .cancelled | .rejectedCancelled | .acceptedCancelled => true
  | _ => false

namespace AccountRecoveries

variable {ι : Type} (calls : ι → Call)

/-- The request has been committed with this status. -/
def Was (status : AccountRecoveryStatus) (log : List (Commit ι AccountRecoveryRequest)) : Prop :=
  ∃ e ∈ log, e.after.status = status

instance (status : AccountRecoveryStatus) (log : List (Commit ι AccountRecoveryRequest)) :
    Decidable (Was status log) :=
  inferInstanceAs (Decidable (∃ e ∈ log, e.after.status = status))

/-- **A true history.**  The request is activated from accepted only, the other two final statuses tell
what it was before, a cancelled request keeps its status, and there is a date exactly if there was a
decision. -/
structure TrueHistory (σ : System ι AccountRecoveryRequest) : Prop where
  activated : ∀ e ∈ σ.log, e.after.status = .activated → e.before.status ≠ .activated →
    e.before.status = .accepted
  acceptedCancelled : ∀ e earlier, e :: earlier <:+ σ.log → e.after.status = .acceptedCancelled →
    Was .accepted earlier
  rejectedCancelled : ∀ e earlier, e :: earlier <:+ σ.log → e.after.status = .rejectedCancelled →
    Was .rejected earlier
  cancelled : ∀ e ∈ σ.log, e.before.status.isCancelled = true → e.after.status = e.before.status
  decision : ∀ r, σ.row.committed = some r →
    (r.decisionOn.isSome = true ↔ Was .accepted σ.log ∨ Was .rejected σ.log)

/-- A request that was cancelled before it was accepted is not cancelled again, and a request that the
synchronization has selected was not cancelled since then. -/
def Call.InOrder (r : AccountRecoveryRequest) : Call → Prop
  | .accept _ | .reject _ _ => True
  | .cancel user => user = r.getRequester → r.status ≠ .cancelled ∧ r.status ≠ .rejectedCancelled
  | .createRecovery _ _ => r.status.isCancelled = false

instance (r : AccountRecoveryRequest) : ∀ call : Call, Decidable (call.InOrder r)
  | .accept _ | .reject _ _ => .isTrue trivial
  | .cancel _ => inferInstanceAs (Decidable (_ → _))
  | .createRecovery _ _ => inferInstanceAs (Decidable (_ = false))

def InOrder (t : ι) (r : AccountRecoveryRequest) : Prop := (calls t).InOrder r

instance (t : ι) (r : AccountRecoveryRequest) : Decidable (InOrder calls t r) :=
  inferInstanceAs (Decidable ((calls t).InOrder r))

/-- What the selection of the synchronization tells of the request from then on. -/
def WasSelected (t : ι) (r : AccountRecoveryRequest) : Prop :=
  ∀ signer legalOfficer, calls t = .createRecovery signer legalOfficer →
    r.status = .accepted ∨ r.status = .activated ∨ r.status = .acceptedCancelled

/-- What a change does to a request in a proper status. -/
inductive Transition (r r' : AccountRecoveryRequest) : Prop
  | decided (hr : r.status = .pending) (hr' : r'.status = .accepted ∨ r'.status = .rejected)
      (hdecision : r'.decisionOn.isSome = true)
  | cancelled (hr : r.status = .pending) (hr' : r'.status = .cancelled)
      (hdecision : r'.decisionOn = r.decisionOn)
  | rejectedCancelled (hr : r.status = .rejected) (hr' : r'.status = .rejectedCancelled)
      (hdecision : r'.decisionOn = r.decisionOn)
  | acceptedCancelled (hr : r.status = .accepted ∨ r.status = .acceptedCancelled)
      (hr' : r'.status = .acceptedCancelled) (hdecision : r'.decisionOn = r.decisionOn)
  | activated (hr : r.status = .accepted ∨ r.status = .activated) (hr' : r'.status = .activated)
      (hdecision : r'.decisionOn = r.decisionOn)

variable {calls} {t : ι} {r r' first : AccountRecoveryRequest} {now : Moment} {call : Call}
  {log : List (Commit ι AccountRecoveryRequest)}

/-! ### One change -/

theorem require_eq_ok {p : Prop} [Decidable p] : require p = .ok () ↔ p := by
  unfold require
  split_ifs with h <;> simp [h]

theorem accept_eq_ok : r.accept now = .ok r' ↔
    r.status = .pending ∧ r' = { r with status := .accepted, decisionOn := some now } := by
  rw [AccountRecoveryRequest.accept, refused_eq_ok, not_not, pure_eq_ok, Except.ok.injEq, eq_comm (b := r')]

theorem reject_eq_ok {reason : String} : r.reject reason now = .ok r' ↔ r.status = .pending ∧
    r' = { r with status := .rejected, decisionOn := some now, rejectReason := some reason } := by
  rw [AccountRecoveryRequest.reject, refused_eq_ok, not_not, pure_eq_ok, Except.ok.injEq, eq_comm (b := r')]

/-- The three statuses that say `cancelled`, from the status before. -/
theorem cancel_eq_ok (h : r.cancel = .ok r') : r.status ≠ .activated ∧ r' = { r with status :=
    if r.status = .pending then .cancelled
    else if r.status = .rejected then .rejectedCancelled else .acceptedCancelled } := by
  unfold AccountRecoveryRequest.cancel at h
  split_ifs at h with hactivated hpending hrejected
  · exact ⟨hactivated, by rw [if_pos hpending]; exact (Except.ok.inj h).symm⟩
  · exact ⟨hactivated, by rw [if_neg hpending, if_pos hrejected]; exact (Except.ok.inj h).symm⟩
  · exact ⟨hactivated, by rw [if_neg hpending, if_neg hrejected]; exact (Except.ok.inj h).symm⟩

/-- Whose call it is, and what it makes of the request. -/
def Call.Makes (now : Moment) (r r' : AccountRecoveryRequest) : Call → Prop
  | .accept user => user = r.getLegalOfficer ∧ r.accept now = .ok r'
  | .reject user rejectReason => user = r.getLegalOfficer ∧ r.reject rejectReason now = .ok r'
  | .cancel user => user = r.getRequester ∧ r.cancel = .ok r'
  | .createRecovery _ _ => r' = r.setActivated

theorem makes_of_mutate (h : call.mutate now r = .ok r') : call.Makes now r r' := by
  cases call with
  | accept user =>
    obtain ⟨⟨⟩, hrequire, h⟩ := bind_eq_ok.mp h
    exact ⟨require_eq_ok.mp hrequire, mapError_eq_ok.mp h⟩
  | reject user rejectReason =>
    obtain ⟨⟨⟩, hrequire, h⟩ := bind_eq_ok.mp h
    exact ⟨require_eq_ok.mp hrequire, mapError_eq_ok.mp h⟩
  | cancel user =>
    obtain ⟨⟨⟩, hrequire, h⟩ := bind_eq_ok.mp h
    exact ⟨require_eq_ok.mp hrequire, mapError_eq_ok.mp h⟩
  | createRecovery signer legalOfficer => exact (Except.ok.inj h).symm

/-- **One change.**  A request that was selected, and not cancelled since then, is accepted or
activated. -/
theorem transition_of_change
    (h : Change (updates calls) (Both (WasSelected calls) (InOrder calls)) t r r') : Transition r r' := by
  obtain ⟨⟨hselected, horder⟩, now, hmutate⟩ := h
  have hmutated : (calls t).Makes now r r' := makes_of_mutate hmutate
  rw [InOrder] at horder
  cases hcall : calls t with
  | accept user =>
    rw [hcall] at hmutated
    obtain ⟨hpending, rfl⟩ := accept_eq_ok.mp hmutated.2
    exact .decided hpending (.inl rfl) rfl
  | reject user rejectReason =>
    rw [hcall] at hmutated
    obtain ⟨hpending, rfl⟩ := reject_eq_ok.mp hmutated.2
    exact .decided hpending (.inr rfl) rfl
  | cancel user =>
    rw [hcall] at hmutated horder
    obtain ⟨hcancelled, hrejectedCancelled⟩ := horder hmutated.1
    obtain ⟨hactivated, rfl⟩ := cancel_eq_ok hmutated.2
    cases hstatus : r.status with
    | pending => exact .cancelled hstatus (by simp) rfl
    | rejected => exact .rejectedCancelled hstatus (by simp) rfl
    | accepted => exact .acceptedCancelled (.inl hstatus) (by simp) rfl
    | acceptedCancelled => exact .acceptedCancelled (.inr hstatus) (by simp) rfl
    | activated => exact absurd hstatus hactivated
    | cancelled => exact absurd hstatus hcancelled
    | rejectedCancelled => exact absurd hstatus hrejectedCancelled
  | createRecovery signer legalOfficer =>
    rw [hcall] at hmutated horder
    subst hmutated
    refine .activated ?_ rfl rfl
    rcases hselected signer legalOfficer hcall with haccepted | hactivated | hcancelled
    · exact .inl haccepted
    · exact .inr hactivated
    · rw [Call.InOrder, hcancelled] at horder
      cases horder

/-- A request that was accepted can only be activated or cancelled. -/
theorem WasSelected.transition (h : WasSelected calls t r) (htransition : Transition r r') :
    WasSelected calls t r' := by
  intro signer legalOfficer hcall
  have hr := h signer legalOfficer hcall
  cases htransition with
  | decided hr₀ | cancelled hr₀ | rejectedCancelled hr₀ => simp [hr₀] at hr
  | acceptedCancelled _ hr' => exact .inr (.inr hr')
  | activated _ hr' => exact .inr (.inl hr')

/-- The synchronization selects accepted requests. -/
theorem knowledge : Knowledge (updates calls) (WasSelected calls) (InOrder calls) where
  selected t r hselected signer legalOfficer hcall := by
    simp only [updates, hcall, Call.selects, Option.all_some, Bool.and_eq_true, decide_eq_true_eq]
      at hselected
    exact .inl hselected.2
  kept _ _ _ _ hknown hchange := hknown.transition (transition_of_change hchange)

theorem id_of_mutate (h : call.mutate now r = .ok r') : r'.id = r.id := by
  have hmutated := makes_of_mutate h
  cases call with
  | accept user => rw [(accept_eq_ok.mp hmutated.2).2]
  | reject user rejectReason => rw [(reject_eq_ok.mp hmutated.2).2]
  | cancel user => rw [(cancel_eq_ok hmutated.2).2]
  | createRecovery signer legalOfficer =>
    subst hmutated
    rfl

/-- A save that reads again what was loaded, and finds it in the table, stores the instance. -/
theorem write_of_id (h : r'.id = r.id) : r'.write r r = r' := by
  simp only [AccountRecoveryRequest.write, writeColumn_reread, ← h]

/-! ### A serial history -/

theorem was_cons {status : AccountRecoveryStatus} {e : Commit ι AccountRecoveryRequest} :
    Was status (e :: log) ↔ e.after.status = status ∨ Was status log := by
  simp [Was]

/-- What a history tells, up to the stored request `r`. -/
structure Told (log : List (Commit ι AccountRecoveryRequest)) (r : AccountRecoveryRequest) : Prop where
  accepted : r.status = .accepted ∨ r.status = .acceptedCancelled → Was .accepted log
  rejected : r.status = .rejected ∨ r.status = .rejectedCancelled → Was .rejected log
  decision : r.decisionOn.isSome = true ↔ Was .accepted log ∨ Was .rejected log
  activated : ∀ e ∈ log, e.after.status = .activated → e.before.status ≠ .activated →
    e.before.status = .accepted
  acceptedCancelled : ∀ e earlier, e :: earlier <:+ log → e.after.status = .acceptedCancelled →
    Was .accepted earlier
  rejectedCancelled : ∀ e earlier, e :: earlier <:+ log → e.after.status = .rejectedCancelled →
    Was .rejected earlier
  cancelled : ∀ e ∈ log, e.before.status.isCancelled = true → e.after.status = e.before.status

theorem told_start (params : NewAccountRecoveryRequestParameters) :
    Told ([] : List (Commit ι AccountRecoveryRequest)) (newAccountRecoveryRequest params) where
  accepted h := by cases h <;> contradiction
  rejected h := by cases h <;> contradiction
  decision := by simp [newAccountRecoveryRequest, Was]
  activated _ h := nomatch h
  acceptedCancelled _ _ h := nomatch List.suffix_nil.mp h
  rejectedCancelled _ _ h := nomatch List.suffix_nil.mp h
  cancelled _ h := nomatch h

/-- **One more commit.** -/
theorem Told.commit (h : Told log r)
    (haccepted : r'.status = .accepted ∨ r'.status = .acceptedCancelled →
      r'.status = .accepted ∨ Was .accepted log)
    (hrejected : r'.status = .rejected ∨ r'.status = .rejectedCancelled →
      r'.status = .rejected ∨ Was .rejected log)
    (hdecision : r'.decisionOn.isSome = true ↔ (r'.status = .accepted ∨ r'.status = .rejected) ∨
      (Was .accepted log ∨ Was .rejected log))
    (hactivated : r'.status = .activated → r.status = .accepted ∨ r.status = .activated)
    (hcancelled : r.status.isCancelled = true → r'.status = r.status) :
    Told (⟨t, r, r'⟩ :: log) r' where
  accepted hr := was_cons.mpr (haccepted hr)
  rejected hr := was_cons.mpr (hrejected hr)
  decision := by rw [hdecision, was_cons, was_cons, or_or_or_comm]
  activated := List.forall_mem_cons.mpr
    ⟨fun hr hne => (hactivated hr).resolve_right hne, h.activated⟩
  acceptedCancelled e earlier hsuffix hr := by
    rcases List.suffix_cons_iff.mp hsuffix with heq | hsuffix
    · obtain ⟨rfl, rfl⟩ := List.cons.inj heq
      exact (haccepted (.inr hr)).resolve_left (ne_of_eq_of_ne hr (by decide))
    · exact h.acceptedCancelled e earlier hsuffix hr
  rejectedCancelled e earlier hsuffix hr := by
    rcases List.suffix_cons_iff.mp hsuffix with heq | hsuffix
    · obtain ⟨rfl, rfl⟩ := List.cons.inj heq
      exact (hrejected (.inr hr)).resolve_left (ne_of_eq_of_ne hr (by decide))
    · exact h.rejectedCancelled e earlier hsuffix hr
  cancelled := List.forall_mem_cons.mpr ⟨hcancelled, h.cancelled⟩

theorem Told.same (h : Told log r) : Told (⟨t, r, r⟩ :: log) r := by
  refine h.commit (fun hr => .inr (h.accepted hr)) (fun hr => .inr (h.rejected hr)) ?_ .inr
    fun _ => rfl
  rw [h.decision]
  refine ⟨.inr, fun hr => hr.elim ?_ id⟩
  exact Or.imp (h.accepted ∘ .inl) (h.rejected ∘ .inl)

theorem Told.transition (h : Told log r) (htransition : Transition r r') :
    Told (⟨t, r, r'⟩ :: log) r' := by
  have haccepted := h.accepted
  have hrejected := h.rejected
  cases htransition with
  | decided hr hr' hdecision =>
    refine h.commit ?_ ?_ ?_ ?_ ?_
    · rcases hr' with hr' | hr' <;> simp [hr']
    · rcases hr' with hr' | hr' <;> simp [hr']
    · rcases hr' with hr' | hr' <;> simp [hr', hdecision]
    · rcases hr' with hr' | hr' <;> simp [hr']
    · simp [hr, AccountRecoveryStatus.isCancelled]
  | cancelled hr hr' hdecision =>
    refine h.commit (by simp [hr']) (by simp [hr']) ?_ (by simp [hr']) ?_
    · simp [hdecision, h.decision, hr']
    · simp [hr, AccountRecoveryStatus.isCancelled]
  | rejectedCancelled hr hr' hdecision =>
    refine h.commit (by simp [hr']) (fun _ => .inr (hrejected (.inl hr))) ?_ (by simp [hr']) ?_
    · simp [hdecision, h.decision, hr']
    · simp [hr, AccountRecoveryStatus.isCancelled]
  | acceptedCancelled hr hr' hdecision =>
    refine h.commit (fun _ => .inr (haccepted hr)) (by simp [hr']) ?_ (by simp [hr']) ?_
    · simp [hdecision, h.decision, hr']
    · rcases hr with hr | hr <;> simp [hr, hr', AccountRecoveryStatus.isCancelled]
  | activated hr hr' hdecision =>
    refine h.commit (by simp [hr']) (by simp [hr']) ?_ (fun _ => hr) ?_
    · simp [hdecision, h.decision, hr']
    · rcases hr with hr | hr <;> simp [hr, AccountRecoveryStatus.isCancelled]

theorem told_of_serial {params : NewAccountRecoveryRequestParameters}
    (h : Serial (newAccountRecoveryRequest params)
      (Change (updates calls) (Both (WasSelected calls) (InOrder calls))) log r) : Told log r := by
  induction h with
  | start => exact told_start params
  | same t _ ih => exact ih.same
  | change _ hchange ih => exact ih.transition (transition_of_change hchange)

/-- **An account recovery status tells its history**, in every run in which a request is cancelled in
time, not cancelled between its selection and its activation, and saved as it was loaded. -/
theorem trueHistory_run [DecidableEq ι] (calls : ι → Call) (params : NewAccountRecoveryRequestParameters)
    (ops : List (Op ι Moment))
    (h : Along (step (updates calls)) (fun σ o => Fresh σ o ∧ Changes (InOrder calls) σ o)
      (RowUpdates.start (newAccountRecoveryRequest params)) ops) :
    TrueHistory
      (run (step (updates calls)) (RowUpdates.start (newAccountRecoveryRequest params)) ops) := by
  obtain ⟨r, hcommitted, hserial⟩ :=
    serial_run (fun t now r r' hmutate => write_of_id (id_of_mutate hmutate)) knowledge h
  have htold := told_of_serial hserial
  constructor
  · exact htold.activated
  · exact htold.acceptedCancelled
  · exact htold.rejectedCancelled
  · exact htold.cancelled
  · intro r' hr'
    obtain rfl : r = r' := Option.some.inj (hcommitted.symm.trans hr')
    exact htold.decision

/-! ### A request of Alice -/

def recoveryParams : NewAccountRecoveryRequestParameters where
  id := "a7ff4ab6"
  requesterAddress := "alice"
  requesterIdentityLoc := "80124e8a"
  legalOfficerAddress := "charlie"
  otherLegalOfficerAddress := "dave"
  createdOn := 0
  addressToRecover := "lost"

/-- Charlie accepts, Alice creates the recovery on chain, and cancels. -/
def aliceRecovers : ℕ → Call
  | 0 => .accept (.polkadot "charlie")
  | 1 => .createRecovery (.polkadot "alice") (.polkadot "charlie")
  | _ => .cancel (.polkadot "alice")

/-- The request, cancelled before a decision. -/
def cancelledRequest : AccountRecoveryRequest :=
  { newAccountRecoveryRequest recoveryParams with status := .cancelled }

/-- What the calls have done after each of them was resumed so many times. -/
def ranAtOnce (turns : List (ℕ × ℕ)) : System ℕ AccountRecoveryRequest :=
  run (step (updates aliceRecovers)) (RowUpdates.start (newAccountRecoveryRequest recoveryParams))
    (turns.flatMap fun turn => List.replicate turn.2 (.resume turn.1 0))

/-- The request is accepted, then activated. -/
theorem trueHistory_run_activated :
    TrueHistory (run (step (updates aliceRecovers))
      (RowUpdates.start (newAccountRecoveryRequest recoveryParams))
      (List.replicate 5 (.resume 0 0) ++ List.replicate 6 (.resume 1 0))) :=
  trueHistory_run aliceRecovers recoveryParams _ (by decide)

/-- The request is cancelled after the synchronization has selected it; it is cancelled twice; it is
accepted, or cancelled, as it was before the other call. -/
theorem recoveryHistory_untrue :
    ¬ TrueHistory (ranAtOnce [(0, 5), (1, 1), (2, 5), (1, 5)]) ∧
      ¬ TrueHistory (ranAtOnce [(2, 5), (3, 5)]) ∧
      ¬ TrueHistory (ranAtOnce [(0, 1), (2, 5), (0, 4)]) ∧
      ¬ TrueHistory (ranAtOnce [(2, 1), (0, 5), (2, 4)]) := by
  have hlast : ∀ {log : List (Commit ℕ AccountRecoveryRequest)} (hlength : 0 < log.length),
      log[0] ∈ log := fun hlength => List.getElem_mem hlength
  refine ⟨fun h => ?_, fun h => ?_, fun h => ?_, fun h => ?_⟩
  · exact absurd (h.activated _ (hlast (by decide)) (by decide) (by decide)) (by decide)
  · have haccepted := h.acceptedCancelled
      ⟨3, cancelledRequest, { cancelledRequest with status := .acceptedCancelled }⟩
      [⟨2, newAccountRecoveryRequest recoveryParams, cancelledRequest⟩] (by decide) rfl
    exact absurd haccepted (by decide)
  · exact absurd (h.cancelled _ (hlast (by decide)) (by decide)) (by decide)
  · exact absurd ((h.decision _ rfl).mpr (.inl (by decide))) (by decide)

end AccountRecoveries

end Logion
