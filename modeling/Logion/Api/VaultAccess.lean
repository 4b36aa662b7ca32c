import Logion.Api.Identities
import Logion.Api.Vaults
import Logion.Sync.NeverStuck

/-!
# VaultAccess — whose vaults transfers are requested from

Whatever the requests do at once, a stored transfer was requested by the owner of the vault, or by
somebody whose recovery of that very account the same legal officer has accepted, and who has created it
on chain; and the status of every request was brought about by who may do so.

* `RecoveryAsked`, `TransferAsked`: the row is the one that a request of the history asks for.
* `GoesOn`: what such a request has found when it went on from one of its checks.
* `RecoveryActed`, `TransferActed`: an action that loads a row, in the name of an account.
* `RecoveryTold`, `TransferTold`: what the status of a row tells of the actions.
* `Vaults.Inv`, `Vaults.inv_step`: all the rows, stored or in flight, and one event.
* `transfer_authorized`, `statuses_told`: every stored row.
-/

namespace Logion

open Fallible

/-! ### Rows as they were requested -/

/-- The row before any action. -/
def AccountRecoveryRequest.asRequested (r : AccountRecoveryRequest) : AccountRecoveryRequest :=
  { r with status := .pending, decisionOn := none, rejectReason := none }

def VaultTransferRequest.asRequested (r : VaultTransferRequest) : VaultTransferRequest :=
  { r with status := .pending, decision := {} }

section

variable {entity reread current : AccountRecoveryRequest}

theorem AccountRecoveryRequest.write_asRequested (h : entity.asRequested = reread.asRequested) :
    (entity.write reread current).asRequested = current.asRequested := by
  simp only [asRequested, mk.injEq] at h
  simp only [asRequested, write, h, writeColumn_self]

end

section

variable {entity reread current : VaultTransferRequest} {cleared : Bool}

theorem VaultTransferRequest.write_asRequested (h : entity.asRequested = reread.asRequested) :
    (entity.write cleared reread current).asRequested = current.asRequested := by
  simp only [asRequested, mk.injEq] at h
  simp only [asRequested, write, h, writeColumn_self]

end

instance : Std.Symm fun r r' => ¬ VaultTransferRequest.clash r r' where
  symm _ _ h h' := h (h'.imp Eq.symm fun ⟨hblock, hindex⟩ => ⟨hblock.symm, hindex.symm⟩)

theorem writeColumn_or {α : Type} [DecidableEq α] (entity reread current : α) :
    writeColumn entity reread current = entity ∨ writeColumn entity reread current = current := by
  unfold writeColumn
  split_ifs
  · exact .inr rfl
  · exact .inl rfl

/-! ### The checks of a request -/

namespace VaultPending

/-- The identity LOC of the recovery is about to be checked. -/
def requests (requester : AccountId) (r : AccountRecoveryRequest) : VaultPending → Prop
  | .requesting requester' row => requester' = requester ∧ row = r
  | _ => False

/-- The active recovery of whoever requests the transfer is about to be looked up. -/
def authorizes (v : VaultTransferRequest) : VaultPending → Prop
  | .authorizing creation => creation.row = v
  | _ => False

/-- The recovery configuration of the origin is about to be asked for. -/
def protects (v : VaultTransferRequest) : VaultPending → Prop
  | .protecting creation _ => creation.row = v
  | _ => False

/-- The identity LOC of the transfer is about to be looked up. -/
def identifies (v : VaultTransferRequest) : VaultPending → Prop
  | .identifying creation _ => creation.row = v
  | _ => False

end VaultPending

namespace Vaults

variable [LegalOfficers] (s : Vaults) (events : List VaultEvent)

/-- A request at such a point goes on, and finds this. -/
def GoesOn (point : VaultPending → Prop) (finds : Vaults → Prop) : Prop :=
  Happened step (fun σ e => ∃ call p, e = .resume call ∧ σ.inFlight call = some p ∧ point p ∧ finds σ)
    s events

/-! ### What has happened to account recoveries -/

/-- A request of the history asks for this row. -/
def RecoveryAsked (user : AuthenticatedUser) (r : AccountRecoveryRequest) : Prop :=
  ∃ call body now, .createRequest call user r.id body now ∈ events ∧
    createRequest user r.id body now = .ok r

omit [LegalOfficers] in
/-- The identity LOC of the request is a valid one, of the requester with the legal officer. -/
def IdentityStored (requester : AccountId) (r : AccountRecoveryRequest) (σ : Vaults) : Prop :=
  ∃ loc ∈ σ.locRequests, loc.root.id = r.requesterIdentityLocId ∧ loc.root.isValidIdentityLoc = true ∧
    loc.root.getRequester = some requester ∧ loc.root.getOwner = r.getLegalOfficer

/-- The request was made by a user who had a valid identity LOC when it was checked. -/
def RecoveryRequested (r : AccountRecoveryRequest) : Prop :=
  ∃ user, RecoveryAsked events user r ∧
    GoesOn s events (VaultPending.requests user.validAccountId r) (IdentityStored user.validAccountId r)

/-- The account has acted on the request, whose row had such a status when it was loaded. -/
def RecoveryActed (action : RecoveryAction) (account : AccountId) (found : AccountRecoveryStatus → Prop)
    (id : UUID) : Prop :=
  Happened step (fun σ e => ∃ call user now, e = .updateRecovery call user action id now ∧
    (action.isDecision = true → user.isLegalOfficerOnNode = true) ∧ user.validAccountId = account ∧
    ∃ item ∈ σ.recoveries, item.id = id ∧ found item.status) s events

def AcceptedByOfficer (r : AccountRecoveryRequest) : Prop :=
  RecoveryActed s events .accept r.getLegalOfficer (· = .pending) r.id

def RejectedByOfficer (r : AccountRecoveryRequest) : Prop :=
  ∃ reason, RecoveryActed s events (.reject reason) r.getLegalOfficer (· = .pending) r.id

def CancelledByRequester (r : AccountRecoveryRequest) : Prop :=
  RecoveryActed s events .cancel r.getRequester (· ≠ .activated) r.id

/-- The requester has created the recovery on chain, with the legal officer. -/
def CreatedOnChain (r : AccountRecoveryRequest) : Prop :=
  ∃ call legalOfficers, .createRecovery call r.requesterAddress legalOfficers ∈ events ∧
    r.legalOfficerAddress ∈ legalOfficers

/-- What the status tells. -/
inductive RecoveryTold (r : AccountRecoveryRequest) : AccountRecoveryStatus → Prop
  | pending : RecoveryTold r .pending
  | accepted (h : AcceptedByOfficer s events r) : RecoveryTold r .accepted
  | rejected (h : RejectedByOfficer s events r) : RecoveryTold r .rejected
  | activated (h : AcceptedByOfficer s events r) (h' : CreatedOnChain events r) :
      RecoveryTold r .activated
  | cancelled (h : CancelledByRequester s events r) : RecoveryTold r .cancelled
  | rejectedCancelled (h : RejectedByOfficer s events r) (h' : CancelledByRequester s events r) :
      RecoveryTold r .rejectedCancelled
  | acceptedCancelled (h : CancelledByRequester s events r) : RecoveryTold r .acceptedCancelled

/-- A row that tells its history, column by column. -/
structure RecoveryFine (r : AccountRecoveryRequest) : Prop where
  requested : RecoveryRequested s events r.asRequested
  told : RecoveryTold s events r.asRequested r.status
  reason : ∀ reason, r.rejectReason = some reason →
    RecoveryActed s events (.reject reason) r.asRequested.getLegalOfficer (· = .pending) r.asRequested.id

/-! ### What has happened to vault transfers -/

def TransferAsked (user : AuthenticatedUser) (v : VaultTransferRequest) : Prop :=
  ∃ call body now, .createVaultTransferRequest call user v.id body now ∈ events ∧
    createVaultTransferRequest user v.id body now = .ok v

/-- The request for the transfer, after `pre`, looks up the active recovery. -/
def Authorizing (v : VaultTransferRequest) (pre : List VaultEvent) : Prop :=
  ∃ call p, pre ++ [.resume call] <+: events ∧ (run step s pre).inFlight call = some p ∧ p.authorizes v

/-- The requester had an active recovery with the legal officer, when the request looked it up. -/
structure ActiveRecovery (v : VaultTransferRequest) (r : AccountRecoveryRequest) : Prop where
  requester : r.requesterAddress = v.requesterAddress
  legalOfficer : r.legalOfficerAddress = v.legalOfficerAddress
  stored : ∃ pre, Authorizing s events v pre ∧ r ∈ (run step s pre).recoveries ∧
    r.status = .activated ∧ RecoveryFine s pre r

/-- The origin is the account of the requester, or the account that he has recovered. -/
def Entitled (requester : AccountId) (v : VaultTransferRequest) : Prop :=
  requester = v.getOrigin ∨ ∃ r, ActiveRecovery s events v r ∧ r.addressToRecover = some v.origin

/-- The requester had an active recovery, or the origin a recovery configuration on chain. -/
def Protected (v : VaultTransferRequest) : Prop :=
  (∃ r, ActiveRecovery s events v r) ∨
    GoesOn s events (VaultPending.protects v) fun σ => (σ.getRecoveryConfig v.getOrigin).isSome = true

/-- The identity LOC was found: that of the recovery, or a valid one of the origin. -/
def Identified (v : VaultTransferRequest) : Prop :=
  (∃ r, ActiveRecovery s events v r ∧ GoesOn s events (VaultPending.identifies v) fun σ =>
      ∃ loc ∈ σ.locRequests, loc.root.id = r.requesterIdentityLocId) ∨
    GoesOn s events (VaultPending.identifies v) fun σ => ∃ loc ∈ σ.locRequests,
      loc.root.isValidIdentityLoc = true ∧ loc.root.getRequester = some v.getOrigin ∧
        loc.root.getOwner = v.getLegalOfficer

structure TransferRequested (v : VaultTransferRequest) : Prop where
  asked : ∃ user, TransferAsked events user v ∧ Entitled s events user.validAccountId v
  isProtected : Protected s events v
  identified : Identified s events v

/-- The account has acted on the transfer, whose row had such a status when it was loaded. -/
def TransferActed (action : TransferAction) (account : AccountId)
    (found : VaultTransferRequestStatus → Prop) (id : UUID) : Prop :=
  Happened step (fun σ e => ∃ call user now, e = .updateTransfer call user action id now ∧
    (action.isDecision = true → user.isLegalOfficerOnNode = true) ∧ user.validAccountId = account ∧
    ∃ item ∈ σ.transfers, item.id = id ∧ found item.status) s events

inductive TransferTold (v : VaultTransferRequest) : VaultTransferRequestStatus → Prop
  | pending : TransferTold v .pending
  | accepted (h : TransferActed s events .accept v.getLegalOfficer (· = .pending) v.id) :
      TransferTold v .accepted
  | rejected {reason : String}
      (h : TransferActed s events (.reject reason) v.getLegalOfficer (· = .pending) v.id) :
      TransferTold v .rejected
  | cancelled (h : TransferActed s events .cancel v.getRequester (· = .pending) v.id) :
      TransferTold v .cancelled
  | rejectedCancelled {reason : String}
      (h : TransferActed s events (.reject reason) v.getLegalOfficer (· = .pending) v.id)
      (h' : TransferActed s events .cancel v.getRequester (· = .rejected) v.id) :
      TransferTold v .rejectedCancelled

structure TransferFine (v : VaultTransferRequest) : Prop where
  requested : TransferRequested s events v.asRequested
  told : TransferTold s events v.asRequested v.status
  reason : ∀ reason, v.decision.rejectReason = some reason →
    TransferActed s events (.reject reason) v.asRequested.getLegalOfficer (· = .pending) v.asRequested.id

/-! ### The invariant -/

/-- The request was selected for activation. -/
def Selected (signer : String) (id : UUID) : Prop :=
  ∃ r, RecoveryRequested s events r ∧ r.id = id ∧ r.requesterAddress = signer ∧
    AcceptedByOfficer s events r ∧ CreatedOnChain events r

structure ActivationFine (a : Activation) : Prop where
  created : ∃ call legalOfficers, .createRecovery call a.signer legalOfficers ∈ events ∧
    a.legalOfficers ⊆ legalOfficers
  selected : ∀ id ∈ a.requests, Selected s events a.signer id

/-- What a request in flight has found. -/
def PendingFine : VaultPending → Prop
  | .requesting requester row =>
    ∃ user, RecoveryAsked events user row ∧ requester = user.validAccountId
  | .authorizing creation =>
    ∃ user, TransferAsked events user creation.row ∧ creation.requester = user.validAccountId
  | .protecting creation activeRecovery =>
    (∃ user, TransferAsked events user creation.row ∧ creation.requester = user.validAccountId) ∧
      ∀ d, activeRecovery = some d → ∃ r, ActiveRecovery s events creation.row r ∧ r.getDescription = .ok d
  | .identifying creation activeRecovery =>
    (∃ user, TransferAsked events user creation.row ∧ Entitled s events user.validAccountId creation.row) ∧
      Protected s events creation.row ∧
      ∀ d, activeRecovery = some d → ∃ r, ActiveRecovery s events creation.row r ∧ r.getDescription = .ok d
  | .savingTransfer row _ => TransferFine s events row
  | .writingTransfer row _ reread => TransferFine s events row ∧
      ∀ v, reread = some v → TransferFine s events v ∧ v.id = row.id
  | .savingRecovery row next => RecoveryFine s events row ∧ ∀ a, next = some a → ActivationFine s events a
  | .writingRecovery row reread next => RecoveryFine s events row ∧
      (∀ r, reread = some r → RecoveryFine s events r ∧ r.id = row.id) ∧
      ∀ a, next = some a → ActivationFine s events a
  | .activating a => ActivationFine s events a

/-- Everything that is stored or in flight tells its history. -/
structure Inv (σ : Vaults) : Prop where
  recoveries : ∀ r ∈ σ.recoveries, RecoveryFine s events r
  transfers : ∀ v ∈ σ.transfers, TransferFine s events v
  inFlight : ∀ id p, σ.inFlight id = some p → PendingFine s events p
  timepoints : Table.Consistent VaultTransferRequest.clash σ.transfers

def uuids : List UUID := events.filterMap VaultEvent.uuid

variable {s events} {e : VaultEvent} {r r' : AccountRecoveryRequest} {v : VaultTransferRequest}
  {user : AuthenticatedUser} {requester : AccountId}

/-! ### As time goes on -/

theorem GoesOn.concat {point : VaultPending → Prop} {finds : Vaults → Prop}
    (h : GoesOn s events point finds) (e : VaultEvent) : GoesOn s (events ++ [e]) point finds := by
  unfold GoesOn at h ⊢
  exact h.concat e

/-- The request goes on now. -/
theorem goesOn_now {point : VaultPending → Prop} {finds : Vaults → Prop} {call : ℕ} {p : VaultPending}
    (hp : (run step s events).inFlight call = some p) (hpoint : point p)
    (hfinds : finds (run step s events)) : GoesOn s (events ++ [.resume call]) point finds :=
  happened_now ⟨call, p, rfl, hp, hpoint, hfinds⟩

theorem RecoveryAsked.concat (h : RecoveryAsked events user r) (e : VaultEvent) :
    RecoveryAsked (events ++ [e]) user r := by
  obtain ⟨call, body, now, hmem, hrow⟩ := h
  exact ⟨call, body, now, List.mem_append_left _ hmem, hrow⟩

theorem RecoveryRequested.concat (h : RecoveryRequested s events r) (e : VaultEvent) :
    RecoveryRequested s (events ++ [e]) r := by
  obtain ⟨user, hasked, hstored⟩ := h
  exact ⟨user, hasked.concat e, hstored.concat e⟩

omit [LegalOfficers] in
theorem CreatedOnChain.concat (h : CreatedOnChain events r) (e : VaultEvent) :
    CreatedOnChain (events ++ [e]) r := by
  obtain ⟨call, legalOfficers, hmem, hofficer⟩ := h
  exact ⟨call, legalOfficers, List.mem_append_left _ hmem, hofficer⟩

theorem AcceptedByOfficer.concat (h : AcceptedByOfficer s events r) (e : VaultEvent) :
    AcceptedByOfficer s (events ++ [e]) r := by
  unfold AcceptedByOfficer at h ⊢
  exact h.concat e

theorem CancelledByRequester.concat (h : CancelledByRequester s events r) (e : VaultEvent) :
    CancelledByRequester s (events ++ [e]) r := by
  unfold CancelledByRequester at h ⊢
  exact h.concat e

theorem RejectedByOfficer.concat (h : RejectedByOfficer s events r) (e : VaultEvent) :
    RejectedByOfficer s (events ++ [e]) r := by
  obtain ⟨reason, hacted⟩ := h
  exact ⟨reason, hacted.concat e⟩

theorem RecoveryTold.concat {status : AccountRecoveryStatus} (h : RecoveryTold s events r status)
    (e : VaultEvent) : RecoveryTold s (events ++ [e]) r status := by
  cases h with
  | pending => exact .pending
  | accepted h => exact .accepted (h.concat e)
  | rejected h => exact .rejected (h.concat e)
  | activated h h' => exact .activated (h.concat e) (h'.concat e)
  | cancelled h => exact .cancelled (h.concat e)
  | rejectedCancelled h h' => exact .rejectedCancelled (h.concat e) (h'.concat e)
  | acceptedCancelled h => exact .acceptedCancelled (h.concat e)

theorem RecoveryFine.concat (h : RecoveryFine s events r) (e : VaultEvent) :
    RecoveryFine s (events ++ [e]) r :=
  ⟨h.requested.concat e, h.told.concat e, fun reason hreason => (h.reason reason hreason).concat e⟩

theorem TransferAsked.concat (h : TransferAsked events user v) (e : VaultEvent) :
    TransferAsked (events ++ [e]) user v := by
  obtain ⟨call, body, now, hmem, hrow⟩ := h
  exact ⟨call, body, now, List.mem_append_left _ hmem, hrow⟩

theorem ActiveRecovery.concat (h : ActiveRecovery s events v r) (e : VaultEvent) :
    ActiveRecovery s (events ++ [e]) v r := by
  obtain ⟨pre, ⟨call, p, hpre, hp⟩, hstored⟩ := h.stored
  exact ⟨h.requester, h.legalOfficer, pre, ⟨call, p, hpre.trans (List.prefix_append events [e]), hp⟩,
    hstored⟩

theorem Entitled.concat (h : Entitled s events requester v) (e : VaultEvent) :
    Entitled s (events ++ [e]) requester v := by
  rcases h with hown | ⟨r, hactive, hrecovers⟩
  · exact .inl hown
  · exact .inr ⟨r, hactive.concat e, hrecovers⟩

theorem Protected.concat (h : Protected s events v) (e : VaultEvent) :
    Protected s (events ++ [e]) v := by
  rcases h with ⟨r, hactive⟩ | hconfig
  · exact .inl ⟨r, hactive.concat e⟩
  · exact .inr (hconfig.concat e)

theorem Identified.concat (h : Identified s events v) (e : VaultEvent) :
    Identified s (events ++ [e]) v := by
  rcases h with ⟨r, hactive, hloc⟩ | hloc
  · exact .inl ⟨r, hactive.concat e, hloc.concat e⟩
  · exact .inr (hloc.concat e)

theorem TransferRequested.concat (h : TransferRequested s events v) (e : VaultEvent) :
    TransferRequested s (events ++ [e]) v := by
  obtain ⟨user, hasked, hentitled⟩ := h.asked
  exact ⟨⟨user, hasked.concat e, hentitled.concat e⟩, h.isProtected.concat e, h.identified.concat e⟩

theorem TransferTold.concat {status : VaultTransferRequestStatus} (h : TransferTold s events v status)
    (e : VaultEvent) : TransferTold s (events ++ [e]) v status := by
  cases h with
  | pending => exact .pending
  | accepted h => exact .accepted (h.concat e)
  | rejected h => exact .rejected (h.concat e)
  | cancelled h => exact .cancelled (h.concat e)
  | rejectedCancelled h h' => exact .rejectedCancelled (h.concat e) (h'.concat e)

theorem TransferFine.concat (h : TransferFine s events v) (e : VaultEvent) :
    TransferFine s (events ++ [e]) v :=
  ⟨h.requested.concat e, h.told.concat e, fun reason hreason => (h.reason reason hreason).concat e⟩

theorem Selected.concat {signer : String} {id : UUID} (h : Selected s events signer id) (e : VaultEvent) :
    Selected s (events ++ [e]) signer id := by
  obtain ⟨r, hrequested, hid, hsigner, haccepted, hcreated⟩ := h
  exact ⟨r, hrequested.concat e, hid, hsigner, haccepted.concat e, hcreated.concat e⟩

theorem ActivationFine.concat {a : Activation} (h : ActivationFine s events a) (e : VaultEvent) :
    ActivationFine s (events ++ [e]) a := by
  obtain ⟨call, legalOfficers, hmem, hsub⟩ := h.created
  exact ⟨⟨call, legalOfficers, List.mem_append_left _ hmem, hsub⟩,
    fun id hid => (h.selected id hid).concat e⟩

theorem PendingFine.concat {p : VaultPending} (h : PendingFine s events p) (e : VaultEvent) :
    PendingFine s (events ++ [e]) p := by
  cases p with
  | requesting requester row =>
    obtain ⟨user, hasked, hrequester⟩ := h
    exact ⟨user, hasked.concat e, hrequester⟩
  | authorizing creation =>
    obtain ⟨user, hasked, hrequester⟩ := h
    exact ⟨user, hasked.concat e, hrequester⟩
  | protecting creation activeRecovery =>
    obtain ⟨⟨user, hasked, hrequester⟩, hactive⟩ := h
    refine ⟨⟨user, hasked.concat e, hrequester⟩, fun d hd => ?_⟩
    obtain ⟨r, hr, hdescription⟩ := hactive d hd
    exact ⟨r, hr.concat e, hdescription⟩
  | identifying creation activeRecovery =>
    obtain ⟨⟨user, hasked, hentitled⟩, hprotected, hactive⟩ := h
    refine ⟨⟨user, hasked.concat e, hentitled.concat e⟩, hprotected.concat e, fun d hd => ?_⟩
    obtain ⟨r, hr, hdescription⟩ := hactive d hd
    exact ⟨r, hr.concat e, hdescription⟩
  | savingTransfer row cleared => exact TransferFine.concat h e
  | writingTransfer row cleared reread =>
    exact ⟨h.1.concat e, fun v hv => ⟨(h.2 v hv).1.concat e, (h.2 v hv).2⟩⟩
  | savingRecovery row next => exact ⟨h.1.concat e, fun a ha => (h.2 a ha).concat e⟩
  | writingRecovery row reread next =>
    exact ⟨h.1.concat e, fun r hr => ⟨(h.2.1 r hr).1.concat e, (h.2.1 r hr).2⟩,
      fun a ha => (h.2.2 a ha).concat e⟩
  | activating a => exact ActivationFine.concat h e

/-! ### Identifiers -/

omit [LegalOfficers] in
/-- Two events with the same new identifier are one. -/
theorem eq_of_uuid {e' : VaultEvent} {u : UUID} (h : (uuids events).Nodup) (he : e ∈ events)
    (he' : e' ∈ events) (hu : e.uuid = some u) (hu' : e'.uuid = some u) : e = e' := by
  have hpairs := List.pairwise_filterMap.mp h
  induction hpairs with
  | nil => cases he
  | @cons a l ha _ ih =>
    rcases List.mem_cons.mp he with hhead | hmem <;> rcases List.mem_cons.mp he' with hhead' | hmem'
    · exact hhead.trans hhead'.symm
    · exact absurd rfl (ha e' hmem' u (hhead ▸ hu) u hu')
    · exact absurd rfl (ha e hmem u (hhead' ▸ hu') u hu)
    · exact ih (h.sublist ((List.sublist_cons_self a l).filterMap _)) hmem hmem'

theorem RecoveryRequested.unique (h : (uuids events).Nodup) (hr : RecoveryRequested s events r)
    (hr' : RecoveryRequested s events r') (hid : r.id = r'.id) : r = r' := by
  obtain ⟨user, ⟨call, body, now, hmem, hrow⟩, -⟩ := hr
  obtain ⟨user', ⟨call', body', now', hmem', hrow'⟩, -⟩ := hr'
  rw [← hid] at hmem' hrow'
  cases eq_of_uuid h hmem hmem' rfl rfl
  exact Except.ok.inj (hrow.symm.trans hrow')

theorem TransferRequested.unique {v' : VaultTransferRequest} (h : (uuids events).Nodup)
    (hv : TransferRequested s events v) (hv' : TransferRequested s events v') (hid : v.id = v'.id) :
    v = v' := by
  obtain ⟨user, ⟨call, body, now, hmem, hrow⟩, -⟩ := hv.asked
  obtain ⟨user', ⟨call', body', now', hmem', hrow'⟩, -⟩ := hv'.asked
  rw [← hid] at hmem' hrow'
  cases eq_of_uuid h hmem hmem' rfl rfl
  exact Except.ok.inj (hrow.symm.trans hrow')

/-! ### What the requests have checked -/

omit [LegalOfficers] in
theorem findRecovery_some {σ : Vaults} {id : UUID} (h : σ.findRecovery id = some r) :
    r ∈ σ.recoveries ∧ r.id = id :=
  ⟨List.mem_of_find?_eq_some h, by simpa using List.find?_some h⟩

omit [LegalOfficers] in
theorem findTransfer_some {σ : Vaults} {id : UUID} (h : σ.findTransfer id = some v) :
    v ∈ σ.transfers ∧ v.id = id :=
  ⟨List.mem_of_find?_eq_some h, by simpa using List.find?_some h⟩

theorem onNode_some {address : String} (h : onNode (some address) = true) :
    LegalOfficers.isLegalOfficerAddressOnNode (.polkadot address) = true := by
  obtain ⟨a, ha, hnode⟩ := (Option.any_eq_true _ _).mp h
  unfold nonEmpty at ha
  split_ifs at ha
  cases ha
  exact hnode

theorem createRequest_ok {uuid : UUID} {body : CreateAccountRecoveryRequestView} {now : Moment}
    (h : createRequest user uuid body now = .ok r) :
    LegalOfficers.isLegalOfficerAddressOnNode r.getLegalOfficer = true ∧
      r = newAccountRecoveryRequest {
        id := uuid
        requesterAddress := user.validAccountId.address
        requesterIdentityLoc := r.requesterIdentityLocId
        legalOfficerAddress := r.legalOfficerAddress
        otherLegalOfficerAddress := body.otherLegalOfficerAddress
        createdOn := now
        addressToRecover := body.addressToRecover } := by
  obtain ⟨legalOfficer, hofficer, h⟩ := bind_eq_ok.mp h
  obtain ⟨requesterIdentityLoc, -, h⟩ := bind_eq_ok.mp h
  cases h
  obtain ⟨hnode, haddress, -⟩ := LocRegistry.requireLegalOfficerAddressOnNode_ok hofficer
  rw [haddress] at hnode
  exact ⟨onNode_some hnode, rfl⟩

theorem createVaultTransferRequest_ok {uuid : UUID} {body : CreateVaultTransferRequestView}
    {now : Moment} (h : createVaultTransferRequest user uuid body now = .ok v) :
    LegalOfficers.isLegalOfficerAddressOnNode v.getLegalOfficer = true ∧
      body.origin = some v.origin ∧ body.destination = some v.destination ∧ v = {
        id := uuid
        requesterAddress := user.validAccountId.address
        legalOfficerAddress := v.legalOfficerAddress
        createdOn := now
        origin := v.origin
        destination := v.destination
        amount := body.amount
        blockNumber := body.block
        extrinsicIndex := body.index
        status := .pending
        decision := {} } := by
  obtain ⟨origin, horigin, h⟩ := bind_eq_ok.mp h
  obtain ⟨destination, hdestination, h⟩ := bind_eq_ok.mp h
  obtain ⟨legalOfficer, hofficer, h⟩ := bind_eq_ok.mp h
  cases h
  obtain ⟨hnode, haddress, -⟩ := LocRegistry.requireLegalOfficerAddressOnNode_ok hofficer
  rw [haddress] at hnode
  refine ⟨onNode_some hnode, ?_, ?_, rfl⟩
  · cases horigin' : body.origin with
    | none => rw [horigin'] at horigin; cases horigin
    | some a => rw [horigin'] at horigin; cases horigin; rfl
  · cases hdestination' : body.destination with
    | none => rw [hdestination'] at hdestination; cases hdestination
    | some a => rw [hdestination'] at hdestination; cases hdestination; rfl

omit [LegalOfficers] in
theorem identityStored_of_check {σ : Vaults} (h : σ.checkIdentityLoc requester r = .ok ()) :
    IdentityStored requester r σ := by
  unfold checkIdentityLoc at h
  split at h
  · cases h
  · next loc hloc =>
    have hmem : loc ∈ σ.locRequests := List.mem_of_find?_eq_some hloc
    obtain ⟨hvalid, -⟩ := refused_eq_ok.mp (mapError_eq_ok.mp h)
    obtain ⟨hidentity, hrequester, howner⟩ := not_not.mp hvalid
    exact ⟨loc, hmem, by simpa using List.find?_some hloc, hidentity, hrequester, howner⟩

omit [LegalOfficers] in
/-- The officers and the requester act on the row that they load. -/
theorem updateRecovery_ok {σ : Vaults} {action : RecoveryAction} {id : UUID} {now : Moment}
    (h : σ.updateRecovery user action id now = .ok r) :
    (action.isDecision = true → user.isLegalOfficerOnNode = true) ∧ ∃ item ∈ σ.recoveries,
      item.id = id ∧ (action.inNameOf user.validAccountId).Makes now item r := by
  obtain ⟨_, hdecision, h⟩ := bind_eq_ok.mp h
  obtain ⟨item, hitem, h⟩ := bind_eq_ok.mp h
  obtain ⟨hmem, hid⟩ := findRecovery_some (requireDefined_ok.mp (mapError_eq_ok.mp hitem))
  refine ⟨fun hisDecision => ?_, item, hmem, hid, AccountRecoveries.makes_of_mutate (mapError_eq_ok.mp h)⟩
  simpa [hisDecision] using AuthenticatedUser.require_ok.mp hdecision

omit [LegalOfficers] in
theorem updateTransfer_ok {σ : Vaults} {action : TransferAction} {id : UUID} {now : Moment}
    (h : σ.updateTransfer user action id now = .ok v) :
    (action.isDecision = true → user.isLegalOfficerOnNode = true) ∧ ∃ item ∈ σ.transfers,
      item.id = id ∧ action.mutate user.validAccountId now item = .ok v := by
  obtain ⟨_, hdecision, h⟩ := bind_eq_ok.mp h
  obtain ⟨item, hitem, h⟩ := bind_eq_ok.mp h
  obtain ⟨hmem, hid⟩ := findTransfer_some (requireDefined_ok.mp (mapError_eq_ok.mp hitem))
  refine ⟨fun hisDecision => ?_, item, hmem, hid, h⟩
  simpa [hisDecision] using AuthenticatedUser.require_ok.mp hdecision

/-! ### One action -/

section

variable {call : ℕ} {id : UUID} {now : Moment}

/-- A recovery that was accepted, rejected or cancelled. -/
theorem RecoveryFine.updated {action : RecoveryAction}
    (hfine : ∀ item ∈ (run step s events).recoveries, RecoveryFine s events item)
    (h : (run step s events).updateRecovery user action id now = .ok r) :
    RecoveryFine s (events ++ [.updateRecovery call user action id now]) r := by
  obtain ⟨hdecision, item, hitem, hid, hmakes⟩ := updateRecovery_ok h
  have hold := (hfine item hitem).concat (.updateRecovery call user action id now)
  have hacted : ∀ account found, user.validAccountId = account → found item.status →
      RecoveryActed s (events ++ [.updateRecovery call user action id now]) action account found id :=
    fun account found haccount hfound =>
      happened_now ⟨call, user, now, rfl, hdecision, haccount, item, hitem, hid, hfound⟩
  subst hid
  cases action with
  | accept =>
    obtain ⟨hofficer, haccept⟩ := hmakes
    obtain ⟨hpending, rfl⟩ := AccountRecoveries.accept_eq_ok.mp haccept
    exact ⟨hold.requested, .accepted (hacted _ _ hofficer hpending), hold.reason⟩
  | reject rejectReason =>
    obtain ⟨hofficer, hreject⟩ := hmakes
    obtain ⟨hpending, rfl⟩ := AccountRecoveries.reject_eq_ok.mp hreject
    refine ⟨hold.requested, .rejected ⟨rejectReason, hacted _ _ hofficer hpending⟩,
      fun reason hreason => ?_⟩
    cases hreason
    exact hacted _ _ hofficer hpending
  | cancel =>
    obtain ⟨hrequester, hcancel⟩ := hmakes
    obtain ⟨hactivated, rfl⟩ := AccountRecoveries.cancel_eq_ok hcancel
    have hcancelled := hacted _ (· ≠ .activated) hrequester hactivated
    refine ⟨hold.requested, ?_, hold.reason⟩
    have htold := hold.told
    show RecoveryTold _ _ _ (if item.status = .pending then _ else _)
    split_ifs with hpending hrejected
    · exact .cancelled hcancelled
    · rw [hrejected] at htold
      cases htold with
      | rejected h => exact .rejectedCancelled h hcancelled
    · exact .acceptedCancelled hcancelled

/-- A transfer that was accepted, rejected, cancelled or resubmitted. -/
theorem TransferFine.updated {action : TransferAction}
    (hfine : ∀ item ∈ (run step s events).transfers, TransferFine s events item)
    (h : (run step s events).updateTransfer user action id now = .ok v) :
    TransferFine s (events ++ [.updateTransfer call user action id now]) v := by
  obtain ⟨hdecision, item, hitem, hid, hmutate⟩ := updateTransfer_ok h
  have hold := (hfine item hitem).concat (.updateTransfer call user action id now)
  have hacted : ∀ account found, user.validAccountId = account → found item.status →
      TransferActed s (events ++ [.updateTransfer call user action id now]) action account found id :=
    fun account found haccount hfound =>
      happened_now ⟨call, user, now, rfl, hdecision, haccount, item, hitem, hid, hfound⟩
  subst hid
  cases action with
  | accept =>
    obtain ⟨hofficer, haccept⟩ := require_bind_ok.mp hmutate
    obtain ⟨hpending, haccept⟩ := refused_eq_ok.mp (mapError_eq_ok.mp haccept)
    cases haccept
    exact ⟨hold.requested, .accepted (hacted _ _ (of_decide_eq_true hofficer) (not_not.mp hpending)),
      hold.reason⟩
  | reject rejectReason =>
    obtain ⟨hofficer, hreject⟩ := require_bind_ok.mp hmutate
    obtain ⟨hpending, hreject⟩ := refused_eq_ok.mp (mapError_eq_ok.mp hreject)
    cases hreject
    have hrejected := hacted _ (· = .pending) (of_decide_eq_true hofficer) (not_not.mp hpending)
    refine ⟨hold.requested, .rejected hrejected, fun reason hreason => ?_⟩
    cases hreason
    exact hrejected
  | cancel =>
    obtain ⟨hrequester, hcancel⟩ := require_bind_ok.mp hmutate
    obtain ⟨hstatus, hcancel⟩ := refused_eq_ok.mp (mapError_eq_ok.mp hcancel)
    cases hcancel
    refine ⟨hold.requested, ?_, hold.reason⟩
    have htold := hold.told
    show TransferTold _ _ _ (if item.status = .pending then _ else _)
    split_ifs with hpending
    · exact .cancelled (hacted _ _ (of_decide_eq_true hrequester) hpending)
    · have hrejected : item.status = .rejected := by
        by_contra hne
        exact hstatus ⟨hpending, hne⟩
      rw [hrejected] at htold
      cases htold with
      | rejected h => exact .rejectedCancelled h (hacted _ _ (of_decide_eq_true hrequester) hrejected)
  | resubmit =>
    obtain ⟨-, hresubmit⟩ := require_bind_ok.mp hmutate
    obtain ⟨-, hresubmit⟩ := refused_eq_ok.mp (mapError_eq_ok.mp hresubmit)
    cases hresubmit
    exact ⟨hold.requested, .pending, fun reason hreason => by cases hreason⟩

/-- A request that was selected is activated. -/
theorem RecoveryFine.activated {signer : String} (h : (uuids events).Nodup) (hr : RecoveryFine s events r)
    (hselected : Selected s events signer r.id) : RecoveryFine s events r.setActivated := by
  obtain ⟨r₀, hrequested, hid, -, haccepted, hcreated⟩ := hselected
  obtain rfl : r₀ = r.asRequested := hrequested.unique h hr.requested hid
  exact ⟨hr.requested, .activated haccepted hcreated, hr.reason⟩

end

/-! ### Saves -/

/-- The columns that are written come from the instance, the others from the row. -/
theorem RecoveryFine.write {entity reread current : AccountRecoveryRequest} (h : (uuids events).Nodup)
    (he : RecoveryFine s events entity) (hr : RecoveryFine s events reread)
    (hc : RecoveryFine s events current) (hreread : reread.id = entity.id)
    (hcurrent : current.id = entity.id) : RecoveryFine s events (entity.write reread current) := by
  have hsame : (entity.write reread current).asRequested = current.asRequested :=
    AccountRecoveryRequest.write_asRequested (he.requested.unique h hr.requested hreread.symm)
  have hentity : entity.asRequested = current.asRequested :=
    he.requested.unique h hc.requested hcurrent.symm
  have htold := he.told
  have hreason := he.reason
  rw [hentity] at htold hreason
  refine ⟨hsame ▸ hc.requested, ?_, fun reason hwritten => ?_⟩
  · rw [hsame]
    show RecoveryTold _ _ _ (writeColumn entity.status reread.status current.status)
    rcases writeColumn_or entity.status reread.status current.status with heq | heq
    · rwa [heq]
    · rw [heq]
      exact hc.told
  · rw [hsame]
    have hcolumn : writeColumn entity.rejectReason reread.rejectReason current.rejectReason = some reason :=
      hwritten
    rcases writeColumn_or entity.rejectReason reread.rejectReason current.rejectReason with heq | heq
    · exact hreason reason (heq ▸ hcolumn)
    · exact hc.reason reason (heq ▸ hcolumn)

theorem TransferFine.write {entity reread current : VaultTransferRequest} {cleared : Bool}
    (h : (uuids events).Nodup) (he : TransferFine s events entity) (hr : TransferFine s events reread)
    (hc : TransferFine s events current) (hreread : reread.id = entity.id)
    (hcurrent : current.id = entity.id) :
    TransferFine s events (entity.write cleared reread current) := by
  have hsame : (entity.write cleared reread current).asRequested = current.asRequested :=
    VaultTransferRequest.write_asRequested (he.requested.unique h hr.requested hreread.symm)
  have hentity : entity.asRequested = current.asRequested :=
    he.requested.unique h hc.requested hcurrent.symm
  have htold := he.told
  have hreason := he.reason
  rw [hentity] at htold hreason
  refine ⟨hsame ▸ hc.requested, ?_, fun reason hwritten => ?_⟩
  · rw [hsame]
    show TransferTold _ _ _ (writeColumn entity.status reread.status current.status)
    rcases writeColumn_or entity.status reread.status current.status with heq | heq
    · rwa [heq]
    · rw [heq]
      exact hc.told
  · rw [hsame]
    cases cleared with
    | true => exact hc.reason reason hwritten
    | false =>
      have hcolumn : writeColumn entity.decision.rejectReason reread.decision.rejectReason
          current.decision.rejectReason = some reason := hwritten
      rcases writeColumn_or entity.decision.rejectReason reread.decision.rejectReason
        current.decision.rejectReason with heq | heq
      · exact hreason reason (heq ▸ hcolumn)
      · exact hc.reason reason (heq ▸ hcolumn)

omit [LegalOfficers] in
theorem execute_ok {ρ : Type} {clash : ρ → ρ → Prop} [DecidableRel clash] {statement : Table.Statement ρ}
    {rows rows' : List ρ} (h : execute clash statement rows = .ok rows') :
    Table.Consistent clash rows' ∧ rows' = statement.rows rows := by
  obtain ⟨hconsistent, rfl⟩ := Table.exec_ok.mp (mapError_eq_ok.mp h)
  exact ⟨hconsistent, rfl⟩

/-- What a save leaves in the table. -/
theorem recoveries_save {rows rows' : List AccountRecoveryRequest} {reread : Option AccountRecoveryRequest}
    (h : (uuids events).Nodup) (hrows : ∀ r ∈ rows, RecoveryFine s events r)
    (he : RecoveryFine s events r)
    (hr : ∀ r₀, reread = some r₀ → RecoveryFine s events r₀ ∧ r₀.id = r.id)
    (hsave : execute AccountRecoveryRequest.clash (saveRecovery r reread) rows = .ok rows') :
    ∀ r' ∈ rows', RecoveryFine s events r' := by
  obtain ⟨-, rfl⟩ := execute_ok hsave
  cases reread with
  | none =>
    refine Table.forall_rows hrows (fun r' _ hselects => by cases hselects) fun r' hr' => ?_
    rw [List.mem_singleton.mp hr']
    exact he
  | some r₀ =>
    obtain ⟨hreread, hid⟩ := hr r₀ rfl
    refine Table.forall_rows hrows (fun current hcurrent hselects r' hresult => ?_) fun r' hr' => by cases hr'
    cases hresult
    exact he.write h hreread (hrows current hcurrent) hid (of_decide_eq_true hselects)

theorem transfers_save {rows rows' : List VaultTransferRequest} {reread : Option VaultTransferRequest}
    {cleared : Bool} (h : (uuids events).Nodup) (hrows : ∀ v ∈ rows, TransferFine s events v)
    (he : TransferFine s events v)
    (hr : ∀ v₀, reread = some v₀ → TransferFine s events v₀ ∧ v₀.id = v.id)
    (hsave : execute VaultTransferRequest.clash (saveTransfer v cleared reread) rows = .ok rows') :
    ∀ v' ∈ rows', TransferFine s events v' := by
  obtain ⟨-, rfl⟩ := execute_ok hsave
  cases reread with
  | none =>
    refine Table.forall_rows hrows (fun v' _ hselects => by cases hselects) fun v' hv' => ?_
    rw [List.mem_singleton.mp hv']
    exact he
  | some v₀ =>
    obtain ⟨hreread, hid⟩ := hr v₀ rfl
    refine Table.forall_rows hrows (fun current hcurrent hselects v' hresult => ?_) fun v' hv' => by cases hv'
    cases hresult
    exact he.write h hreread (hrows current hcurrent) hid (of_decide_eq_true hselects)

/-! ### One step of a request -/

theorem RecoveryFine.requesting (hasked : RecoveryAsked events user r)
    (hstored : GoesOn s events (VaultPending.requests user.validAccountId r)
      (IdentityStored user.validAccountId r)) : RecoveryFine s events r := by
  obtain ⟨call, body, now, hmem, hrow⟩ := hasked
  obtain ⟨-, hr⟩ := createRequest_ok hrow
  have hrequested : r.asRequested = r := by
    rw [hr]
    rfl
  have hpending : r.status = .pending := by
    rw [hr]
    rfl
  refine ⟨?_, ?_, fun reason hreason => ?_⟩
  · rw [hrequested]
    exact ⟨user, ⟨call, body, now, hmem, hrow⟩, hstored⟩
  · rw [hpending]
    exact .pending
  · rw [hr] at hreason
    cases hreason

theorem TransferFine.identified (hasked : TransferAsked events user v)
    (hentitled : Entitled s events user.validAccountId v) (hprotected : Protected s events v)
    (hidentified : Identified s events v) : TransferFine s events v := by
  obtain ⟨call, body, now, hmem, hrow⟩ := hasked
  obtain ⟨-, -, -, hv⟩ := createVaultTransferRequest_ok hrow
  have hrequested : v.asRequested = v := by
    rw [hv]
    rfl
  have hpending : v.status = .pending := by
    rw [hv]
  refine ⟨?_, ?_, fun reason hreason => ?_⟩
  · rw [hrequested]
    exact ⟨⟨user, ⟨call, body, now, hmem, hrow⟩, hentitled⟩, hprotected, hidentified⟩
  · rw [hpending]
    exact .pending
  · rw [hv] at hreason
    cases hreason

omit [LegalOfficers] in
theorem getDescription_ok {d : AccountRecoveryRequestDescription} (h : r.getDescription = .ok d) :
    r.addressToRecover.map .polkadot = some d.addressToRecover ∧
      d.requesterIdentityLocId = r.requesterIdentityLocId := by
  obtain ⟨_, -, h⟩ := bind_eq_ok.mp h
  obtain ⟨addressToRecover, haddress, h⟩ := bind_eq_ok.mp h
  cases h
  rw [requireDefined_ok.mp haddress]
  exact ⟨rfl, rfl⟩

/-- The row that is found was activated. -/
theorem findActiveRecovery_ok {d : AccountRecoveryRequestDescription} {call : ℕ} {p : VaultPending}
    (hfine : ∀ r ∈ (run step s events).recoveries, RecoveryFine s events r)
    (hp : (run step s events).inFlight call = some p) (hpoint : p.authorizes v)
    (h : (run step s events).findActiveRecovery v = .ok (some d)) :
    ∃ r, ActiveRecovery s (events ++ [.resume call]) v r ∧ r.getDescription = .ok d := by
  unfold findActiveRecovery at h
  split at h
  · cases h
  · next r hr =>
    have hmem : r ∈ (run step s events).recoveries := List.mem_of_find?_eq_some hr
    have hfound := List.find?_some hr
    obtain ⟨hrequester, hofficer, hactivated⟩ := of_decide_eq_true hfound
    refine ⟨r, ⟨hrequester, hofficer, events, ⟨call, p, List.prefix_refl _, hp, hpoint⟩, hmem, hactivated,
      hfine r hmem⟩, ?_⟩
    obtain ⟨d', hd', heq⟩ := bind_eq_ok.mp (mapError_eq_ok.mp h)
    cases heq
    exact hd'

omit [LegalOfficers] in
theorem checkAuthorized_ok {σ : Vaults} {creation : TransferCreation}
    {activeRecovery : Option AccountRecoveryRequestDescription}
    (h : σ.checkAuthorized creation activeRecovery = .ok ()) :
    (activeRecovery.isSome ∨ (σ.getRecoveryConfig creation.row.getOrigin).isSome) ∧
      (creation.requester = creation.row.getOrigin ∨
        ∃ d, activeRecovery = some d ∧ creation.row.getOrigin = d.addressToRecover) := by
  obtain ⟨hprotected, h⟩ := refused_eq_ok.mp h
  have hentitled := AuthenticatedUser.require_ok.mp h
  constructor
  · by_contra hnot
    simp only [not_or, Bool.not_eq_true, Option.isSome_eq_false_iff] at hnot
    exact hprotected hnot
  · simpa [Option.any_eq_true, or_comm] using hentitled

omit [LegalOfficers] in
theorem checkIdentified_ok {σ : Vaults} {activeRecovery : Option AccountRecoveryRequestDescription}
    {loc : IdentityLoc} (h : σ.checkIdentified v activeRecovery = .ok loc) :
    loc ∈ σ.locRequests ∧ match activeRecovery with
      | some d => loc.root.id = d.requesterIdentityLocId
      | none => loc.root.isValidIdentityLoc = true ∧ loc.root.getRequester = some v.getOrigin ∧
        loc.root.getOwner = v.getLegalOfficer := by
  have hfound := requireDefined_ok.mp (mapError_eq_ok.mp h)
  cases activeRecovery with
  | some d => exact ⟨List.mem_of_find?_eq_some hfound, by simpa using List.find?_some hfound⟩
  | none =>
    obtain ⟨hmem, hloc⟩ := List.mem_filter.mp (List.mem_of_find?_eq_some hfound)
    obtain ⟨htype, hrequester, howner, hclosed⟩ := of_decide_eq_true hloc
    have hvoid : loc.root.getVoidInfo.isNone = true :=
      List.find?_some (p := fun loc : IdentityLoc => loc.root.getVoidInfo.isNone) hfound
    have hnotVoid : loc.root.isVoid = false := by
      by_contra hvoided
      simp [LocRequest.getVoidInfo, hvoided] at hvoid
    refine ⟨hmem, ?_, hrequester, howner⟩
    simp [LocRequest.isValidIdentityLoc, htype, hclosed, hnotVoid]

/-- The next request of the activation, or its next legal officer. -/
theorem ActivationFine.proceeds {a : Activation} {next : Option VaultPending} (h : (uuids events).Nodup)
    (hfine : ∀ r ∈ (run step s events).recoveries, RecoveryFine s events r)
    (ha : ActivationFine s events a) (hnext : (run step s events).activate a = .ok next) :
    ∀ p, next = some p → PendingFine s events p := by
  obtain ⟨signer, requests, legalOfficers⟩ := a
  obtain ⟨⟨call, all, hmem, hsub⟩, hselected⟩ := ha
  cases requests with
  | cons id requests =>
    obtain ⟨item, hitem, hnext⟩ := bind_eq_ok.mp hnext
    cases hnext
    obtain ⟨hstored, rfl⟩ := findRecovery_some (requireDefined_ok.mp (mapError_eq_ok.mp hitem))
    rintro p ⟨⟩
    refine ⟨(hfine item hstored).activated h (hselected _ List.mem_cons_self), ?_⟩
    rintro a ⟨⟩
    exact ⟨⟨call, all, hmem, hsub⟩, fun id hid => hselected id (List.mem_cons_of_mem _ hid)⟩
  | nil =>
    cases legalOfficers with
    | nil =>
      cases hnext
      intro p hp
      cases hp
    | cons legalOfficer legalOfficers =>
      obtain ⟨hofficer, hothers⟩ := List.cons_subset.mp hsub
      simp only [activate] at hnext
      split_ifs at hnext
      · cases hnext
        rintro p ⟨⟩
        refine ⟨⟨call, all, hmem, hothers⟩, fun id hid => ?_⟩
        obtain ⟨r, hr, rfl⟩ := List.mem_map.mp hid
        obtain ⟨hstored, hr⟩ := List.mem_filter.mp hr
        obtain ⟨hsigner, hlegalOfficer, haccepted⟩ := of_decide_eq_true hr
        have hr := hfine r hstored
        have htold := hr.told
        rw [haccepted] at htold
        cases htold with
        | accepted hofficerAccepted =>
          refine ⟨r.asRequested, hr.requested, rfl, hsigner, hofficerAccepted, call, all, ?_, ?_⟩
          · exact hsigner ▸ hmem
          · exact hlegalOfficer ▸ hofficer
      · cases hnext
        rintro p ⟨⟩
        exact ⟨⟨call, all, hmem, hothers⟩, hselected⟩

theorem Inv.concat {σ : Vaults} (h : Inv s events σ) (e : VaultEvent) : Inv s (events ++ [e]) σ :=
  ⟨fun r hr => (h.recoveries r hr).concat e, fun v hv => (h.transfers v hv).concat e,
    fun id p hp => (h.inFlight id p hp).concat e, h.timepoints⟩

/-- A request goes on. -/
theorem Inv.proceeds {p : VaultPending} {σ : Vaults} {next : Option VaultPending} {call : ℕ}
    (hinv : Inv s events (run step s events)) (h : (uuids events).Nodup)
    (hcall : (run step s events).inFlight call = some p)
    (hproceed : (run step s events).proceed p = .ok (σ, next)) :
    Inv s (events ++ [.resume call]) σ ∧
      ∀ p', next = some p' → PendingFine s (events ++ [.resume call]) p' := by
  have hp := hinv.inFlight call p hcall
  have hinv' := hinv.concat (.resume call)
  cases p with
  | requesting requester row =>
    obtain ⟨user, hasked, rfl⟩ := hp
    obtain ⟨_, hcheck, hproceed⟩ := bind_eq_ok.mp hproceed
    cases hproceed
    refine ⟨hinv', ?_⟩
    rintro p' ⟨⟩
    refine ⟨.requesting (hasked.concat _)
      (goesOn_now hcall ⟨rfl, rfl⟩ (identityStored_of_check hcheck)), ?_⟩
    rintro a ⟨⟩
  | authorizing creation =>
    obtain ⟨activeRecovery, hfound, hproceed⟩ := bind_eq_ok.mp hproceed
    cases hproceed
    refine ⟨hinv', ?_⟩
    rintro p' ⟨⟩
    refine ⟨hp.concat (.resume call), ?_⟩
    rintro d rfl
    exact findActiveRecovery_ok hinv.recoveries hcall rfl hfound
  | protecting creation activeRecovery =>
    obtain ⟨⟨user, hasked, hrequester⟩, hactive⟩ := hp.concat (.resume call)
    obtain ⟨_, hcheck, hproceed⟩ := bind_eq_ok.mp hproceed
    cases hproceed
    obtain ⟨hprotected, hentitled⟩ := checkAuthorized_ok hcheck
    refine ⟨hinv', ?_⟩
    rintro p' ⟨⟩
    refine ⟨⟨user, hasked, ?_⟩, ?_, hactive⟩
    · rcases hentitled with hown | ⟨d, hd, hrecovered⟩
      · exact .inl (hrequester ▸ hown)
      · obtain ⟨r, hr, hdescription⟩ := hactive d hd
        have haddress := (getDescription_ok hdescription).1
        rw [← hrecovered] at haddress
        obtain ⟨address, haddress, heq⟩ := Option.map_eq_some_iff.mp haddress
        cases heq
        exact .inr ⟨r, hr, haddress⟩
    · rcases hprotected with hsome | hconfig
      · obtain ⟨d, hd⟩ := Option.isSome_iff_exists.mp hsome
        obtain ⟨r, hr, -⟩ := hactive d hd
        exact .inl ⟨r, hr⟩
      · exact .inr (goesOn_now hcall rfl hconfig)
  | identifying creation activeRecovery =>
    obtain ⟨⟨user, hasked, hentitled⟩, hprotected, hactive⟩ := hp.concat (.resume call)
    obtain ⟨loc, hcheck, hproceed⟩ := bind_eq_ok.mp hproceed
    cases hproceed
    obtain ⟨hmem, hloc⟩ := checkIdentified_ok hcheck
    refine ⟨hinv', ?_⟩
    rintro p' ⟨⟩
    refine TransferFine.identified hasked hentitled hprotected ?_
    cases activeRecovery with
    | none => exact .inr (goesOn_now hcall rfl ⟨loc, hmem, hloc⟩)
    | some d =>
      obtain ⟨r, hr, hdescription⟩ := hactive d rfl
      exact .inl ⟨r, hr, goesOn_now hcall rfl ⟨loc, hmem, hloc.trans (getDescription_ok hdescription).2⟩⟩
  | savingTransfer row cleared =>
    cases hproceed
    refine ⟨hinv', ?_⟩
    rintro p' ⟨⟩
    refine ⟨hp.concat (.resume call), fun v hv => ?_⟩
    obtain ⟨hmem, hid⟩ := findTransfer_some hv
    exact ⟨hinv'.transfers v hmem, hid⟩
  | writingTransfer row cleared reread =>
    obtain ⟨transfers, hsave, hproceed⟩ := bind_eq_ok.mp hproceed
    cases hproceed
    have htransfers := transfers_save h hinv.transfers hp.1 hp.2 hsave
    refine ⟨⟨hinv'.recoveries, fun v hv => (htransfers v hv).concat _, hinv'.inFlight,
      (execute_ok hsave).1⟩, ?_⟩
    rintro p' ⟨⟩
  | savingRecovery row next =>
    cases hproceed
    refine ⟨hinv', ?_⟩
    rintro p' ⟨⟩
    obtain ⟨hrow, hnext⟩ := hp.concat (.resume call)
    refine ⟨hrow, fun r hr => ?_, hnext⟩
    obtain ⟨hmem, hid⟩ := findRecovery_some hr
    exact ⟨hinv'.recoveries r hmem, hid⟩
  | writingRecovery row reread next =>
    obtain ⟨recoveries, hsave, hproceed⟩ := bind_eq_ok.mp hproceed
    cases hproceed
    have hrecoveries := recoveries_save h hinv.recoveries hp.1 hp.2.1 hsave
    refine ⟨⟨fun r hr => (hrecoveries r hr).concat _, hinv'.transfers, hinv'.inFlight,
      hinv'.timepoints⟩, fun p' hp' => ?_⟩
    obtain ⟨a, ha, rfl⟩ := Option.map_eq_some_iff.mp hp'
    exact (hp.2.2 a ha).concat _
  | activating a =>
    obtain ⟨next, hnext, hproceed⟩ := bind_eq_ok.mp hproceed
    cases hproceed
    exact ⟨hinv', fun p' hp' => (ActivationFine.proceeds h hinv.recoveries hp hnext p' hp').concat _⟩

/-! ### One event -/

theorem Inv.moved {σ : Vaults} {next : Option VaultPending} (h : Inv s events σ) (id : ℕ)
    (hnext : ∀ p, next = some p → PendingFine s events p) : Inv s events (σ.moved id next) := by
  refine ⟨h.recoveries, h.transfers, fun id' p hp => ?_, h.timepoints⟩
  by_cases heq : id' = id
  · subst heq
    exact hnext p (by simpa [Vaults.moved] using hp)
  · exact h.inFlight id' p (by simpa [Vaults.moved, heq] using hp)

/-- A request starts, or throws at once. -/
theorem Inv.begins {α : Type} {x : Except ApiErr α} {f : α → VaultPending} {id : ℕ}
    (h : Inv s events (run step s events))
    (hstep : step (run step s events) e =
      x >>= fun a => .ok ((run step s events).moved id (some (f a))))
    (hnext : ∀ a, x = .ok a → PendingFine s (events ++ [e]) (f a)) :
    Inv s (events ++ [e]) (attempt step (run step s events) e) := by
  cases x with
  | error refusal =>
    rw [attempt_of_error hstep]
    exact h.concat e
  | ok a =>
    rw [attempt_of_ok hstep]
    refine (h.concat e).moved id ?_
    rintro p ⟨⟩
    exact hnext a rfl

theorem inv_step (h : (uuids events).Nodup) (hinv : Inv s events (run step s events)) (e : VaultEvent) :
    Inv s (events ++ [e]) (attempt step (run step s events) e) := by
  have hmem : e ∈ events ++ [e] := List.mem_append_right _ List.mem_cons_self
  cases e with
  | createRequest id user uuid body now =>
    refine hinv.begins (x := createRequest user uuid body now)
      (f := .requesting user.validAccountId) rfl fun row hrow => ?_
    have hid : row.id = uuid := by
      rw [(createRequest_ok hrow).2]
      rfl
    subst hid
    exact ⟨user, ⟨id, body, now, hmem, hrow⟩, rfl⟩
  | createVaultTransferRequest id user uuid body now =>
    refine hinv.begins (x := createVaultTransferRequest user uuid body now)
      (f := fun row => .authorizing ⟨user.validAccountId, row⟩) rfl fun row hrow => ?_
    have hid : row.id = uuid := by
      rw [(createVaultTransferRequest_ok hrow).2.2.2]
    subst hid
    exact ⟨user, ⟨id, body, now, hmem, hrow⟩, rfl⟩
  | updateRecovery id user action requestId now =>
    refine hinv.begins (x := (run step s events).updateRecovery user action requestId now)
      (f := fun row => .savingRecovery row none) rfl fun row hrow => ?_
    refine ⟨RecoveryFine.updated hinv.recoveries hrow, ?_⟩
    rintro a ⟨⟩
  | updateTransfer id user action requestId now =>
    exact hinv.begins (x := (run step s events).updateTransfer user action requestId now)
      (f := fun row => .savingTransfer row action.isCleared) rfl
      fun row hrow => TransferFine.updated hinv.transfers hrow
  | createRecovery id signer legalOfficers =>
    rw [attempt_of_ok rfl]
    refine (hinv.concat _).moved id ?_
    rintro p ⟨⟩
    exact ⟨⟨id, legalOfficers, hmem, List.Subset.refl _⟩, fun request hrequest => by cases hrequest⟩
  | resume id =>
    cases hp : (run step s events).inFlight id with
    | none =>
      have hstep : step (run step s events) (.resume id) = .ok (run step s events) := by
        simp only [step, hp]
        rfl
      rw [attempt_of_ok hstep]
      exact hinv.concat _
    | some p =>
      cases hproceed : (run step s events).proceed p with
      | error refusal =>
        have hstep : step (run step s events) (.resume id) = .ok ((run step s events).moved id none) := by
          simp only [step, hp, hproceed]
          rfl
        rw [attempt_of_ok hstep]
        exact (hinv.concat _).moved id fun p hp => by cases hp
      | ok result =>
        obtain ⟨σ, next⟩ := result
        have hstep : step (run step s events) (.resume id) = .ok (σ.moved id next) := by
          simp only [step, hp, hproceed]
          rfl
        obtain ⟨hσ, hnext⟩ := hinv.proceeds h hp hproceed
        rw [attempt_of_ok hstep]
        exact hσ.moved id hnext
  | fail id =>
    rw [attempt_of_ok rfl]
    exact (hinv.concat _).moved id fun p hp => by cases hp
  | shuffle recoveries =>
    by_cases hperm : recoveries.Perm (run step s events).recoveries
    · have hstep : step (run step s events) (.shuffle recoveries) =
          .ok { run step s events with recoveries } := if_pos hperm
      rw [attempt_of_ok hstep]
      have hold := hinv.concat (.shuffle recoveries)
      exact ⟨fun r hr => hold.recoveries r (hperm.mem_iff.mp hr), hold.transfers, hold.inFlight,
        hold.timepoints⟩
    · have hstep : step (run step s events) (.shuffle recoveries) = .ok (run step s events) :=
        if_neg hperm
      rw [attempt_of_ok hstep]
      exact hinv.concat _
  | others locRequests getRecoveryConfig =>
    rw [attempt_of_ok rfl]
    have hold := hinv.concat (.others locRequests getRecoveryConfig)
    exact ⟨hold.recoveries, hold.transfers, hold.inFlight, hold.timepoints⟩

/-! ### Every run -/

variable {locRequests : List IdentityLoc} {getRecoveryConfig : AccountId → Option TypesRecoveryConfig}

theorem inv_start : Inv (start locRequests getRecoveryConfig) [] (start locRequests getRecoveryConfig) :=
  ⟨fun _ hr => (by cases hr), fun _ hv => (by cases hv), fun _ _ hp => (by cases hp), Table.consistent_nil⟩

/-- **The invariant of the vaults**, when `uuid()` never returns an identifier twice. -/
theorem inv_run (h : (uuids events).Nodup) :
    Inv (start locRequests getRecoveryConfig) events
      (run step (start locRequests getRecoveryConfig) events) := by
  refine history_induct (I := fun events σ => (uuids events).Nodup → Inv _ events σ)
    (fun _ => inv_start) (fun events e ih hnodup => ?_) events h
  have hevents : (uuids events).Nodup := by
    rw [uuids, List.filterMap_append] at hnodup
    exact (List.nodup_append.mp hnodup).1
  exact inv_step hevents (ih hevents) e

variable (s events) in
/-- The requester had recovered the origin, when his request looked it up: his recovery was accepted by
the legal officer of the transfer and he created it on chain, before it was active. -/
def Recovered (v : VaultTransferRequest) : Prop :=
  ∃ pre r, Authorizing s events v.asRequested pre ∧ r ∈ (run step s pre).recoveries ∧ r.status = .activated ∧
    r.requesterAddress = v.requesterAddress ∧ r.legalOfficerAddress = v.legalOfficerAddress ∧
    r.addressToRecover = some v.origin ∧ RecoveryRequested s pre r.asRequested ∧
    AcceptedByOfficer s pre r ∧ CreatedOnChain pre r

theorem ActiveRecovery.recovered (h : ActiveRecovery s events v.asRequested r)
    (horigin : r.addressToRecover = some v.origin) : Recovered s events v := by
  obtain ⟨pre, hpre, hmem, hactivated, hfine⟩ := h.stored
  have htold := hfine.told
  rw [hactivated] at htold
  cases htold with
  | activated haccepted hcreated =>
    exact ⟨pre, r, hpre, hmem, hactivated, h.requester, h.legalOfficer, horigin, hfine.requested,
      haccepted, hcreated⟩

/-- **Who transfers are requested by.**  Whatever the requests and the synchronizations of the node, and
however their steps interleave, a stored vault transfer was requested with these data by the owner of its
origin, or by somebody who had recovered that account with the same legal officer of the node; the
requester had an active recovery with that officer, or the origin a recovery configuration, and an identity
LOC was found; no other transfer has its block and extrinsic. -/
theorem transfer_authorized (events : List VaultEvent) (h : (uuids events).Nodup) {v : VaultTransferRequest}
    (hv : v ∈ (run step (start locRequests getRecoveryConfig) events).transfers) :
    (∃ user, TransferAsked events user v.asRequested ∧ user.validAccountId.address = v.requesterAddress ∧
        (user.validAccountId = v.getOrigin ∨ Recovered (start locRequests getRecoveryConfig) events v)) ∧
      LegalOfficers.isLegalOfficerAddressOnNode v.getLegalOfficer = true ∧
      Protected (start locRequests getRecoveryConfig) events v.asRequested ∧
      Identified (start locRequests getRecoveryConfig) events v.asRequested ∧
      ∀ v' ∈ (run step (start locRequests getRecoveryConfig) events).transfers,
        v'.blockNumber = v.blockNumber → v'.extrinsicIndex = v.extrinsicIndex → v' = v := by
  have hinv : Inv (start locRequests getRecoveryConfig) events _ := inv_run h
  obtain ⟨⟨user, hasked, hentitled⟩, hprotected, hidentified⟩ := (hinv.transfers v hv).requested
  obtain ⟨call, body, now, -, hrow⟩ := id hasked
  obtain ⟨hofficer, -, -, hdata⟩ := createVaultTransferRequest_ok hrow
  refine ⟨⟨user, hasked, (congrArg VaultTransferRequest.requesterAddress hdata).symm, ?_⟩, hofficer,
    hprotected, hidentified, fun v' hv' hblock hindex => ?_⟩
  · rcases hentitled with hown | ⟨r, hactive, hrecovers⟩
    · exact .inl hown
    · exact .inr (hactive.recovered hrecovers)
  · by_contra hne
    exact hinv.timepoints.forall hv' hv hne (.inr ⟨hblock, hindex⟩)

/-! ### What the statuses tell -/

theorem RecoveryTold.of_asRequested {status : AccountRecoveryStatus}
    (h : RecoveryTold s events r.asRequested status) : RecoveryTold s events r status := by
  cases h with
  | pending => exact .pending
  | accepted h => exact .accepted h
  | rejected h => exact .rejected h
  | activated h h' => exact .activated h h'
  | cancelled h => exact .cancelled h
  | rejectedCancelled h h' => exact .rejectedCancelled h h'
  | acceptedCancelled h => exact .acceptedCancelled h

theorem TransferTold.of_asRequested {status : VaultTransferRequestStatus}
    (h : TransferTold s events v.asRequested status) : TransferTold s events v status := by
  cases h with
  | pending => exact .pending
  | accepted h => exact .accepted h
  | rejected h => exact .rejected h
  | cancelled h => exact .cancelled h
  | rejectedCancelled h h' => exact .rejectedCancelled h h'

/-- **Who has decided.**  However the updates, the saves and the synchronizations interleave, the status
of a stored recovery or transfer was brought about by its own legal officer and its own requester, on a
row that had the status it takes, and a recovery is active when its requester has created it on chain
too; a reason of rejection is one that its legal officer has given. -/
theorem statuses_told (events : List VaultEvent) (h : (uuids events).Nodup) {σ : Vaults}
    (hσ : run step (start locRequests getRecoveryConfig) events = σ) :
    (∀ r ∈ σ.recoveries, RecoveryTold (start locRequests getRecoveryConfig) events r r.status ∧
        ∀ reason, r.rejectReason = some reason →
          RecoveryActed (start locRequests getRecoveryConfig) events (.reject reason) r.getLegalOfficer
            (· = .pending) r.id) ∧
      ∀ v ∈ σ.transfers, TransferTold (start locRequests getRecoveryConfig) events v v.status ∧
        ∀ reason, v.decision.rejectReason = some reason →
          TransferActed (start locRequests getRecoveryConfig) events (.reject reason) v.getLegalOfficer
            (· = .pending) v.id := by
  subst hσ
  have hinv : Inv (start locRequests getRecoveryConfig) events _ := inv_run h
  constructor
  · intro r hr
    have hfine := hinv.recoveries r hr
    exact ⟨hfine.told.of_asRequested, hfine.reason⟩
  · intro v hv
    have hfine := hinv.transfers v hv
    exact ⟨hfine.told.of_asRequested, hfine.reason⟩

end Vaults

/-! ### A run -/

/-- `olivia` is the legal officer of the node. -/
@[reducible] def oliviaNode : LegalOfficers where
  isLegalOfficerAddressOnNode account := account = .polkadot "olivia"

def olivia : AuthenticatedUser where
  validAccountId := .polkadot "olivia"
  isLegalOfficerOnNode := true

/-- `alice` has an identity LOC with `olivia`. -/
def aliceIdentity : IdentityLoc where
  root := {
    id := "i1", status := .closed, requester := some (.polkadot "alice"), ownerAddress := "olivia"
    locType := .identity }
  userIdentity := none
  userPostalAddress := none

def aliceRecovers : VaultEvent :=
  .createRequest 0 aliceUser "r1" ⟨some "i1", some "olivia", "oscar", "bob"⟩ 1

def aliceTransfers : VaultEvent :=
  .createVaultTransferRequest 3 aliceUser "t1" ⟨some "bob", some "carol", some "olivia", 100, 7, 1⟩ 3

/-- `alice` recovers the account of `bob`, and requests a transfer from its vault. -/
def recoveredEvents : List VaultEvent :=
  aliceRecovers :: List.replicate 3 (.resume 0) ++
    .updateRecovery 1 olivia .accept "r1" 2 :: List.replicate 2 (.resume 1) ++
    .createRecovery 2 "alice" ["olivia", "oscar"] :: List.replicate 6 (.resume 2) ++
    aliceTransfers :: List.replicate 6 (.resume 3)

def bobRecovery : AccountRecoveryRequest where
  id := "r1"
  addressToRecover := some "bob"
  createdOn := some 1
  requesterAddress := "alice"
  requesterIdentityLocId := "i1"
  status := .activated
  decisionOn := some 2
  rejectReason := none
  legalOfficerAddress := "olivia"
  otherLegalOfficerAddress := "oscar"

def bobTransfer : VaultTransferRequest where
  id := "t1"
  requesterAddress := "alice"
  legalOfficerAddress := "olivia"
  createdOn := 3
  origin := "bob"
  destination := "carol"
  amount := 100
  blockNumber := 7
  extrinsicIndex := 1
  status := .pending
  decision := {}

/-- Before, no recovery configuration is on chain. -/
def aliceStart : Vaults := Vaults.start [aliceIdentity] fun _ => none

section

attribute [local instance] oliviaNode

theorem recovered_rows : (run Vaults.step aliceStart recoveredEvents).recoveries = [bobRecovery] ∧
    (run Vaults.step aliceStart recoveredEvents).transfers = [bobTransfer] := by
  decide +kernel

theorem transfer_authorized_alice :
    (run Vaults.step aliceStart recoveredEvents).transfers = [bobTransfer] ∧
      Vaults.Recovered aliceStart recoveredEvents bobTransfer := by
  have hmem : bobTransfer ∈ (run Vaults.step aliceStart recoveredEvents).transfers := by
    rw [recovered_rows.2]
    exact List.mem_singleton_self _
  obtain ⟨⟨user, -, haddress, hentitled⟩, -⟩ :=
    Vaults.transfer_authorized recoveredEvents (by decide) hmem
  refine ⟨recovered_rows.2, hentitled.resolve_left fun hown => ?_⟩
  rw [hown] at haddress
  exact absurd haddress (by decide)

theorem statuses_told_alice :
    (run Vaults.step aliceStart recoveredEvents).recoveries = [bobRecovery] ∧
      Vaults.RecoveryTold aliceStart recoveredEvents bobRecovery .activated := by
  have hrun : run Vaults.step (Vaults.start [aliceIdentity] fun _ => none) recoveredEvents =
      run Vaults.step aliceStart recoveredEvents := rfl
  obtain ⟨hrecoveries, -⟩ := Vaults.statuses_told recoveredEvents (by decide) hrun
  have hmem : bobRecovery ∈ (run Vaults.step aliceStart recoveredEvents).recoveries := by
    rw [recovered_rows.1]
    exact List.mem_singleton_self _
  exact ⟨recovered_rows.1, (hrecoveries bobRecovery hmem).1⟩

end

end Logion
