import Logion.Store.LocTables
import Mathlib.Data.Fintype.Basic

/-!
# SecretRecovery — recoverable secrets (`secret_recovery.model.ts`, `secret_recovery.controller.ts`)

A request is accepted or rejected by the owner of the identity LOC, and then its secret is downloaded
with the challenge, by any number of concurrent calls.  `update` loads the request, hands it to a
mutator and saves it, in a transaction of its own; the value is looked up once it has committed.

* `canDownload`, `markDownloaded`: the check, and the mark that makes a second download fail.
* `System`, `step`: the row of the request, the calls, and what a call does next.
* `DeliveredOnce`: what is delivered, in terms of what has been committed and returned.
* `deliveredOnce_run`: it holds along the runs in which no commit overtakes a call that has loaded the
  row, no download falls in the day that the rounding adds or is still under way when its time is over,
  and the secret is there.
-/

namespace Logion

open Fallible ReadCommitted

/-! ### Requests -/

inductive SecretRecoveryRequestStatus
  | pending
  | rejected
  | accepted
  deriving DecidableEq, Repr

/-- `SecretRecoveryRequestAggregateRoot`, a row of `secret_recovery_request`; the columns of
`LegalOfficerDecision` are its own. -/
structure SecretRecoveryRequest where
  id : UUID
  requesterIdentityLocId : UUID
  legalOfficerAddress : String
  secretName : String
  challenge : String
  status : SecretRecoveryRequestStatus
  decisionOn : Option Moment
  rejectReason : Option String
  downloaded : Bool
  deriving DecidableEq

/-- `NewSecretRecoveryRequestParams`. -/
structure NewSecretRecoveryRequestParams where
  id : UUID
  requesterIdentityLocId : UUID
  secretName : String
  challenge : String
  legalOfficerAddress : String
  deriving DecidableEq

def newSecretRecoveryRequest (params : NewSecretRecoveryRequestParams) : SecretRecoveryRequest where
  id := params.id
  requesterIdentityLocId := params.requesterIdentityLocId
  legalOfficerAddress := params.legalOfficerAddress
  secretName := params.secretName
  challenge := params.challenge
  status := .pending
  decisionOn := none
  rejectReason := none
  downloaded := false

def SECRET_EXPIRATION_DAYS : ℕ := 7

/-- The milliseconds of 24 hours. -/
def dayMilliseconds : ℕ := 86400000

/-- The time zone of the server: its offset from UTC at a moment, in minutes. -/
class ServerTimeZone where
  utcOffset : Moment → ℤ

/-- `now.diff(other, "days")` of moment.js: days of 24 hours between the local times, truncated toward
zero. -/
def diffDays [ServerTimeZone] (now other : Moment) : ℤ :=
  ((now : ℤ) - other - (ServerTimeZone.utcOffset other - ServerTimeZone.utcOffset now) * 60000).tdiv
    dayMilliseconds

namespace SecretRecoveryRequest

def reject (r : SecretRecoveryRequest) (reason : String) (decisionOn : Moment) :
    Except Err SecretRecoveryRequest :=
  if r.status ≠ .pending then throw (.error "Request is not pending")
  else return { r with
    status := .rejected, decisionOn := some decisionOn, rejectReason := some reason }

def accept (r : SecretRecoveryRequest) (decisionOn : Moment) : Except Err SecretRecoveryRequest :=
  if r.status ≠ .pending then throw (.error "Request is not pending")
  else return { r with status := .accepted, decisionOn := some decisionOn }

def canDownload [ServerTimeZone] (r : SecretRecoveryRequest) (now : Moment) (challenge : String) :
    Bool :=
  r.status = .accepted && r.challenge = challenge && !r.downloaded &&
    r.decisionOn.any fun decisionOn => diffDays now decisionOn ≤ SECRET_EXPIRATION_DAYS

def markDownloaded [ServerTimeZone] (r : SecretRecoveryRequest) (now : Moment) (challenge : String)
    (downloaded : Bool) : Except Err SecretRecoveryRequest :=
  if !r.canDownload now challenge then throw (.error "Cannot download")
  else return { r with downloaded := downloaded }

/-- The row after the UPDATE of a save; the primary key is never written. -/
def write (entity reread current : SecretRecoveryRequest) : SecretRecoveryRequest where
  id := current.id
  requesterIdentityLocId := writeColumn entity.requesterIdentityLocId reread.requesterIdentityLocId
    current.requesterIdentityLocId
  legalOfficerAddress :=
    writeColumn entity.legalOfficerAddress reread.legalOfficerAddress current.legalOfficerAddress
  secretName := writeColumn entity.secretName reread.secretName current.secretName
  challenge := writeColumn entity.challenge reread.challenge current.challenge
  status := writeColumn entity.status reread.status current.status
  decisionOn := writeColumn entity.decisionOn reread.decisionOn current.decisionOn
  rejectReason := writeColumn entity.rejectReason reread.rejectReason current.rejectReason
  downloaded := writeColumn entity.downloaded reread.downloaded current.downloaded

section

variable {r r' : SecretRecoveryRequest} {now : Moment}

theorem accept_eq_ok : r.accept now = .ok r' ↔
    r.status = .pending ∧ r' = { r with status := .accepted, decisionOn := some now } := by
  rw [accept, refused_eq_ok, not_not, pure_eq_ok, Except.ok.injEq, eq_comm (b := r')]

theorem reject_eq_ok {reason : String} : r.reject reason now = .ok r' ↔ r.status = .pending ∧
    r' = { r with status := .rejected, decisionOn := some now, rejectReason := some reason } := by
  rw [reject, refused_eq_ok, not_not, pure_eq_ok, Except.ok.injEq, eq_comm (b := r')]

theorem canDownload_iff [ServerTimeZone] {challenge : String} :
    r.canDownload now challenge = true ↔ r.status = .accepted ∧ r.challenge = challenge ∧
      r.downloaded = false ∧
      ∃ decisionOn, r.decisionOn = some decisionOn ∧ diffDays now decisionOn ≤ SECRET_EXPIRATION_DAYS := by
  simp [canDownload, Option.any_eq_true, and_assoc]

theorem markDownloaded_eq_ok [ServerTimeZone] {challenge : String} {downloaded : Bool} :
    r.markDownloaded now challenge downloaded = .ok r' ↔
      r.canDownload now challenge = true ∧ r' = { r with downloaded := downloaded } := by
  unfold markDownloaded
  cases h : r.canDownload now challenge with
  | false => simp [throw, throwThe, MonadExceptOf.throw]
  | true => simp [pure, Except.pure, eq_comm]

end

theorem write_self (entity current : SecretRecoveryRequest) : entity.write entity current = current := by
  simp [write]

end SecretRecoveryRequest

def LocRequest.secret (l : LocRequest) (name : String) : Option String :=
  (l.secrets.find? fun secret => secret.name = name).map RecoverableSecret.value

def LocRequest.getSecretOrThrow (l : LocRequest) (name : String) : Except Err String :=
  match l.secret name with
  | none => throw (.error ("There is no secret with name '" ++ name ++ "'"))
  | some value => return value

namespace SecretRecovery

/-! ### Calls -/

/-- A call of `acceptRequest`, `rejectRequest` or `downloadSecret`, with what it is given. -/
inductive Call
  | accept (authenticatedUser : AccountId)
  | reject (authenticatedUser : AccountId) (rejectReason : String)
  | download (challenge : Option String)
  deriving DecidableEq

/-- What `downloadSecret` holds while it marks the request. -/
structure Delivery where
  request : SecretRecoveryRequest
  requesterIdentityLoc : LocRequest
  now : Moment

/-- Where a call is; `item` is the instance of `update`, once it was `loaded`, and a download is in
`update` with its `Delivery`. -/
inductive Phase
  | ready
  | requestFound (request : SecretRecoveryRequest)
  | locFound (d : Delivery)
  | loaded (d : Option Delivery) (item : SecretRecoveryRequest)
  | mutated (d : Option Delivery) (loaded item : SecretRecoveryRequest)
  | saving (d : Option Delivery) (loaded item reread : SecretRecoveryRequest)
  | updated (d : Option Delivery) (loaded item reread : SecretRecoveryRequest)
  | decided
  | marked (d : Delivery)
  | returned (value : String)
  | failed (e : Option Err)

/-- What has been committed, with the row before and after, and what has been returned and when. -/
inductive Event (ι : Type)
  | committed (t : ι) (before after : Option SecretRecoveryRequest)
  | returned (t : ι) (answeredOn : Moment) (value : String)
  deriving DecidableEq

def Event.isReturned {ι : Type} : Event ι → Bool
  | .committed .. => false
  | .returned .. => true

/-- The time, the LOCs as they are stored, the row of the request, the calls, and what has happened,
the last first. -/
structure System (ι : Type) where
  clock : Moment
  locs : UUID → Option LocRequest
  row : Version ι SecretRecoveryRequest
  phase : ι → Phase
  log : List (Event ι)

/-- Time passes, a LOC changes, a call is resumed, or a call fails before its commit. -/
inductive Op (ι : Type)
  | elapse (milliseconds : ℕ)
  | changeLoc (id : UUID) (loc : Option LocRequest)
  | resume (t : ι)
  | fail (t : ι)

/-- Why a call is not resumed. -/
inductive Idle
  | locked
  | ended
  deriving DecidableEq

variable {ι : Type} [DecidableEq ι]

/-- The call `t` is at `p`. -/
def System.moved (σ : System ι) (t : ι) (p : Phase) : System ι :=
  { σ with phase := Function.update σ.phase t p }

/-- The call `t` throws, and its transaction is rolled back. -/
def System.thrown (σ : System ι) (t : ι) (e : Option Err) : System ι :=
  { σ with row := σ.row.rollback t, phase := Function.update σ.phase t (.failed e) }

/-- `request => authenticatedUser.require(user => user.is(requesterIdentityLoc?.getOwner()))`. -/
def System.requireOwner (σ : System ι) (user : AccountId) (item : SecretRecoveryRequest) :
    Except (Option Err) Unit :=
  if (σ.locs item.requesterIdentityLocId).map LocRequest.getOwner = some user then return ()
  else throw none

section

variable [ServerTimeZone]

/-- The mutator that the call hands to `update`. -/
def System.mutate (σ : System ι) (item : SecretRecoveryRequest) :
    Call → Option Delivery → Except (Option Err) SecretRecoveryRequest
  | .accept user, _ => do
    σ.requireOwner user item
    (item.accept σ.clock).mapError some
  | .reject user rejectReason, _ => do
    σ.requireOwner user item
    (item.reject rejectReason σ.clock).mapError some
  | .download (some challenge), some d => (item.markDownloaded d.now challenge true).mapError some
  | .download _, _ => throw none

/-- `downloadSecret` answers an `Error` of `update` with `badRequest`. -/
def answered : Call → Option Err → Option Err
  | .download _, some (.error message) => some (.badRequest message)
  | _, e => e

variable (calls : ι → Call) (id : UUID)

/-- `findById` of `update`. -/
def System.load (σ : System ι) (t : ι) (d : Option Delivery) : System ι :=
  match σ.row.seenBy t with
  | none => σ.thrown t none
  | some item => σ.moved t (.loaded d item)

/-- The code of a call up to its next `await`. -/
def System.resume (σ : System ι) (t : ι) : Except Idle (System ι) :=
  match σ.phase t with
  | .ready =>
    match calls t with
    | .download none => return σ.thrown t (some (.badRequest "Missing challenge"))
    | .download (some _) =>
      match σ.row.seenBy t with
      | none => return σ.thrown t (some (.badRequest ("No request with ID " ++ id)))
      | some request => return σ.moved t (.requestFound request)
    | _ => return σ.load t none
  | .requestFound request =>
    match σ.locs request.requesterIdentityLocId with
    | none => return σ.thrown t (some (.error "Identity LOC not found"))
    | some loc => return σ.moved t (.locFound ⟨request, loc, σ.clock⟩)
  | .locFound d => return σ.load t (some d)
  | .loaded d item =>
    match σ.mutate item (calls t) d with
    | .error e => return σ.thrown t (answered (calls t) e)
    | .ok mutated => return σ.moved t (.mutated d item mutated)
  | .mutated d loaded item =>
    -- `save` reads the row again, by its primary key
    match σ.row.seenBy t with
    | none => throw .ended
    | some reread => return σ.moved t (.saving d loaded item reread)
  | .saving d loaded item reread =>
    if item = reread then return σ.moved t (.updated d loaded item reread)
    else if σ.row.lockedFor t then throw .locked
    else return { σ.moved t (.updated d loaded item reread) with
      row := σ.row.write t ((σ.row.seenBy t).map (item.write reread)) }
  | .updated d _ _ _ => return {
      σ.moved t (d.elim .decided .marked) with
      row := σ.row.commit t
      log := .committed t σ.row.committed (σ.row.seenBy t) :: σ.log }
  | .marked d =>
    match d.requesterIdentityLoc.getSecretOrThrow d.request.secretName with
    | .error e => return σ.thrown t (some e)
    | .ok value => return { σ.moved t (.returned value) with log := .returned t σ.clock value :: σ.log }
  | _ => throw .ended

/-- The call has not committed, and not ended. -/
def Phase.beforeCommit : Phase → Bool
  | .decided | .marked _ | .returned _ | .failed _ => false
  | _ => true

def step (σ : System ι) : Op ι → Except Idle (System ι)
  | .elapse milliseconds => return { σ with clock := σ.clock + milliseconds }
  | .changeLoc id loc => return { σ with locs := Function.update σ.locs id loc }
  | .resume t => σ.resume calls id t
  | .fail t => if (σ.phase t).beforeCommit then return σ.thrown t none else throw .ended

end

/-- The request is stored, and no call has started. -/
def start (clock : Moment) (locs : UUID → Option LocRequest) (request : SecretRecoveryRequest) :
    System ι where
  clock := clock
  locs := locs
  row := ⟨some request, none⟩
  phase _ := .ready
  log := []

/-! ### The contract -/

def Call.isDownload : Call → Bool
  | .download _ => true
  | _ => false

def Call.isAccept : Call → Bool
  | .accept _ => true
  | _ => false

/-- A committed acceptance, decided at `decisionOn`. -/
def Accepted (calls : ι → Call) (log : List (Event ι)) (decisionOn : Option Moment) : Prop :=
  ∃ u before after, .committed u before (some after) ∈ log ∧ (calls u).isAccept = true ∧
    after.status = .accepted ∧ after.decisionOn = decisionOn

/-- `now` is at most `SECRET_EXPIRATION_DAYS` times 24 hours after the decision. -/
def InTime (now decisionOn : Moment) : Prop :=
  now ≤ decisionOn + SECRET_EXPIRATION_DAYS * dayMilliseconds

instance (now decisionOn : Moment) : Decidable (InTime now decisionOn) :=
  inferInstanceAs (Decidable (_ ≤ _))

/-- **Delivered once.**  The value is returned at most once, with the challenge of the request, after it
was accepted and in time; a download that fails has committed no change. -/
structure DeliveredOnce (calls : ι → Call) (request : SecretRecoveryRequest) (σ : System ι) : Prop where
  once : (σ.log.filter Event.isReturned).length ≤ 1
  accepted : ∀ t now value, .returned t now value ∈ σ.log →
    calls t = .download (some request.challenge) ∧
      ∃ decisionOn, Accepted calls σ.log (some decisionOn) ∧ InTime now decisionOn
  unchanged : ∀ t before after, (calls t).isDownload = true → (∃ e, σ.phase t = .failed e) →
    .committed t before after ∈ σ.log → after = before

/-- A download that the check has let through, and that has not ended. -/
def Phase.isChecked : Phase → Bool
  | .mutated d _ _ | .saving d _ _ _ | .updated d _ _ _ => d.isSome
  | .marked _ => true
  | _ => false

section

variable [ServerTimeZone]

/-- `now` is before the eighth day after the decision, in days of 24 hours between the local times. -/
def BeforeEighthDay (now decisionOn : Moment) : Prop :=
  (now : ℤ) - decisionOn - (ServerTimeZone.utcOffset decisionOn - ServerTimeZone.utcOffset now) * 60000 <
    (SECRET_EXPIRATION_DAYS + 1) * dayMilliseconds

instance (now decisionOn : Moment) : Decidable (BeforeEighthDay now decisionOn) :=
  inferInstanceAs (Decidable (_ < _))

/-- Resuming the call `t` disturbs no delivery.  A download of an accepted request, with its challenge and
not marked yet, that has read the time before the eighth day is not checked after the seventh.  A call
commits while the row is still the one that it has loaded, and a download only if the LOC that it has
loaded holds the secret. -/
def UndisturbedAt (calls : ι → Call) (σ : System ι) (t : ι) : Phase → Prop
  | .loaded (some d) item =>
    item.status = .accepted → calls t = .download (some item.challenge) → item.downloaded = false →
      ∀ decisionOn ∈ item.decisionOn, BeforeEighthDay d.now decisionOn → InTime σ.clock decisionOn
  | .updated d loaded _ _ => (∀ r ∈ σ.row.committed, r = loaded) ∧
      ∀ δ ∈ d, (δ.requesterIdentityLoc.secret δ.request.secretName).isSome = true
  | _ => True

instance (calls : ι → Call) (σ : System ι) (t : ι) : ∀ p, Decidable (UndisturbedAt calls σ t p)
  | .loaded (some _) _ => inferInstanceAs (Decidable (_ → _))
  | .updated _ _ _ _ => inferInstanceAs (Decidable (_ ∧ _))
  | .loaded none _ | .ready | .requestFound _ | .locFound _ | .mutated _ _ _ | .saving _ _ _ _
  | .decided | .marked _ | .returned _ | .failed _ => .isTrue trivial

/-- The step disturbs no delivery.  The seventh day does not end while a download is between its check
and its answer. -/
def Undisturbed (calls : ι → Call) (σ : System ι) : Op ι → Prop
  | .elapse milliseconds => ∀ t, (σ.phase t).isChecked = true →
      ∀ r ∈ σ.row.committed, ∀ decisionOn ∈ r.decisionOn,
        InTime σ.clock decisionOn → InTime (σ.clock + milliseconds) decisionOn
  | .resume t => UndisturbedAt calls σ t (σ.phase t)
  | _ => True

instance [Fintype ι] (calls : ι → Call) (σ : System ι) : ∀ o, Decidable (Undisturbed calls σ o)
  | .elapse _ => inferInstanceAs (Decidable (∀ _, _))
  | .resume t => inferInstanceAs (Decidable (UndisturbedAt calls σ t (σ.phase t)))
  | .changeLoc _ _ | .fail _ => .isTrue trivial

/-- The truncated number of days is at most seven on the eighth day too. -/
theorem diffDays_le_iff {now decisionOn : Moment} :
    diffDays now decisionOn ≤ SECRET_EXPIRATION_DAYS ↔ BeforeEighthDay now decisionOn := by
  unfold diffDays BeforeEighthDay SECRET_EXPIRATION_DAYS dayMilliseconds
  generalize (now : ℤ) - decisionOn -
    (ServerTimeZone.utcOffset decisionOn - ServerTimeZone.utcOffset now) * 60000 = x
  rcases le_total 0 x with hx | hx
  · rw [Int.tdiv_eq_ediv_of_nonneg hx]
    omega
  · have hneg := Int.tdiv_le_tdiv (c := (86400000 : ℕ)) (by decide) hx
    rw [Int.zero_tdiv] at hneg
    omega

end

/-! ### Rows, one after the other -/

/-- A row that was stored at some time: no decision yet means no date and no download. -/
structure WellFormed (r : SecretRecoveryRequest) : Prop where
  decisionOn : r.status = .pending → r.decisionOn = none
  downloaded : r.status = .pending → r.downloaded = false

/-- `x` was stored at the time of `r` or before: the decision and the mark are never taken back. -/
structure Earlier (x r : SecretRecoveryRequest) : Prop where
  decided : x.status ≠ .pending → r.status = x.status ∧ r.decisionOn = x.decisionOn
  downloaded : x.downloaded = true → r.downloaded = true
  challenge : x.challenge = r.challenge

theorem Earlier.refl (r : SecretRecoveryRequest) : Earlier r r := ⟨fun _ => ⟨rfl, rfl⟩, id, rfl⟩

section

variable {x y r : SecretRecoveryRequest}

theorem Earlier.trans (h : Earlier x y) (h' : Earlier y r) : Earlier x r where
  decided hx := by
    obtain ⟨hs, hd⟩ := h.decided hx
    obtain ⟨hs', hd'⟩ := h'.decided (hs ▸ hx)
    exact ⟨hs'.trans hs, hd'.trans hd⟩
  downloaded hx := h'.downloaded (h.downloaded hx)
  challenge := h.challenge.trans h'.challenge

theorem Earlier.pending (h : Earlier x r) (hr : r.status = .pending) : x.status = .pending := by
  by_contra hx
  exact hx ((h.decided hx).1 ▸ hr)

theorem Earlier.not_downloaded (h : Earlier x r) (hr : r.downloaded = false) : x.downloaded = false := by
  cases hx : x.downloaded with
  | false => rfl
  | true => exact (h.downloaded hx).symm.trans hr

/-- The mutator of `call` made `item` of `x`. -/
inductive MadeOf (x : SecretRecoveryRequest) :
    Call → Option Delivery → SecretRecoveryRequest → Prop
  | accept {user : AccountId} {now : Moment} {d : Option Delivery} (hpending : x.status = .pending) :
      MadeOf x (.accept user) d { x with status := .accepted, decisionOn := some now }
  | reject {user : AccountId} {reason : String} {now : Moment} {d : Option Delivery}
      (hpending : x.status = .pending) : MadeOf x (.reject user reason) d
        { x with status := .rejected, decisionOn := some now, rejectReason := some reason }
  | download {d : Delivery} (haccepted : x.status = .accepted) (hunmarked : x.downloaded = false) :
      MadeOf x (.download (some x.challenge)) (some d) { x with downloaded := true }

/-- Between the reread and the commit: what was loaded, what was read again and what is stored. -/
structure Saving (call : Call) (d : Option Delivery) (loaded item reread r : SecretRecoveryRequest) :
    Prop where
  made : MadeOf loaded call d item
  readAgain : Earlier loaded reread
  wellFormed : WellFormed reread
  stored : Earlier reread r

variable {call : Call} {d : Option Delivery} {loaded item reread : SecretRecoveryRequest}

theorem Saving.earlier (h : Saving call d loaded item reread x) (hr : Earlier x r) :
    Saving call d loaded item reread r := ⟨h.made, h.readAgain, h.wellFormed, h.stored.trans hr⟩

/-- A decision is saved over the request that it has loaded. -/
theorem Saving.decide (h : Saving call d r item reread r) (hcall : call.isDownload = false)
    (hr : WellFormed r) :
    Earlier r (item.write reread r) ∧ WellFormed (item.write reread r) ∧
      (item.write reread r).downloaded = false ∧
      ((item.write reread r).status = .accepted → call.isAccept = true) := by
  have hpending : r.status = .pending := by
    cases h.made with
    | accept hpending | reject hpending => exact hpending
    | download => cases hcall
  have hreread := h.stored.pending hpending
  have hdown := hr.downloaded hpending
  have hrdown := h.wellFormed.downloaded hreread
  have hchallenge := h.stored.challenge
  cases h.made with
  | download => cases hcall
  | accept | reject =>
    refine ⟨⟨fun hne => absurd hpending hne, fun hd => ?_, ?_⟩, ⟨?_, ?_⟩, ?_, ?_⟩ <;>
      simp_all [SecretRecoveryRequest.write, writeColumn, Call.isAccept]

/-- A download is saved over the request that it has loaded. -/
theorem Saving.mark (h : Saving call d r item reread r) (hcall : call.isDownload = true) :
    (∃ δ, d = some δ) ∧ call = .download (some r.challenge) ∧ r.downloaded = false ∧
      r.status = .accepted ∧ Earlier r (item.write reread r) ∧ WellFormed (item.write reread r) ∧
      (item.write reread r).downloaded = true := by
  cases h.made with
  | accept | reject => cases hcall
  | @download δ haccepted hunmarked =>
    have hrdown := h.stored.not_downloaded hunmarked
    obtain ⟨hstatus, hdate⟩ := h.readAgain.decided (by simp [haccepted])
    have hchallenge := h.stored.challenge
    refine ⟨⟨δ, rfl⟩, rfl, hunmarked, haccepted, ⟨fun _ => ⟨?_, ?_⟩, fun _ => ?_, ?_⟩,
      ⟨?_, ?_⟩, ?_⟩ <;>
      simp_all [SecretRecoveryRequest.write, writeColumn]

end

/-! ### The invariant -/

/-- The call has committed. -/
def Phase.hasCommitted : Phase → Bool
  | .decided | .marked _ | .returned _ => true
  | _ => false

/-- The call has committed a download. -/
def Phase.delivering : Phase → Bool
  | .marked _ | .returned _ => true
  | _ => false

/-- The UPDATE of the call has run, if there is one. -/
def Phase.isUpdated : Phase → Bool
  | .updated .. => true
  | _ => false

/-- A download with the challenge, answered in time after an acceptance. -/
def Deliverable (calls : ι → Call) (challenge : String) (log : List (Event ι)) (t : ι)
    (answeredOn : Moment) : Prop :=
  calls t = .download (some challenge) ∧
    ∃ decisionOn, Accepted calls log (some decisionOn) ∧ InTime answeredOn decisionOn

/-- The request is accepted, and its seven days are not over. -/
def DecidedInTime (clock : Moment) (r : SecretRecoveryRequest) : Prop :=
  r.status = .accepted ∧ ∃ decisionOn, r.decisionOn = some decisionOn ∧ InTime clock decisionOn

theorem DecidedInTime.later {clock : Moment} {r r' : SecretRecoveryRequest} (h : DecidedInTime clock r)
    (hle : Earlier r r') : DecidedInTime clock r' := by
  obtain ⟨hstatus, decisionOn, hon, htime⟩ := h
  obtain ⟨hstatus', hon'⟩ := hle.decided (by simp [hstatus])
  exact ⟨hstatus'.trans hstatus, decisionOn, hon'.trans hon, htime⟩

/-- What a call relies on, when `r` is stored. -/
def PhaseInv (calls : ι → Call) (row : Version ι SecretRecoveryRequest) (r : SecretRecoveryRequest)
    (t : ι) : Phase → Prop
  | .loaded d item => d.isSome = (calls t).isDownload ∧ Earlier item r
  | .mutated d loaded item => d.isSome = (calls t).isDownload ∧ MadeOf loaded (calls t) d item ∧
      Earlier loaded r
  | .saving d loaded item reread => d.isSome = (calls t).isDownload ∧
      Saving (calls t) d loaded item reread r
  | .updated d loaded item reread => d.isSome = (calls t).isDownload ∧
      Saving (calls t) d loaded item reread r ∧
      (item = reread ∧ row.writtenBy t = false ∨ row.pending = some (t, some (item.write reread r)))
  | .marked d => (d.requesterIdentityLoc.secret d.request.secretName).isSome = true ∧
      calls t = .download (some r.challenge)
  | .requestFound _ | .locFound _ => (calls t).isDownload = true
  | .decided => (calls t).isDownload = false
  | _ => True

structure Inv (calls : ι → Call) (challenge : String) (σ : System ι) (r : SecretRecoveryRequest) :
    Prop where
  committed : σ.row.committed = some r
  wellFormed : WellFormed r
  sameChallenge : r.challenge = challenge
  accepted : r.status = .accepted → Accepted calls σ.log r.decisionOn
  undelivered : r.downloaded = false → ∀ t, (σ.phase t).delivering = false
  single : ∀ t u, (σ.phase t).delivering = true → (σ.phase u).delivering = true → t = u
  inTime : ∀ t, (σ.phase t).isChecked = true → DecidedInTime σ.clock r
  phase : ∀ t, PhaseInv calls σ.row r t (σ.phase t)
  unwritten : ∀ t, (σ.phase t).isUpdated = false → σ.row.writtenBy t = false
  committedBy : ∀ t before after, .committed t before after ∈ σ.log →
    (σ.phase t).hasCommitted = true
  returnedBy : ∀ t now value, .returned t now value ∈ σ.log → (σ.phase t = .returned value) ∧
    Deliverable calls challenge σ.log t now
  once : (σ.log.filter Event.isReturned).length ≤ 1

section

variable {calls : ι → Call} {challenge : String} {σ : System ι} {r r' : SecretRecoveryRequest}
  {t u : ι} {row row' : Version ι SecretRecoveryRequest} {log log' : List (Event ι)} {p : Phase}

omit [DecidableEq ι] in
theorem Accepted.mono {decisionOn : Option Moment} (h : Accepted calls log decisionOn)
    (hlog : ∀ e ∈ log, e ∈ log') : Accepted calls log' decisionOn := by
  obtain ⟨u, before, after, hmem, hrest⟩ := h
  exact ⟨u, before, after, hlog _ hmem, hrest⟩

omit [DecidableEq ι] in
theorem Deliverable.mono {now : Moment} (h : Deliverable calls challenge log t now)
    (hlog : ∀ e ∈ log, e ∈ log') : Deliverable calls challenge log' t now := by
  obtain ⟨hcall, decisionOn, haccepted, htime⟩ := h
  exact ⟨hcall, decisionOn, haccepted.mono hlog, htime⟩

/-- What another call relies on still holds; a row that it has locked has not changed. -/
theorem PhaseInv.keep (h : PhaseInv calls row r u p) (hne : u ≠ t) (hkeeps : KeepsOthers t row row')
    (hsame : ∀ w, row.pending = some (u, w) → r' = r) (hle : Earlier r r') :
    PhaseInv calls row' r' u p := by
  cases p with
  | ready | returned | failed => trivial
  | requestFound | locFound | decided => exact h
  | loaded d item => exact ⟨h.1, h.2.trans hle⟩
  | mutated d loaded item => exact ⟨h.1, h.2.1, h.2.2.trans hle⟩
  | saving d loaded item reread => exact ⟨h.1, h.2.earlier hle⟩
  | updated d loaded item reread =>
    obtain ⟨hd, hsaving, hwritten⟩ := h
    refine ⟨hd, hsaving.earlier hle, ?_⟩
    rcases hwritten with ⟨heq, hun⟩ | hpending
    · exact .inl ⟨heq, hkeeps.unwritten u hne hun⟩
    · rw [hsame _ hpending]
      exact .inr (hkeeps.pending u hne _ hpending)
  | marked d => exact ⟨h.1, hle.challenge ▸ h.2⟩

/-- **Step of a call.**  The call `t` goes to `p`, and what the others rely on is kept. -/
theorem Inv.stepped (h : Inv calls challenge σ r) (hkeeps : KeepsOthers t σ.row row')
    (hsame : ∀ u, u ≠ t → ∀ w, σ.row.pending = some (u, w) → r' = r)
    (hcommitted : row'.committed = some r') (hwf : WellFormed r') (hle : Earlier r r')
    (haccepted : r'.status = .accepted → Accepted calls log' r'.decisionOn)
    (hlog : ∀ e ∈ σ.log, e ∈ log') (hphase : PhaseInv calls row' r' t p)
    (hchecked : p.isChecked = true → DecidedInTime σ.clock r')
    (hunwritten : p.isUpdated = false → row'.writtenBy t = false)
    (hdelivering : p.delivering = true → r'.downloaded = true ∧
      ∀ u, u ≠ t → (σ.phase u).delivering = false)
    (hcommittedBy : ∀ u before after, .committed u before after ∈ log' →
      u ≠ t ∧ .committed u before after ∈ σ.log ∨ u = t ∧ p.hasCommitted = true)
    (hreturnedBy : ∀ u now value, .returned u now value ∈ log' →
      u ≠ t ∧ .returned u now value ∈ σ.log ∨
        u = t ∧ p = .returned value ∧ Deliverable calls challenge log' t now)
    (honce : (log'.filter Event.isReturned).length ≤ 1) :
    Inv calls challenge
      { σ with row := row', log := log', phase := Function.update σ.phase t p } r' where
  committed := hcommitted
  wellFormed := hwf
  sameChallenge := hle.challenge.symm.trans h.sameChallenge
  accepted := haccepted
  undelivered hr u := by
    by_cases hut : u = t
    · subst hut
      simp only [Function.update_self]
      cases hd : p.delivering with
      | false => rfl
      | true => exact ((hdelivering hd).1.symm.trans hr)
    · simp only [Function.update_of_ne hut]
      exact h.undelivered (hle.not_downloaded hr) u
  single u v hu hv := by
    by_cases hut : u = t <;> by_cases hvt : v = t
    · rw [hut, hvt]
    · subst hut
      simp only [Function.update_self] at hu
      simp [Function.update_of_ne hvt, (hdelivering hu).2 v hvt] at hv
    · subst hvt
      simp only [Function.update_self] at hv
      simp [Function.update_of_ne hut, (hdelivering hv).2 u hut] at hu
    · simp only [Function.update_of_ne hut] at hu
      simp only [Function.update_of_ne hvt] at hv
      exact h.single u v hu hv
  inTime u hu := by
    by_cases hut : u = t
    · subst hut
      simp only [Function.update_self] at hu
      exact hchecked hu
    · simp only [Function.update_of_ne hut] at hu
      exact (h.inTime u hu).later hle
  phase u := by
    by_cases hut : u = t
    · subst hut
      simpa only [Function.update_self] using hphase
    · simpa only [Function.update_of_ne hut] using (h.phase u).keep hut hkeeps (hsame u hut) hle
  unwritten u hu := by
    by_cases hut : u = t
    · subst hut
      simp only [Function.update_self] at hu
      exact hunwritten hu
    · simp only [Function.update_of_ne hut] at hu
      exact hkeeps.unwritten u hut (h.unwritten u hu)
  committedBy u before after hmem := by
    rcases hcommittedBy u before after hmem with ⟨hut, hold⟩ | ⟨rfl, hp⟩
    · simp only [Function.update_of_ne hut]
      exact h.committedBy u before after hold
    · simpa only [Function.update_self] using hp
  returnedBy u now value hmem := by
    rcases hreturnedBy u now value hmem with ⟨hut, hold⟩ | ⟨rfl, hp, hdel⟩
    · simp only [Function.update_of_ne hut]
      exact ⟨(h.returnedBy u now value hold).1, (h.returnedBy u now value hold).2.mono hlog⟩
    · simp only [Function.update_self]
      exact ⟨hp, hdel⟩
  once := honce

theorem Phase.hasCommitted_of_delivering (hp : p.delivering = true) : p.hasCommitted = true := by
  cases p <;> first | rfl | cases hp

/-- Nothing is committed. -/
theorem Inv.quiet (h : Inv calls challenge σ r) (hbefore : (σ.phase t).hasCommitted = false)
    (hkeeps : KeepsOthers t σ.row row') (hcommitted : row'.committed = σ.row.committed)
    (hphase : PhaseInv calls row' r t p) (hchecked : p.isChecked = true → DecidedInTime σ.clock r)
    (hunwritten : p.isUpdated = false → row'.writtenBy t = false) (hp : p.hasCommitted = false) :
    Inv calls challenge { σ with row := row', phase := Function.update σ.phase t p } r := by
  have hdelivering : p.delivering = true → p.hasCommitted = true := Phase.hasCommitted_of_delivering
  refine h.stepped hkeeps (fun _ _ _ _ => rfl) (hcommitted.trans h.committed) h.wellFormed
    (Earlier.refl r) h.accepted (fun _ he => he) hphase hchecked hunwritten
    (fun hd => absurd (hdelivering hd) (by simp [hp])) (fun u before after hmem => .inl ⟨?_, hmem⟩)
    (fun u now value hmem => .inl ⟨?_, hmem⟩) h.once
  · rintro rfl
    simp [h.committedBy u before after hmem] at hbefore
  · rintro rfl
    rw [(h.returnedBy u now value hmem).1] at hbefore
    cases hbefore

theorem Inv.thrown (h : Inv calls challenge σ r) (hbefore : (σ.phase t).hasCommitted = false)
    (e : Option Err) : Inv calls challenge (σ.thrown t e) r :=
  h.quiet hbefore (KeepsOthers.rollback t σ.row) Version.committed_rollback trivial
    (fun hc => by cases hc) (fun _ => Version.writtenBy_rollback) rfl

/-- The call does not touch the row. -/
theorem Inv.moved (h : Inv calls challenge σ r) (hbefore : (σ.phase t).hasCommitted = false)
    (hupdated : (σ.phase t).isUpdated = false) (hphase : PhaseInv calls σ.row r t p)
    (hchecked : p.isChecked = true → DecidedInTime σ.clock r) (hp : p.hasCommitted = false) :
    Inv calls challenge (σ.moved t p) r :=
  h.quiet hbefore (KeepsOthers.refl t σ.row) rfl hphase hchecked (fun _ => h.unwritten t hupdated) hp

/-! ### The steps of a call -/

section

variable [ServerTimeZone]

omit [DecidableEq ι] in
/-- What the mutator makes of the instance; a download is let through before the eighth day. -/
theorem madeOf_mutate {item item' : SecretRecoveryRequest} {call : Call} {d : Option Delivery}
    (hmutate : σ.mutate item call d = .ok item') : MadeOf item call d item' ∧
      ∀ δ ∈ d, call.isDownload = true →
        ∃ decisionOn, item.decisionOn = some decisionOn ∧ BeforeEighthDay δ.now decisionOn := by
  cases call with
  | accept user =>
    obtain ⟨-, -, haccept⟩ := bind_eq_ok.mp hmutate
    obtain ⟨hpending, rfl⟩ := SecretRecoveryRequest.accept_eq_ok.mp (mapError_eq_ok.mp haccept)
    exact ⟨.accept hpending, fun _ _ h => by cases h⟩
  | reject user reason =>
    obtain ⟨-, -, hreject⟩ := bind_eq_ok.mp hmutate
    obtain ⟨hpending, rfl⟩ := SecretRecoveryRequest.reject_eq_ok.mp (mapError_eq_ok.mp hreject)
    exact ⟨.reject hpending, fun _ _ h => by cases h⟩
  | download challenge =>
    cases challenge with
    | none => cases hmutate
    | some challenge =>
      cases d with
      | none => cases hmutate
      | some δ =>
        obtain ⟨hcan, rfl⟩ := SecretRecoveryRequest.markDownloaded_eq_ok.mp (mapError_eq_ok.mp hmutate)
        obtain ⟨hstatus, rfl, hunmarked, decisionOn, hon, hdays⟩ :=
          SecretRecoveryRequest.canDownload_iff.mp hcan
        refine ⟨.download hstatus hunmarked, fun _ hδ _ => ?_⟩
        cases hδ
        exact ⟨decisionOn, hon, diffDays_le_iff.mp hdays⟩

omit [DecidableEq ι] in
/-- A download that the check lets through is in time. -/
theorem MadeOf.inTime {loaded item : SecretRecoveryRequest} {d : Option Delivery}
    (h : MadeOf loaded (calls t) d item)
    (hbefore : ∀ δ ∈ d, (calls t).isDownload = true →
      ∃ decisionOn, loaded.decisionOn = some decisionOn ∧ BeforeEighthDay δ.now decisionOn)
    (hC : UndisturbedAt calls σ t (.loaded d loaded)) (hd : d.isSome = true)
    (hcall : d.isSome = (calls t).isDownload) : DecidedInTime σ.clock loaded := by
  generalize hcall' : calls t = call at h hbefore hcall
  cases h with
  | accept | reject => rw [hd] at hcall; cases hcall
  | @download δ haccepted hunmarked =>
    obtain ⟨decisionOn, hon, hdays⟩ := hbefore δ rfl rfl
    exact ⟨haccepted, decisionOn, hon, hC haccepted hcall' hunmarked decisionOn hon hdays⟩

end

/-- `findById` of `update`. -/
theorem Inv.load (h : Inv calls challenge σ r) (hbefore : (σ.phase t).hasCommitted = false)
    (hupdated : (σ.phase t).isUpdated = false) {d : Option Delivery}
    (hd : d.isSome = (calls t).isDownload) : Inv calls challenge (σ.load t d) r := by
  have hseen : σ.row.seenBy t = some r :=
    (Version.seenBy_of_not_written (h.unwritten t hupdated)).trans h.committed
  rw [System.load, hseen]
  exact h.moved hbefore hupdated ⟨hd, Earlier.refl r⟩ (fun hc => by cases hc) rfl

/-- What the call sees once its UPDATE has run. -/
theorem Inv.seenBy (h : Inv calls challenge σ r) {item reread : SecretRecoveryRequest}
    (hwritten : item = reread ∧ σ.row.writtenBy t = false ∨
      σ.row.pending = some (t, some (item.write reread r))) :
    σ.row.seenBy t = some (item.write reread r) := by
  rcases hwritten with ⟨rfl, hun⟩ | hpending
  · rw [Version.seenBy_of_not_written hun, h.committed, SecretRecoveryRequest.write_self]
  · simp [Version.seenBy, hpending]

/-- **Commit.** -/
theorem Inv.commit (h : Inv calls challenge σ r) {d : Option Delivery}
    {item reread : SecretRecoveryRequest} (hphase : σ.phase t = .updated d r item reread)
    (hsecret : ∀ δ ∈ d, (δ.requesterIdentityLoc.secret δ.request.secretName).isSome = true) :
    ∃ r', Inv calls challenge {
      σ.moved t (d.elim .decided .marked) with
      row := σ.row.commit t
      log := .committed t σ.row.committed (σ.row.seenBy t) :: σ.log } r' := by
  have hinv := h.phase t
  rw [hphase] at hinv
  obtain ⟨hd, hsaving, hwritten⟩ := hinv
  have hseen := h.seenBy hwritten
  have hsame : ∀ u, u ≠ t → ∀ w, σ.row.pending = some (u, w) → item.write reread r = r := by
    intro u hne w hpending
    rcases hwritten with ⟨rfl, -⟩ | hpending'
    · exact SecretRecoveryRequest.write_self item r
    · rw [hpending] at hpending'
      cases hpending'
      exact absurd rfl hne
  have hsub : ∀ e ∈ σ.log, e ∈ .committed t σ.row.committed (σ.row.seenBy t) :: σ.log :=
    fun e he => List.mem_cons_of_mem _ he
  have hcommittedBy : ∀ u before after,
      .committed u before after ∈ .committed t σ.row.committed (σ.row.seenBy t) :: σ.log →
        u ≠ t ∧ .committed u before after ∈ σ.log ∨
          u = t ∧ Phase.hasCommitted (d.elim .decided .marked) = true := by
    intro u before after hmem
    rcases List.mem_cons.mp hmem with heq | hold
    · cases heq
      exact .inr ⟨rfl, by cases d <;> rfl⟩
    · refine .inl ⟨?_, hold⟩
      rintro rfl
      have hc := h.committedBy u before after hold
      rw [hphase] at hc
      cases hc
  have hreturnedBy : ∀ u now value,
      .returned u now value ∈ .committed t σ.row.committed (σ.row.seenBy t) :: σ.log →
        u ≠ t ∧ .returned u now value ∈ σ.log := by
    intro u now value hmem
    have hold : Event.returned u now value ∈ σ.log := by simpa using hmem
    refine ⟨?_, hold⟩
    rintro rfl
    rw [(h.returnedBy u now value hold).1] at hphase
    cases hphase
  cases hcall : (calls t).isDownload with
  | false =>
    obtain ⟨hle, hwf, hdown, haccept⟩ := hsaving.decide hcall h.wellFormed
    obtain rfl : d = none := by simpa [hcall] using hd
    refine ⟨_, h.stepped (KeepsOthers.commit t σ.row) hsame
      (Version.committed_commit.trans hseen) hwf hle (fun hstatus => ?_) hsub hcall
      (fun hc => by cases hc) (fun _ => Version.writtenBy_commit) (fun hp => by cases hp) hcommittedBy
      (fun u now value hmem => .inl (hreturnedBy u now value hmem)) h.once⟩
    exact ⟨t, σ.row.committed, _, hseen ▸ List.mem_cons_self, haccept hstatus, hstatus, rfl⟩
  | true =>
    obtain ⟨⟨δ, rfl⟩, hgiven, hunmarked, hstatus, hle, hwf, hmark⟩ := hsaving.mark hcall
    have htime : DecidedInTime σ.clock r := h.inTime t (by rw [hphase]; rfl)
    refine ⟨_, h.stepped (KeepsOthers.commit t σ.row) hsame
      (Version.committed_commit.trans hseen) hwf hle (fun _ => ?_) hsub
      ⟨hsecret δ rfl, hle.challenge ▸ hgiven⟩ (fun _ => htime.later hle)
      (fun _ => Version.writtenBy_commit) (fun _ => ⟨hmark, fun u _ => h.undelivered hunmarked u⟩)
      hcommittedBy (fun u now value hmem => .inl (hreturnedBy u now value hmem)) h.once⟩
    rw [(hle.decided (by simp [hstatus])).2]
    exact (h.accepted hstatus).mono hsub

/-- **Answer.**  No other download has committed. -/
theorem Inv.answer (h : Inv calls challenge σ r) {d : Delivery} (hphase : σ.phase t = .marked d)
    (value : String) : Inv calls challenge
      { σ.moved t (.returned value) with log := .returned t σ.clock value :: σ.log } r := by
  have hinv := h.phase t
  rw [hphase] at hinv
  obtain ⟨hstatus, decisionOn, hon, htime⟩ := h.inTime t (by rw [hphase]; rfl)
  have hdel : Deliverable calls challenge σ.log t σ.clock :=
    ⟨h.sameChallenge ▸ hinv.2, decisionOn, hon ▸ h.accepted hstatus, htime⟩
  have hdelivering : (σ.phase t).delivering = true := by rw [hphase]; rfl
  have hothers : ∀ u, u ≠ t → (σ.phase u).delivering = false := by
    intro u hne
    cases hu : (σ.phase u).delivering with
    | false => rfl
    | true => exact absurd (h.single u t hu hdelivering) hne
  have hmark : r.downloaded = true := by
    cases hr : r.downloaded with
    | true => rfl
    | false => exact (h.undelivered hr t).symm.trans hdelivering
  have hnone : ∀ u now value, Event.returned u now value ∉ σ.log := by
    intro u now value hmem
    obtain ⟨hu, -⟩ := h.returnedBy u now value hmem
    have hut : u = t := h.single u t (by rw [hu]; rfl) hdelivering
    rw [hut, hphase] at hu
    cases hu
  have hempty : σ.log.filter Event.isReturned = [] := by
    rw [List.filter_eq_nil_iff]
    intro e he
    cases e with
    | committed => simp [Event.isReturned]
    | returned u now value => exact absurd he (hnone u now value)
  have hsub : ∀ e ∈ σ.log, e ∈ .returned t σ.clock value :: σ.log :=
    fun e he => List.mem_cons_of_mem _ he
  refine h.stepped (KeepsOthers.refl t σ.row) (fun _ _ _ _ => rfl) h.committed h.wellFormed
    (Earlier.refl r) (fun hr => (h.accepted hr).mono hsub) hsub trivial (fun hc => by cases hc)
    (fun _ => h.unwritten t (by rw [hphase]; rfl)) (fun _ => ⟨hmark, hothers⟩)
    (fun u before after hmem => ?_) (fun u now value' hmem => ?_) ?_
  · have hmem : Event.committed u before after ∈ σ.log := by simpa using hmem
    by_cases hut : u = t
    · exact .inr ⟨hut, rfl⟩
    · exact .inl ⟨hut, hmem⟩
  · rcases List.mem_cons.mp hmem with heq | hmem
    · cases heq
      exact .inr ⟨rfl, rfl, hdel.mono hsub⟩
    · exact absurd hmem (hnone u now value')
  · simp [List.filter_cons, hempty, Event.isReturned]

section

variable [ServerTimeZone] {id : UUID}

/-- A call is resumed. -/
theorem Inv.resume (h : Inv calls challenge σ r) (hC : Undisturbed calls σ (.resume t))
    {σ' : System ι} (hok : σ.resume calls id t = .ok σ') : ∃ r', Inv calls challenge σ' r' := by
  have hinv := h.phase t
  have hseen : (σ.phase t).isUpdated = false → σ.row.seenBy t = some r := fun hupdated =>
    (Version.seenBy_of_not_written (h.unwritten t hupdated)).trans h.committed
  cases hphase : σ.phase t with
  | ready =>
    have hbefore : (σ.phase t).hasCommitted = false := by rw [hphase]; rfl
    have hupdated : (σ.phase t).isUpdated = false := by rw [hphase]; rfl
    cases hcall : calls t with
    | accept | reject =>
      simp only [System.resume, hphase, hcall] at hok
      cases hok
      exact ⟨r, h.load hbefore hupdated (by simp [hcall, Call.isDownload])⟩
    | download given =>
      cases given with
      | none =>
        simp only [System.resume, hphase, hcall] at hok
        cases hok
        exact ⟨r, h.thrown hbefore _⟩
      | some given =>
        simp only [System.resume, hphase, hcall, hseen hupdated] at hok
        cases hok
        exact ⟨r, h.moved hbefore hupdated (by simp [PhaseInv, hcall, Call.isDownload])
          (fun hc => by cases hc) rfl⟩
  | requestFound request =>
    have hbefore : (σ.phase t).hasCommitted = false := by rw [hphase]; rfl
    have hupdated : (σ.phase t).isUpdated = false := by rw [hphase]; rfl
    rw [hphase] at hinv
    cases hloc : σ.locs request.requesterIdentityLocId with
    | none =>
      simp only [System.resume, hphase, hloc] at hok
      cases hok
      exact ⟨r, h.thrown hbefore _⟩
    | some loc =>
      simp only [System.resume, hphase, hloc] at hok
      cases hok
      exact ⟨r, h.moved hbefore hupdated hinv (fun hc => by cases hc) rfl⟩
  | locFound d =>
    rw [hphase] at hinv
    simp only [System.resume, hphase] at hok
    cases hok
    exact ⟨r, h.load (by rw [hphase]; rfl) (by rw [hphase]; rfl) (Eq.symm hinv)⟩
  | loaded d item =>
    have hbefore : (σ.phase t).hasCommitted = false := by rw [hphase]; rfl
    rw [hphase] at hinv
    obtain ⟨hd, hle⟩ := hinv
    cases hmutate : σ.mutate item (calls t) d with
    | error e =>
      simp only [System.resume, hphase, hmutate] at hok
      cases hok
      exact ⟨r, h.thrown hbefore _⟩
    | ok item' =>
      simp only [System.resume, hphase, hmutate] at hok
      cases hok
      obtain ⟨hmade, hbeforeEighth⟩ := madeOf_mutate hmutate
      refine ⟨r, h.moved hbefore (by rw [hphase]; rfl) ⟨hd, hmade, hle⟩ (fun hc => ?_) rfl⟩
      rw [Undisturbed, hphase] at hC
      exact (hmade.inTime hbeforeEighth hC hc hd).later hle
  | mutated d loaded item =>
    have hupdated : (σ.phase t).isUpdated = false := by rw [hphase]; rfl
    rw [hphase] at hinv
    obtain ⟨hd, hmade, hle⟩ := hinv
    simp only [System.resume, hphase, hseen hupdated] at hok
    cases hok
    exact ⟨r, h.moved (by rw [hphase]; rfl) hupdated ⟨hd, hmade, hle, h.wellFormed, Earlier.refl r⟩
      (fun hc => h.inTime t (by rw [hphase]; exact hc)) rfl⟩
  | saving d loaded item reread =>
    have hbefore : (σ.phase t).hasCommitted = false := by rw [hphase]; rfl
    have hupdated : (σ.phase t).isUpdated = false := by rw [hphase]; rfl
    have hchecked : d.isSome = true → DecidedInTime σ.clock r :=
      fun hc => h.inTime t (by rw [hphase]; exact hc)
    rw [hphase] at hinv
    obtain ⟨hd, hsaving⟩ := hinv
    simp only [System.resume, hphase] at hok
    split_ifs at hok with hsame hlocked
    · cases hok
      exact ⟨r, h.moved hbefore hupdated ⟨hd, hsaving, .inl ⟨hsame, h.unwritten t hupdated⟩⟩
        hchecked rfl⟩
    · cases hok
      refine ⟨r, h.quiet hbefore (KeepsOthers.write (by simpa using hlocked) _) rfl
        ⟨hd, hsaving, .inr ?_⟩ hchecked (fun hp => by cases hp) rfl⟩
      simp [hseen hupdated, Version.write]
  | updated d loaded item reread =>
    rw [Undisturbed, hphase] at hC
    obtain ⟨hunchanged, hsecret⟩ := hC
    obtain rfl : r = loaded := hunchanged r h.committed
    simp only [System.resume, hphase] at hok
    cases hok
    exact h.commit hphase hsecret
  | marked d =>
    rw [hphase] at hinv
    obtain ⟨value, hvalue⟩ := Option.isSome_iff_exists.mp hinv.1
    simp only [System.resume, hphase, LocRequest.getSecretOrThrow, hvalue] at hok
    cases hok
    exact ⟨r, h.answer hphase value⟩
  | decided | returned | failed =>
    simp only [System.resume, hphase] at hok
    cases hok

theorem Inv.step {o : Op ι} (h : Inv calls challenge σ r) (hC : Undisturbed calls σ o)
    {σ' : System ι} (hok : step calls id σ o = .ok σ') : ∃ r', Inv calls challenge σ' r' := by
  cases o with
  | elapse milliseconds =>
    cases hok
    refine ⟨r, { h with inTime := fun t ht => ?_ }⟩
    obtain ⟨hstatus, decisionOn, hon, htime⟩ := h.inTime t ht
    exact ⟨hstatus, decisionOn, hon, hC t ht r h.committed decisionOn hon htime⟩
  | changeLoc locId loc =>
    cases hok
    exact ⟨r, { h with }⟩
  | resume t => exact h.resume hC hok
  | fail t =>
    simp only [SecretRecovery.step] at hok
    split_ifs at hok with hbefore
    cases hok
    refine ⟨r, h.thrown ?_ _⟩
    cases hphase : σ.phase t <;> simp_all [Phase.beforeCommit, Phase.hasCommitted]

end

theorem inv_start (calls : ι → Call) (clock : Moment) (locs : UUID → Option LocRequest)
    (params : NewSecretRecoveryRequestParams) : Inv calls params.challenge
      (start clock locs (newSecretRecoveryRequest params)) (newSecretRecoveryRequest params) where
  committed := rfl
  wellFormed := ⟨fun _ => rfl, fun _ => rfl⟩
  sameChallenge := rfl
  accepted h := by cases h
  undelivered _ _ := rfl
  single _ _ h := by cases h
  inTime _ h := by cases h
  phase _ := trivial
  unwritten _ _ := rfl
  committedBy _ _ _ h := by cases h
  returnedBy _ _ _ h := by cases h
  once := Nat.zero_le 1

theorem Inv.deliveredOnce (h : Inv calls challenge σ r) {request : SecretRecoveryRequest}
    (hchallenge : request.challenge = challenge) : DeliveredOnce calls request σ where
  once := h.once
  accepted t now value hmem := by
    rw [hchallenge]
    exact (h.returnedBy t now value hmem).2
  unchanged t before after _ hfailed hmem := by
    obtain ⟨e, hfailed⟩ := hfailed
    have hc := h.committedBy t before after hmem
    rw [hfailed] at hc
    cases hc

end

/-- **A recoverable secret is delivered at most once**, when accepted and in time, in every run whose
steps harm no delivery. -/
theorem deliveredOnce_run [ServerTimeZone] (calls : ι → Call) (clock : Moment)
    (locs : UUID → Option LocRequest) (params : NewSecretRecoveryRequestParams) (ops : List (Op ι))
    (h : Along (step calls params.id) (Undisturbed calls)
      (start clock locs (newSecretRecoveryRequest params)) ops) :
    DeliveredOnce calls (newSecretRecoveryRequest params)
      (run (step calls params.id) (start clock locs (newSecretRecoveryRequest params)) ops) := by
  have hinv : ∃ r, Inv calls params.challenge
      (run (step calls params.id) (start clock locs (newSecretRecoveryRequest params)) ops) r :=
    run_invariant (I := fun σ => ∃ r, Inv calls params.challenge σ r)
      (fun σ o σ' ⟨_, hσ⟩ hC hok => hσ.step hC hok) ⟨_, inv_start calls clock locs params⟩ h
  obtain ⟨r, hr⟩ := hinv
  exact hr.deliveredOnce rfl

/-! ### A request for one secret -/

def locWithSecret : LocRequest where
  id := "fd61e638"
  status := .closed
  requester := some (.polkadot "bob")
  ownerAddress := "alice"
  locType := .identity
  secrets := [⟨"my-secret", "value", false⟩]

def storedLocs : UUID → Option LocRequest := Function.update (fun _ => none) "fd61e638" (some locWithSecret)

def secretParams : NewSecretRecoveryRequestParams where
  id := "a7ff4ab6"
  requesterIdentityLocId := "fd61e638"
  secretName := "my-secret"
  challenge := "my-challenge"
  legalOfficerAddress := "alice"

/-- The owner of the LOC accepts, the others download. -/
def acceptedByOwner : Fin 3 → Call
  | 0 => .accept (.polkadot "alice")
  | _ => .download (some "my-challenge")

/-- The request is accepted, and seven days later one download after the other is answered. -/
def oneDownload : List (Op (Fin 3)) :=
  List.replicate 5 (.resume 0) ++ [.elapse 604800000] ++ List.replicate 8 (.resume 1) ++
    List.replicate 4 (.resume 2)

/-- Both downloads have loaded the request when the first one commits. -/
def twoDownloads : List (Op (Fin 3)) :=
  List.replicate 5 (.resume 0) ++ List.replicate 4 (.resume 1) ++ List.replicate 4 (.resume 2) ++
    List.replicate 4 (.resume 1) ++ List.replicate 4 (.resume 2)

/-- The download comes seven days and a half after the decision. -/
def lateDownload : List (Op (Fin 3)) :=
  List.replicate 5 (.resume 0) ++ [.elapse 648000000] ++ List.replicate 8 (.resume 1)

/-- The seventh day ends while the download is marked. -/
def slowDownload : List (Op (Fin 3)) :=
  List.replicate 5 (.resume 0) ++ [.elapse 604800000] ++ List.replicate 7 (.resume 1) ++ [.elapse 1] ++
    [.resume 1]

/-- The secret was removed from the LOC. -/
def downloadOfRemoved : List (Op (Fin 3)) :=
  List.replicate 5 (.resume 0) ++ [.changeLoc "fd61e638" (some { locWithSecret with secrets := [] })] ++
    List.replicate 8 (.resume 1)

theorem deliveredOnce_run_oneDownload :
    letI : ServerTimeZone := ⟨fun _ => 0⟩
    DeliveredOnce acceptedByOwner (newSecretRecoveryRequest secretParams)
      (run (step acceptedByOwner secretParams.id)
        (start 0 storedLocs (newSecretRecoveryRequest secretParams)) oneDownload) := by
  let _ : ServerTimeZone := ⟨fun _ => 0⟩
  exact deliveredOnce_run acceptedByOwner 0 storedLocs secretParams oneDownload (by decide)

/-- The request once it was accepted. -/
def acceptedAtStart : SecretRecoveryRequest :=
  { newSecretRecoveryRequest secretParams with status := .accepted, decisionOn := some 0 }

/-- What the calls have done after `ops`, on a server in UTC. -/
def ranInUtc (ops : List (Op (Fin 3))) : System (Fin 3) :=
  letI : ServerTimeZone := ⟨fun _ => 0⟩
  run (step acceptedByOwner secretParams.id)
    (start 0 storedLocs (newSecretRecoveryRequest secretParams)) ops

/-- A download that is answered when the seven days after the only acceptance are over. -/
theorem notInTime {ops : List (Op (Fin 3))} {answeredOn : Moment}
    (hlog : (ranInUtc ops).log =
      [.returned 1 answeredOn "value",
        .committed 1 (some acceptedAtStart) (some { acceptedAtStart with downloaded := true }),
        .committed 0 (some (newSecretRecoveryRequest secretParams)) (some acceptedAtStart)])
    (hlate : ¬ InTime answeredOn 0) :
    ¬ DeliveredOnce acceptedByOwner (newSecretRecoveryRequest secretParams) (ranInUtc ops) := by
  intro hdelivered
  obtain ⟨-, decisionOn, ⟨u, before, after, hmem, -, -, hon⟩, htime⟩ :=
    hdelivered.accepted 1 answeredOn "value" (by simp [hlog])
  have hzero : after.decisionOn = some 0 := by
    rw [hlog] at hmem
    simp only [List.mem_cons, List.not_mem_nil, or_false, Event.committed.injEq, reduceCtorEq,
      false_or] at hmem
    rcases hmem with ⟨-, -, hafter⟩ | ⟨-, -, hafter⟩ <;> cases hafter <;> rfl
  rw [hzero] at hon
  cases hon
  exact hlate htime

/-- Two downloads return the value, one does so too late, one is checked in time but answered too late,
and one marks the request but returns nothing. -/
theorem secret_notDeliveredOnce :
    ¬ DeliveredOnce acceptedByOwner (newSecretRecoveryRequest secretParams) (ranInUtc twoDownloads) ∧
      ¬ DeliveredOnce acceptedByOwner (newSecretRecoveryRequest secretParams) (ranInUtc lateDownload) ∧
      ¬ DeliveredOnce acceptedByOwner (newSecretRecoveryRequest secretParams) (ranInUtc slowDownload) ∧
      ¬ DeliveredOnce acceptedByOwner (newSecretRecoveryRequest secretParams)
        (ranInUtc downloadOfRemoved) := by
  refine ⟨fun h => ?_, @notInTime lateDownload 648000000 (by decide) (by decide),
    @notInTime slowDownload 604800001 (by decide) (by decide),
    fun h => ?_⟩
  · exact absurd h.once (by decide)
  · have hsame := h.unchanged 1 (some acceptedAtStart)
      (some { acceptedAtStart with downloaded := true }) rfl ⟨_, rfl⟩ (by decide)
    exact absurd hsame (by decide)

end SecretRecovery

end Logion
