import Logion.Chain.Extrinsic
import Logion.Lib.Effect
import Logion.Model.LocRequest
import Logion.Model.Transaction

/-!
# Database — the stored aggregates and the services that update them

`Database` has one table for each aggregate that the synchronization touches; an aggregate is a row
with its children, and has the columns that the synchronization reads or writes.  A service update
(`collection.service.ts`, `vote.service.ts`, ...) loads an aggregate, changes it and saves it in one
SQL transaction: it is stored as a whole, or not at all.

`Store` adds to the database the list of the databases that the updates stored, which no code reads.
-/

namespace Logion

open Effect Fallible Keyed

/-! ### Aggregates -/

/-- `CollectionItemAggregateRoot`. -/
structure CollectionItem where
  collectionLocId : UUID
  itemId : Hash
  addedOn : Option Moment
  deriving DecidableEq, Repr

/-- `TokensRecordAggregateRoot`. -/
structure TokensRecord where
  collectionLocId : UUID
  recordId : Hash
  addedOn : Option Moment
  deriving DecidableEq, Repr

inductive VoteStatus
  | pending
  | approved
  | rejected
  deriving DecidableEq, Repr

inductive VoteResult
  | yes
  | no
  deriving DecidableEq, Repr

structure Ballot where
  voter : String
  result : VoteResult
  deriving DecidableEq, Repr

/-- `VoteAggregateRoot`, with its ballots. -/
structure Vote where
  voteId : String
  locId : UUID
  createdOn : Moment
  status : VoteStatus := .pending
  ballots : List Ballot := []
  deriving DecidableEq, Repr

/-- `VerifiedIssuerAggregateRoot`. -/
structure VerifiedIssuerSelection where
  locRequestId : UUID
  issuer : String
  identityLocId : UUID
  selected : Bool
  deriving DecidableEq, Repr

inductive AccountRecoveryStatus
  | pending
  | rejected
  | accepted
  | activated
  | cancelled
  | rejectedCancelled
  | acceptedCancelled
  deriving DecidableEq, Repr

/-- `AccountRecoveryRequestAggregateRoot`. -/
structure AccountRecovery where
  id : UUID
  requesterAddress : String
  legalOfficerAddress : String
  status : AccountRecoveryStatus
  deriving DecidableEq, Repr

def CollectionItem.key (item : CollectionItem) : UUID × Hash := (item.collectionLocId, item.itemId)

def TokensRecord.key (record : TokensRecord) : UUID × Hash :=
  (record.collectionLocId, record.recordId)

def VerifiedIssuerSelection.key (selection : VerifiedIssuerSelection) : UUID × String :=
  (selection.locRequestId, selection.issuer)

/-- `confirm` of a collection item and of a tokens record: the new date. -/
def confirm (addedOn : Option Moment) (timestamp : Moment) : Except Err (Option Moment) :=
  if addedOn.isSome then .error (.error "Already confirmed") else .ok (some timestamp)

def Vote.addBallot (vote : Vote) (voter : String) (result : VoteResult) : Vote :=
  { vote with ballots := vote.ballots ++ [⟨voter, result⟩] }

def Vote.close (vote : Vote) (approved : Bool) : Except Err Vote :=
  if vote.status ≠ .pending then .error (.error "Vote is already closed")
  else .ok { vote with status := if approved then .approved else .rejected }

/-- `setActivated`: another status than `accepted` is only logged. -/
def AccountRecovery.setActivated (request : AccountRecovery) : AccountRecovery :=
  { request with status := .activated }

/-! ### The stored form of a LOC -/

/-- The columns of an item as they are stored, without the markers of the delivered copies. -/
def storedData : (k : ItemKind) → ItemData k → ItemData k
  | .metadata, data => data
  | .file, (data : FileData) =>
    ({ data with delivered := data.delivered.map fun d => { d with toAdd := false } } : FileData)
  | .link, data => data

def Item.stored {k : ItemKind} (item : Item k) : Item k :=
  { item with toAdd := false, toUpdate := false, data := storedData k item.data }

/-- What is read back of a LOC after `save`: the rows to add and to update are written, those to
delete are deleted. -/
def LocRequest.stored (l : LocRequest) : LocRequest :=
  { l with
    metadata := l.metadata.map Item.stored
    files := l.files.map Item.stored
    links := l.links.map Item.stored
    secrets := l.secrets.map fun secret => { secret with toAdd := false }
    metadataToDelete := []
    filesToDelete := []
    linksToDelete := []
    secretsToDelete := [] }

/-! ### Tables and updates -/

structure Database where
  locRequests : List LocRequest := []
  collectionItems : List CollectionItem := []
  tokensRecords : List TokensRecord := []
  votes : List Vote := []
  issuerSelections : List VerifiedIssuerSelection := []
  accountRecoveries : List AccountRecovery := []
  transactions : List TransactionAggregateRoot := []
  deriving DecidableEq

structure Store where
  db : Database
  log : List Database := []

abbrev DbM := Eff Store Err

def Store.save (s : Store) (db : Database) : Store := { db := db, log := s.log ++ [db] }

/-- A service update: the new database, `none` when nothing is saved, or an exception. -/
def transactional (update : Database → Except Err (Option Database)) : DbM Unit := do
  let s ← get
  match update s.db with
  | .error e => throw e
  | .ok none => pure ()
  | .ok (some db) => set (s.save db)

/-- A query. -/
def query {α : Type} (f : Database → α) : DbM α := do
  let s ← get
  return f s.db

def liftExcept {α : Type} : Except Err α → DbM α
  | .ok a => pure a
  | .error e => throw e

namespace Database

/-! ### LOC requests -/

def findLoc (db : Database) (id : UUID) : Option LocRequest :=
  lookup LocRequest.id id db.locRequests

/-- `LocRequestRepository.save` of a LOC loaded under the given id. -/
def saveLoc (db : Database) (id : UUID) (loc : LocRequest) : Database :=
  { db with locRequests := modifyFirst LocRequest.id id (fun _ => loc.stored) db.locRequests }

/-- Dates in descending order, `NULLS FIRST`: whether `a` may come before `b`. -/
def descNullsFirst : Option Moment → Option Moment → Ordering
  | none, none => .eq
  | none, some _ => .lt
  | some _, none => .gt
  | some a, some b => compare b a

def locOrder (a b : LocRequest) : Bool :=
  ((descNullsFirst (a.voidInfo.bind (·.voidedOn)) (b.voidInfo.bind (·.voidedOn))).then
    ((descNullsFirst a.closedOn b.closedOn).then
      ((descNullsFirst a.locCreatedOn b.locCreatedOn).then
        ((descNullsFirst a.decisionOn b.decisionOn).then
          (descNullsFirst a.createdOn b.createdOn))))).isLE

/-- The closed Polkadot identity LOCs of a requester with a given owner, most recent first. -/
def findIdentityLocs (db : Database) (owner issuer : AccountId) : List LocRequest :=
  (db.locRequests.filter fun l =>
    l.locType = .identity && l.status = .closed && l.ownerAddress = owner.address &&
      l.requester = some issuer).mergeSort locOrder

/-! ### Collection items and tokens records -/

/-- `CollectionService.update` with `confirm`. -/
def confirmCollectionItem (db : Database) (collectionLocId : UUID) (itemId : Hash)
    (timestamp : Moment) : Except Err (Option Database) := do
  let key := (collectionLocId, itemId)
  let item ← requireDefined (lookup CollectionItem.key key db.collectionItems)
  let addedOn ← confirm item.addedOn timestamp
  return some { db with
    collectionItems :=
      modifyFirst CollectionItem.key key (fun item => { item with addedOn }) db.collectionItems }

/-- `TokensRecordService.update` with `confirm`. -/
def confirmTokensRecord (db : Database) (collectionLocId : UUID) (recordId : Hash)
    (timestamp : Moment) : Except Err (Option Database) := do
  let key := (collectionLocId, recordId)
  let record ← requireDefined (lookup TokensRecord.key key db.tokensRecords)
  let addedOn ← confirm record.addedOn timestamp
  return some { db with
    tokensRecords :=
      modifyFirst TokensRecord.key key (fun record => { record with addedOn }) db.tokensRecords }

/-! ### Issuer selections -/

/-- `selectUnselect` of the issuer with the given identity LOC. -/
def selectUnselect (db : Database) (locRequestId : UUID) (issuer : String) (identityLocId : UUID)
    (select : Bool) : Option Database :=
  let key := (locRequestId, issuer)
  if (lookup VerifiedIssuerSelection.key key db.issuerSelections).isSome then
    some { db with
      issuerSelections := modifyFirst VerifiedIssuerSelection.key key
        (fun selection => { selection with selected := select }) db.issuerSelections }
  else if select then
    some { db with
      issuerSelections := db.issuerSelections ++ [⟨locRequestId, issuer, identityLocId, true⟩] }
  else none

/-- `unselectAll`: one SQL update. -/
def unselectAll (db : Database) (issuer : String) : Database :=
  { db with
    issuerSelections := db.issuerSelections.map fun selection =>
      if selection.issuer = issuer then { selection with selected := false } else selection }

/-! ### Votes -/

/-- `VoteService.add`: a vote with the same id is replaced, except its ballots; the LOC of a vote is
unique. -/
def addVote (db : Database) (vote : Vote) : Except Err (Option Database) :=
  if db.votes.any (fun v => v.locId = vote.locId && v.voteId ≠ vote.voteId) then
    .error (.error "duplicate key value violates unique constraint \"UQ_vote_loc_id\"")
  else if (lookup Vote.voteId vote.voteId db.votes).isSome then
    .ok (some { db with
      votes := modifyFirst Vote.voteId vote.voteId
        (fun v => { vote with ballots := v.ballots }) db.votes })
  else .ok (some { db with votes := db.votes ++ [vote] })

/-- `VoteService.update` with a ballot, and the end of the vote when it is closed.  The new ballot is
inserted in a table whose primary key is the vote and the voter. -/
def updateVote (db : Database) (data : VoteUpdated) : Except Err (Option Database) := do
  let stored ← requireDefined (lookup Vote.voteId data.voteId db.votes)
  let vote := stored.addBallot data.voter (if data.votedYes then .yes else .no)
  let vote ← (if data.closed then vote.close data.approved else .ok vote)
  if stored.ballots.any (fun ballot => ballot.voter = data.voter) then
    .error (.error "duplicate key value violates unique constraint \"PK_ballot\"")
  else
    .ok (some { db with votes := modifyFirst Vote.voteId data.voteId (fun _ => vote) db.votes })

/-! ### Account recoveries and transactions -/

/-- `findBy` with the status `ACCEPTED`. -/
def findAcceptedRecoveries (db : Database) (requester legalOfficer : AccountId) :
    List AccountRecovery :=
  db.accountRecoveries.filter fun request =>
    request.requesterAddress = requester.address &&
      request.legalOfficerAddress = legalOfficer.address && request.status = .accepted

def activateRecovery (db : Database) (id : UUID) : Except Err (Option Database) := do
  let request ← requireDefined (lookup AccountRecovery.id id db.accountRecoveries)
  return some { db with
    accountRecoveries := modifyFirst AccountRecovery.id id (fun _ => request.setActivated)
      db.accountRecoveries }

def addTransaction (db : Database) (transaction : TransactionAggregateRoot) : Database :=
  { db with transactions := db.transactions ++ [transaction] }

end Database

/-! ### Running the pieces -/

section

variable {update : Database → Except Err (Option Database)} {s : Store}

theorem exec_transactional_ok {db : Database} (h : update s.db = .ok (some db)) :
    exec (transactional update) s = (.ok (), s.save db) := by
  rw [transactional, exec_bind_ok (exec_get s), h]
  rfl

theorem exec_transactional_none (h : update s.db = .ok none) :
    exec (transactional update) s = (.ok (), s) := by
  rw [transactional, exec_bind_ok (exec_get s), h]
  rfl

theorem exec_transactional_error {e : Err} (h : update s.db = .error e) :
    exec (transactional update) s = (.error e, s) := by
  rw [transactional, exec_bind_ok (exec_get s), h]
  rfl

@[simp] theorem exec_query {α : Type} (f : Database → α) : exec (query f) s = (.ok (f s.db), s) := rfl

@[simp] theorem exec_liftExcept_ok {α : Type} (a : α) :
    exec (liftExcept (.ok a)) s = (.ok a, s) := rfl

@[simp] theorem exec_liftExcept_error {α : Type} (e : Err) :
    exec (liftExcept (.error e : Except Err α)) s = (.error e, s) := rfl

/-- What a service update that returns has done. -/
theorem transactional_ok {s' : Store} (h : exec (transactional update) s = (.ok (), s')) :
    (update s.db = .ok none ∧ s' = s) ∨ ∃ db, update s.db = .ok (some db) ∧ s' = s.save db := by
  rcases hu : update s.db with e | _ | db
  · rw [exec_transactional_error hu] at h
    cases h
  · rw [exec_transactional_none hu] at h
    cases h
    exact .inl ⟨rfl, rfl⟩
  · rw [exec_transactional_ok hu] at h
    cases h
    exact .inr ⟨db, rfl, rfl⟩

theorem completes_transactional : Completes (transactional update) s ↔ Returns (update s.db) := by
  rcases hu : update s.db with e | _ | db
  · refine iff_of_false ?_ (not_returns_error e)
    rintro ⟨_, s', h⟩
    rw [exec_transactional_error hu] at h
    cases h
  · exact iff_of_true ⟨(), s, exec_transactional_none hu⟩ (returns_ok _)
  · exact iff_of_true ⟨(), s.save db, exec_transactional_ok hu⟩ (returns_ok _)

/-- A service update keeps what its successful updates keep. -/
theorem keeps_transactional {γ : Type} (R : Database → γ)
    (h : ∀ db db', update db = .ok (some db') → R db' = R db) :
    Keeps (fun s : Store => R s.db) (transactional update) := by
  intro s
  rcases hu : update s.db with e | _ | db
  · rw [exec_transactional_error hu]
  · rw [exec_transactional_none hu]
  · rw [exec_transactional_ok hu]
    exact h s.db db hu

theorem keeps_query {γ α : Type} {R : Store → γ} (f : Database → α) : Keeps R (query f) :=
  fun _ => rfl

theorem keeps_liftExcept {γ α : Type} {R : Store → γ} (x : Except Err α) :
    Keeps R (liftExcept x) := by
  intro s
  cases x <;> rfl

/-- A step that may throw and changes nothing. -/
theorem completes_liftExcept_bind {α β : Type} {x : Except Err α} {f : α → DbM β} :
    Completes (liftExcept x >>= f) s ↔ ∃ a, x = .ok a ∧ Completes (f a) s := by
  cases x with
  | error e =>
    refine iff_of_false ?_ (by rintro ⟨a, h, -⟩; cases h)
    rintro ⟨b, s', h⟩
    rw [exec_bind_error (exec_liftExcept_error e)] at h
    cases h
  | ok a =>
    rw [completes_bind_of_ok (exec_liftExcept_ok a)]
    exact ⟨fun h => ⟨a, rfl, h⟩, fun ⟨_, ha, h⟩ => Except.ok.inj ha ▸ h⟩

theorem completes_query_bind {α β : Type} {g : Database → α} {f : α → DbM β} :
    Completes (query g >>= f) s ↔ Completes (f (g s.db)) s :=
  completes_bind_of_ok (exec_query g)

@[simp] theorem save_db (db : Database) : (s.save db).db = db := rfl

end

/-! ### What a computation stores -/

/-- The store after the given databases were stored one after the other. -/
def Store.replay (s : Store) (dbs : List Database) : Store := dbs.foldl Store.save s

theorem replay_append (s : Store) (dbs dbs' : List Database) :
    s.replay (dbs ++ dbs') = (s.replay dbs).replay dbs' := List.foldl_append

@[simp] theorem replay_log (s : Store) (dbs : List Database) : (s.replay dbs).log = s.log ++ dbs := by
  induction dbs generalizing s with
  | nil => exact (List.append_nil s.log).symm
  | cons db dbs ih =>
    rw [show s.replay (db :: dbs) = (s.save db).replay dbs from rfl, ih]
    simp [Store.save]

theorem replay_db (s : Store) (dbs : List Database) :
    (s.replay dbs).db = s.db ∧ dbs = [] ∨ (s.replay dbs).db ∈ dbs := by
  rcases List.eq_nil_or_concat dbs with rfl | ⟨dbs', db, rfl⟩
  · exact .inl ⟨rfl, rfl⟩
  · refine .inr ?_
    rw [List.concat_eq_append, replay_append]
    exact List.mem_append_right dbs' (List.mem_singleton_self db)

/-- Every database that `x` puts in the store of its state is related by `P` to the one it starts
from. -/
def Logs {σ ε α : Type} (store : σ → Store) (P : Database → Database → Prop) (x : Eff σ ε α) : Prop :=
  ∀ s, ∃ dbs, store (exec x s).2 = (store s).replay dbs ∧ ∀ db ∈ dbs, P (store s).db db

section

variable {σ ε α β : Type} {store : σ → Store} {P : Database → Database → Prop}

theorem logs_of_unchanged {x : Eff σ ε α} (h : ∀ s, store (exec x s).2 = store s) : Logs store P x :=
  fun s => ⟨[], h s, by simp⟩

theorem logs_pure (a : α) : Logs store P (pure a : Eff σ ε α) := logs_of_unchanged fun _ => rfl

theorem logs_throw (e : ε) : Logs store P (throw e : Eff σ ε α) := logs_of_unchanged fun _ => rfl

theorem logs_query (f : Database → α) : Logs id P (query f) := logs_of_unchanged fun _ => rfl

theorem logs_transactional {update : Database → Except Err (Option Database)}
    (h : ∀ db db', update db = .ok (some db') → P db db') : Logs id P (transactional update) := by
  intro s
  rcases hu : update s.db with e | _ | db
  · exact ⟨[], by rw [exec_transactional_error hu]; rfl, by simp⟩
  · exact ⟨[], by rw [exec_transactional_none hu]; rfl, by simp⟩
  · refine ⟨[db], by rw [exec_transactional_ok hu]; rfl, fun db' hdb' => ?_⟩
    rw [List.mem_singleton.mp hdb']
    exact h s.db db hu

theorem Logs.bind (htrans : ∀ a b c : Database, P a b → P b c → P a c) {x : Eff σ ε α}
    {f : α → Eff σ ε β} (hx : Logs store P x) (hf : ∀ a, Logs store P (f a)) :
    Logs store P (x >>= f) := by
  intro s
  obtain ⟨dbs, hs, hdbs⟩ := hx s
  rcases h : exec x s with ⟨r, s₁⟩
  rw [h] at hs
  dsimp only at hs
  cases r with
  | error e =>
    rw [exec_bind_error h]
    exact ⟨dbs, hs, hdbs⟩
  | ok a =>
    rw [exec_bind_ok h]
    obtain ⟨dbs', hs', hdbs'⟩ := hf a s₁
    refine ⟨dbs ++ dbs', ?_, fun db hdb => ?_⟩
    · rw [hs', replay_append, ← hs]
    · rcases List.mem_append.mp hdb with hdb | hdb
      · exact hdbs db hdb
      · have hfrom := hdbs' db hdb
        rw [hs] at hfrom
        rcases replay_db (store s) dbs with ⟨heq, -⟩ | hmem
        · rwa [heq] at hfrom
        · exact htrans _ _ _ (hdbs _ hmem) hfrom

theorem Logs.ite {p : Prop} [Decidable p] {x y : Eff σ ε α} (hx : Logs store P x)
    (hy : Logs store P y) : Logs store P (if p then x else y) := by
  split_ifs
  · exact hx
  · exact hy

theorem Logs.forEach (htrans : ∀ a b c : Database, P a b → P b c → P a c) {g : α → Eff σ ε Unit}
    (hg : ∀ a, Logs store P (g a)) (as : List α) : Logs store P (Effect.forEach g as) := by
  induction as with
  | nil => exact logs_pure ()
  | cons a as ih => exact Logs.bind htrans (hg a) fun _ => ih

end

end Logion
