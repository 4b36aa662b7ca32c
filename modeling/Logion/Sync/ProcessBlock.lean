import Logion.Chain.TransactionExtractor
import Logion.Sync.Synchronizers

/-!
# ProcessBlock — one block (`blockconsumption.service.ts`, `transactionsync.service.ts`)

The extrinsics of a block are first recorded as transactions, then unwrapped (a successful
`utility.batchAll` is followed by its calls, with the signer and the events of the batch and without a
fee), and then given one by one to the three synchronizers.

* `synchronize_skips`: an extrinsic with an error changes nothing.
* `onCore_synchronize`: the synchronizers neither read nor write the transactions.
* `exec_addTransactions`: recording adds the extracted transactions, and nothing else.
-/

namespace Logion

open Effect Fallible Keyed

/-! ### Transactions -/

/-- The loop of `addTransactions`, one service update for each transaction. -/
def addRows (b : BlockWithTransactions) (timestamp : Moment) : DbM Unit :=
  forEach (fun t => transactional fun db =>
    .ok (some (db.addTransaction (newTransaction b.block timestamp t)))) b.transactions

def addTransactions [Vault] (block : BlockExtrinsics) : DbM Unit := do
  let extracted ← liftExcept (extractBlockWithTransactions block)
  match extracted with
  | none => pure ()
  | some b =>
    match b.timestamp with
    | some timestamp => addRows b timestamp
    | none => throw (.error "Cannot read properties of undefined")

/-! ### Batches -/

/-- A call of a batch as an extrinsic of its own. -/
def unwrapCall (e : JsonExtrinsic) (call : Call) : JsonExtrinsic :=
  { call := call, signer := e.signer, events := e.events }

def unwrapExtrinsic (e : JsonExtrinsic) : Except Err (List JsonExtrinsic) :=
  match e.call with
  | .batchAll calls => do
    let error ← e.error
    return if error.isNone then e :: calls.map (unwrapCall e) else [e]
  | .batch _ | .forceBatch _ => .error (.error "Unsupported batch")
  | _ => .ok [e]

def unwrapExtrinsics (extrinsics : List JsonExtrinsic) : Except Err (List JsonExtrinsic) := do
  let unwrapped ← extrinsics.mapM unwrapExtrinsic
  return unwrapped.flatten

/-! ### The block -/

variable [LegalOfficers]

/-- The body of the loop over the unwrapped extrinsics.  The check `call.pallet !== "timestamp"` around
it always holds, since a call has a `section` and no `pallet`. -/
def synchronize (timestamp : Moment) (e : JsonExtrinsic) : DbM Unit := do
  updateLocRequests e timestamp
  updateAccountRecoveryRequests e
  updateVotes e timestamp

section

variable [Vault]

def processExtrinsics (block : BlockExtrinsics) : DbM Unit :=
  match getBlockTimestamp block with
  | none => throw (.error "Block has no timestamp")
  | some timestamp => do
    addTransactions block
    let unwrapped ← liftExcept (unwrapExtrinsics block.extrinsics)
    forEach (synchronize timestamp) unwrapped

def processBlock (api : ChainApi) (block : SignedBlockExtended) : DbM Unit := do
  let extrinsics ← liftExcept (getBlockExtrinsics api block)
  processExtrinsics extrinsics

end

/-- **An extrinsic with an error changes nothing.** -/
theorem synchronize_skips {e : JsonExtrinsic} {error : ExtrinsicError} (he : e.error = .ok (some error))
    (timestamp : Moment) (s : Store) : exec (synchronize timestamp e) s = (.ok (), s) := by
  have hskip : ∀ x : DbM Unit, exec (unlessError e x) s = (.ok (), s) := by
    intro x
    rw [unlessError, he, exec_bind_ok (exec_liftExcept_ok _)]
    rfl
  have hloc : exec (updateLocRequests e timestamp) s = (.ok (), s) := by
    unfold updateLocRequests
    split
    · exact hskip _
    · rfl
  have hrecovery : exec (updateAccountRecoveryRequests e) s = (.ok (), s) := by
    unfold updateAccountRecoveryRequests
    split
    · exact hskip _
    · rfl
  have hvote : exec (updateVotes e timestamp) s = (.ok (), s) := by
    unfold updateVotes
    split
    · exact hskip _
    · rfl
  rw [synchronize, exec_bind_ok hloc, exec_bind_ok hrecovery, hvote]

/-! ### The synchronizers and the transactions -/

/-- The database without its transactions. -/
def Database.core (db : Database) : Database := { db with transactions := [] }

def Database.withTransactions (db : Database) (transactions : List TransactionAggregateRoot) :
    Database := { db with transactions := transactions }

def SameCore (s s' : Store) : Prop := s.db.core = s'.db.core

/-- An update that neither reads nor writes the transactions. -/
def CoreUpdate (update : Database → Except Err (Option Database)) : Prop :=
  ∀ db, update db = (update db.core).map (Option.map fun db' => db'.withTransactions db.transactions)

section

omit [LegalOfficers]

variable {update : Database → Except Err (Option Database)}

theorem CoreUpdate.agree (h : CoreUpdate update) :
    Agree SameCore (transactional update) (transactional update) := by
  intro s s' hcore
  have h1 := h s.db
  have h2 := h s'.db
  rw [hcore] at h1
  rcases hu : update s'.db.core with e | _ | db
  · rw [hu] at h1 h2
    rw [exec_transactional_error h1, exec_transactional_error h2]
    exact ⟨rfl, hcore⟩
  · rw [hu] at h1 h2
    rw [exec_transactional_none h1, exec_transactional_none h2]
    exact ⟨rfl, hcore⟩
  · rw [hu] at h1 h2
    rw [exec_transactional_ok h1, exec_transactional_ok h2]
    exact ⟨rfl, rfl⟩

/-- Two databases with the same transactions. -/
def SameTransactions (db db' : Database) : Prop := db.transactions = db'.transactions

theorem sameTransactions_trans (a b c : Database) (h : SameTransactions a b)
    (h' : SameTransactions b c) : SameTransactions a c := Eq.trans h h'

theorem CoreUpdate.logs (h : CoreUpdate update) : Logs id SameTransactions (transactional update) := by
  refine logs_transactional fun db db' hu => ?_
  rw [h db] at hu
  rcases hc : update db.core with e | _ | db₀
  · rw [hc] at hu; cases hu
  · rw [hc] at hu; cases hu
  · rw [hc] at hu; cases hu; rfl

/-- A computation that neither reads nor writes the transactions. -/
structure OnCore {α : Type} (x : DbM α) : Prop where
  agree : Agree SameCore x x
  logs : Logs id SameTransactions x

namespace OnCore

variable {α β : Type}

/-- What it stores has the transactions of the start, and so has what it leaves. -/
theorem keeps {x : DbM α} (hx : OnCore x) : Keeps (fun s : Store => s.db.transactions) x := by
  intro s
  obtain ⟨dbs, hs, hdbs⟩ := hx.logs s
  simp only [id] at hs hdbs
  dsimp only
  rw [hs]
  rcases replay_db s dbs with ⟨heq, -⟩ | hmem
  · rw [heq]
  · exact (hdbs _ hmem).symm

theorem pure (a : α) : OnCore (Pure.pure a) := ⟨agree_pure a, logs_pure a⟩

theorem throw (e : Err) : OnCore (MonadExcept.throw e : DbM α) := ⟨agree_throw e, logs_throw e⟩

theorem bind {x : DbM α} {f : α → DbM β} (hx : OnCore x) (hf : ∀ a, OnCore (f a)) :
    OnCore (x >>= f) :=
  ⟨hx.agree.bind fun a => (hf a).agree, hx.logs.bind sameTransactions_trans fun a => (hf a).logs⟩

theorem ite {p : Prop} [Decidable p] {x y : DbM α} (hx : OnCore x) (hy : OnCore y) :
    OnCore (if p then x else y) := by
  split_ifs
  · exact hx
  · exact hy

theorem forEach {g : α → DbM Unit} (hg : ∀ a, OnCore (g a)) (as : List α) :
    OnCore (Effect.forEach g as) :=
  ⟨Agree.forEach (fun a => (hg a).agree) as, Logs.forEach sameTransactions_trans (fun a => (hg a).logs) as⟩

theorem transactional (h : CoreUpdate update) : OnCore (Logion.transactional update) :=
  ⟨h.agree, h.logs⟩

theorem query {f : Database → α} (hf : ∀ db, f db = f db.core) : OnCore (Logion.query f) := by
  refine ⟨fun s s' hcore => ⟨?_, hcore⟩, logs_query f⟩
  have hval : f s.db = f s'.db := by
    rw [hf s.db, hcore, ← hf s'.db]
  exact congrArg Except.ok hval

theorem liftExcept (x : Except Err α) : OnCore (Logion.liftExcept x) := by
  cases x with
  | ok a => exact pure a
  | error e => exact throw e

theorem unlessError {e : JsonExtrinsic} {x : DbM Unit} (hx : OnCore x) :
    OnCore (Logion.unlessError e x) :=
  (liftExcept _).bind fun _ => ite (pure ()) hx

end OnCore

/-! #### Every service update -/

theorem coreUpdate_save {write : Database → Database}
    (h : ∀ db, write db = (write db.core).withTransactions db.transactions) :
    CoreUpdate fun db => .ok (some (write db)) := fun db =>
  congrArg (fun db' => Except.ok (some db')) (h db)

theorem coreUpdate_bind {α : Type} {read : Database → Except Err α}
    {next : α → Database → Except Err (Option Database)} (hread : ∀ db, read db = read db.core)
    (hnext : ∀ a, CoreUpdate (next a)) : CoreUpdate fun db => read db >>= fun a => next a db := by
  intro db
  dsimp only
  rw [hread db]
  cases read db.core with
  | error e => rfl
  | ok a => exact hnext a db

theorem coreUpdate_mutateLoc (locId : UUID) (mutator : LocRequest → Except Err LocRequest) :
    CoreUpdate fun db =>
      match db.findLoc locId with
      | none => .ok none
      | some loc => do
        let loc ← mutator loc
        return some (db.saveLoc locId loc) := by
  intro db
  have hfind : db.core.findLoc locId = db.findLoc locId := rfl
  dsimp only
  rw [hfind]
  cases db.findLoc locId with
  | none => rfl
  | some loc =>
    have hsave : CoreUpdate fun db => mutator loc >>= fun loc =>
        Except.ok (some (db.saveLoc locId loc)) :=
      coreUpdate_bind (fun _ => rfl) fun _ => coreUpdate_save fun _ => rfl
    exact hsave db

theorem coreUpdate_confirmCollectionItem (locId : UUID) (itemId : Hash) (timestamp : Moment) :
    CoreUpdate fun db => db.confirmCollectionItem locId itemId timestamp :=
  coreUpdate_bind (fun _ => rfl) fun _ =>
    coreUpdate_bind (fun _ => rfl) fun _ => coreUpdate_save fun _ => rfl

theorem coreUpdate_confirmTokensRecord (locId : UUID) (recordId : Hash) (timestamp : Moment) :
    CoreUpdate fun db => db.confirmTokensRecord locId recordId timestamp :=
  coreUpdate_bind (fun _ => rfl) fun _ =>
    coreUpdate_bind (fun _ => rfl) fun _ => coreUpdate_save fun _ => rfl

theorem coreUpdate_selectUnselect (locId : UUID) (issuer : String) (identityLocId : UUID)
    (selected : Bool) :
    CoreUpdate fun db => .ok (db.selectUnselect locId issuer identityLocId selected) := by
  intro db
  change Except.ok _ = Except.ok _
  unfold Database.selectUnselect
  dsimp only
  have hselections : db.core.issuerSelections = db.issuerSelections := rfl
  rw [hselections]
  split_ifs <;> rfl

theorem coreUpdate_addVote (vote : Vote) : CoreUpdate fun db => db.addVote vote := by
  intro db
  dsimp only
  unfold Database.addVote
  have hvotes : db.core.votes = db.votes := rfl
  rw [hvotes]
  split_ifs <;> rfl

theorem coreUpdate_updateVote (data : VoteUpdated) : CoreUpdate fun db => db.updateVote data := by
  refine coreUpdate_bind (fun _ => rfl) fun stored => ?_
  refine coreUpdate_bind (fun _ => rfl) fun vote => ?_
  intro db
  dsimp only
  split_ifs <;> rfl

theorem coreUpdate_activateRecovery (id : UUID) :
    CoreUpdate fun db => db.activateRecovery id :=
  coreUpdate_bind (fun _ => rfl) fun _ => coreUpdate_save fun _ => rfl

/-! #### The three synchronizers -/

theorem onCore_identityLoc (owner issuer : AccountId) : OnCore (getIssuerIdentityLoc owner issuer) := by
  refine (OnCore.query fun _ => rfl).bind fun identityLocs => ?_
  cases identityLocs.head? with
  | none => exact .throw _
  | some loc => exact .pure loc

theorem onCore_mutateLoc (locId : UUID) (mutator : LocRequest → Except Err LocRequest) :
    OnCore (mutateLoc locId mutator) := .transactional (coreUpdate_mutateLoc locId mutator)

theorem onCore_updateVotes (e : JsonExtrinsic) (timestamp : Moment) : OnCore (updateVotes e timestamp) := by
  unfold updateVotes
  split
  · refine .unlessError ?_
    split
    · exact (OnCore.liftExcept _).bind fun _ => .transactional (coreUpdate_addVote _)
    · unfold updateVote
      split
      · exact .transactional (coreUpdate_updateVote _)
      · exact .throw _
    · exact .pure ()
  · exact .pure ()

end

theorem onCore_updateLoc (e : JsonExtrinsic) (timestamp : Moment) (call : LocCall) :
    OnCore (updateLoc e timestamp call) := by
  cases call with
  | create method locId items => exact (OnCore.liftExcept _).bind fun _ => onCore_mutateLoc _ _
  | addMetadata | addFile | addLink | close | closeAndSeal | makeVoid | makeVoidAndReplace =>
    exact onCore_mutateLoc _ _
  | acknowledgeFile | acknowledgeMetadata | acknowledgeLink =>
    exact (OnCore.liftExcept _).bind fun _ => onCore_mutateLoc _ _
  | addCollectionItem | addCollectionItemWithTermsAndConditions =>
    exact (OnCore.query fun _ => rfl).bind fun _ =>
      .ite (.transactional (coreUpdate_confirmCollectionItem _ _ _)) (.pure ())
  | addTokensRecord =>
    exact (OnCore.query fun _ => rfl).bind fun _ =>
      .ite (.transactional (coreUpdate_confirmTokensRecord _ _ _)) (.pure ())
  | nominateIssuer issuer | dismissIssuer issuer =>
    refine (OnCore.liftExcept _).bind fun _ => .ite ?_ (.pure ())
    exact (onCore_identityLoc _ _).bind fun _ =>
      .ite (.transactional (coreUpdate_save fun _ => rfl)) (.pure ())
  | setIssuerSelection locId issuer selected =>
    refine (OnCore.liftExcept _).bind fun _ => .ite ?_ (.pure ())
    exact (onCore_identityLoc _ _).bind fun _ => (OnCore.query fun _ => rfl).bind fun _ =>
      (OnCore.liftExcept _).bind fun _ => .transactional (coreUpdate_selectUnselect _ _ _ _)
  | unsynced method => exact .pure ()
  | unknown method => exact .throw _

theorem onCore_updateLocRequests (e : JsonExtrinsic) (timestamp : Moment) :
    OnCore (updateLocRequests e timestamp) := by
  unfold updateLocRequests
  split
  · exact .unlessError (onCore_updateLoc _ _ _)
  · exact .pure ()

theorem onCore_updateAccountRecoveryRequests (e : JsonExtrinsic) :
    OnCore (updateAccountRecoveryRequests e) := by
  unfold updateAccountRecoveryRequests
  split
  · refine .unlessError ?_
    split
    · refine .forEach (fun legalOfficer => .ite ?_ (.pure ())) _
      exact (OnCore.liftExcept _).bind fun _ => (OnCore.query fun _ => rfl).bind fun requests =>
        .forEach (fun request => .transactional (coreUpdate_activateRecovery _)) requests
    · exact .pure ()
  · exact .pure ()

/-- **The synchronizers and the transactions are independent of each other.** -/
theorem onCore_synchronize (timestamp : Moment) (e : JsonExtrinsic) :
    OnCore (synchronize timestamp e) :=
  (onCore_updateLocRequests e timestamp).bind fun _ =>
    (onCore_updateAccountRecoveryRequests e).bind fun _ => onCore_updateVotes e timestamp

/-! ### The run of a block -/

section

omit [LegalOfficers]

/-- The store after one update for each row. -/
def Store.addAll (s : Store) (rows : List TransactionAggregateRoot) : Store :=
  rows.foldl (fun s row => s.save (s.db.addTransaction row)) s

theorem addAll_db (s : Store) (rows : List TransactionAggregateRoot) :
    (s.addAll rows).db = s.db.withTransactions (s.db.transactions ++ rows) := by
  induction rows generalizing s with
  | nil => simp [Store.addAll, Database.withTransactions]
  | cons row rows ih =>
    rw [show s.addAll (row :: rows) = (s.save (s.db.addTransaction row)).addAll rows from rfl, ih]
    simp [Database.withTransactions, Database.addTransaction]

theorem addAll_sameCore (s : Store) (rows rows' : List TransactionAggregateRoot) :
    SameCore (s.addAll rows) (s.addAll rows') := by
  rw [SameCore, addAll_db, addAll_db]
  rfl

theorem exec_addRows (b : BlockWithTransactions) (timestamp : Moment) (s : Store) :
    exec (addRows b timestamp) s =
      (.ok (), s.addAll (b.transactions.map (newTransaction b.block timestamp))) := by
  unfold addRows
  induction b.transactions generalizing s with
  | nil => rfl
  | cons t ts ih =>
    rw [exec_forEach_cons, exec_transactional_ok rfl]
    exact ih _

theorem lastTimestamp_isSome {extrinsics : List JsonExtrinsic} {timestamp : Moment}
    (h : extrinsics.findSome? timestampOf = some timestamp) : (lastTimestamp extrinsics).isSome := by
  have hkeep : ∀ (es : List JsonExtrinsic) (o : Option Moment),
      (o.isSome ∨ (es.findSome? timestampOf).isSome) →
        (es.foldl (fun timestamp e => (timestampOf e).or timestamp) o).isSome := by
    intro es
    induction es with
    | nil => simp
    | cons e es ih =>
      intro o ho
      rw [List.foldl_cons]
      apply ih
      rw [List.findSome?_cons] at ho
      cases htime : timestampOf e with
      | some now => exact .inl rfl
      | none => simpa [htime] using ho
  exact hkeep extrinsics none (.inr (by rw [h]; rfl))

variable [Vault]

/-- The rows that a block gives. -/
def extractRows (block : BlockExtrinsics) : Except Err (List TransactionAggregateRoot) := do
  let transactions ← block.extrinsics.zipIdx.mapM fun (e, index) => extractFrom e index
  return transactions.flatten.map
    (newTransaction ⟨block.number, block.chain⟩ ((lastTimestamp block.extrinsics).getD 0))

theorem extractFrom_timestamp {e : JsonExtrinsic} {timestamp : Moment} {index : ℕ}
    (h : timestampOf e = some timestamp) : extractFrom e index = .ok [] := by
  have htype : determineType e = .timestamp := by
    unfold timestampOf at h
    unfold determineType
    split at h
    · rename_i hcall
      rw [hcall]
    · cases h
  rw [extractFrom, if_pos htype]
  rfl

/-- **Recording a block**: its rows are added one by one, or nothing is stored. -/
theorem exec_addTransactions {block : BlockExtrinsics} {timestamp : Moment}
    (h : getBlockTimestamp block = some timestamp) (s : Store) :
    exec (addTransactions block) s =
      match extractRows block with
      | .ok rows => (.ok (), s.addAll rows)
      | .error e => (.error e, s) := by
  obtain ⟨last, hlast⟩ := Option.isSome_iff_exists.mp (lastTimestamp_isSome h)
  rw [addTransactions, extractBlockWithTransactions]
  by_cases hlen : block.extrinsics.length ≤ 1
  · -- a single extrinsic is the timestamp, which gives no row
    obtain ⟨e, he⟩ : ∃ e, block.extrinsics = [e] := by
      rcases hx : block.extrinsics with _ | ⟨e, _ | ⟨e', es⟩⟩
      · rw [getBlockTimestamp, hx] at h
        cases h
      · exact ⟨e, rfl⟩
      · rw [hx] at hlen
        simp at hlen
    have hrows : extractRows block = .ok [] := by
      have htime : timestampOf e = some timestamp := by
        rw [getBlockTimestamp, he, List.findSome?_cons] at h
        cases ht : timestampOf e with
        | none => rw [ht] at h; cases h
        | some now => rw [ht] at h; exact h
      rw [extractRows, he]
      simp [extractFrom_timestamp htime]
    rw [if_pos hlen, hrows]
    rfl
  · rw [if_neg hlen, extractRows]
    cases hx : block.extrinsics.zipIdx.mapM fun (e, index) => extractFrom e index with
    | error e => rfl
    | ok transactions =>
      simp only [ok_bind, pure_eq_ok]
      by_cases hempty : transactions.flatten.isEmpty = true
      · rw [if_pos hempty, List.isEmpty_iff.mp hempty]
        rfl
      · rw [if_neg hempty, exec_bind_ok (exec_liftExcept_ok _), hlast]
        exact exec_addRows _ _ _

end

/-- **The run of a block**, stage by stage. -/
theorem exec_processExtrinsics [Vault] (block : BlockExtrinsics) (s : Store) :
    exec (processExtrinsics block) s =
      match getBlockTimestamp block with
      | none => (.error (.error "Block has no timestamp"), s)
      | some timestamp =>
        match extractRows block with
        | .error e => (.error e, s)
        | .ok rows =>
          match unwrapExtrinsics block.extrinsics with
          | .error e => (.error e, s.addAll rows)
          | .ok unwrapped => exec (forEach (synchronize timestamp) unwrapped) (s.addAll rows) := by
  unfold processExtrinsics
  cases ht : getBlockTimestamp block with
  | none => rfl
  | some timestamp =>
    have hadd := exec_addTransactions ht s
    cases hrows : extractRows block with
    | error e =>
      rw [hrows] at hadd
      exact exec_bind_error hadd
    | ok rows =>
      rw [hrows] at hadd
      dsimp only
      rw [exec_bind_ok hadd]
      cases hunwrap : unwrapExtrinsics block.extrinsics with
      | error e => exact exec_bind_error (exec_liftExcept_error e)
      | ok unwrapped => exact exec_bind_ok (exec_liftExcept_ok unwrapped)

/-- Processing a block is processing its extrinsics, once they are built. -/
theorem exec_processBlock [Vault] {api : ChainApi} {block : SignedBlockExtended}
    (hin : block.InRange) (s : Store) :
    exec (processBlock api block) s =
      exec (processExtrinsics ⟨block.number, api.chainType, extrinsicsOf api block⟩) s := by
  have hget : getBlockExtrinsics api block =
      .ok ⟨block.number, api.chainType, extrinsicsOf api block⟩ := by
    rw [getBlockExtrinsics, build_eq hin]
    rfl
  rw [processBlock, hget, exec_bind_ok (exec_liftExcept_ok _)]

/-- **What a block that is processed has done.** -/
theorem processExtrinsics_ok [Vault] {block : BlockExtrinsics} {s s' : Store} :
    exec (processExtrinsics block) s = (.ok (), s') ↔
      ∃ timestamp rows unwrapped, getBlockTimestamp block = some timestamp ∧
        extractRows block = .ok rows ∧ unwrapExtrinsics block.extrinsics = .ok unwrapped ∧
        exec (forEach (synchronize timestamp) unwrapped) (s.addAll rows) = (.ok (), s') := by
  rw [exec_processExtrinsics]
  cases getBlockTimestamp block <;> cases extractRows block <;>
    cases unwrapExtrinsics block.extrinsics <;> simp

/-- The rows that a block stores, whether it is processed to its end or not. -/
theorem processExtrinsics_transactions [Vault] (block : BlockExtrinsics) (s : Store) :
    ∃ rows, (exec (processExtrinsics block) s).2.db.transactions = s.db.transactions ++ rows ∧
      (rows = [] ∨ extractRows block = .ok rows) ∧
      (Completes (processExtrinsics block) s → extractRows block = .ok rows) := by
  have hnone : ∀ x : Except Err Unit, exec (processExtrinsics block) s = (x, s) →
      (x = .ok () → extractRows block = .ok []) →
      ∃ rows, (exec (processExtrinsics block) s).2.db.transactions = s.db.transactions ++ rows ∧
        (rows = [] ∨ extractRows block = .ok rows) ∧
        (Completes (processExtrinsics block) s → extractRows block = .ok rows) := by
    intro x hx hrows
    refine ⟨[], by rw [hx, List.append_nil], .inl rfl, ?_⟩
    rintro ⟨_, s', h⟩
    rw [hx] at h
    exact hrows (Prod.mk.inj h).1
  have hexec := exec_processExtrinsics block s
  cases ht : getBlockTimestamp block with
  | none =>
    rw [ht] at hexec
    exact hnone _ hexec fun h => by cases h
  | some timestamp =>
    cases hrows : extractRows block with
    | error e =>
      rw [ht, hrows] at hexec
      rw [hrows] at hnone
      exact hnone _ hexec fun h => by cases h
    | ok rows =>
      rw [ht, hrows] at hexec
      refine ⟨rows, ?_, .inr rfl, fun _ => rfl⟩
      have hadded : (s.addAll rows).db.transactions = s.db.transactions ++ rows := by
        rw [addAll_db]
        rfl
      cases hunwrap : unwrapExtrinsics block.extrinsics with
      | error e =>
        rw [hunwrap] at hexec
        rw [hexec]
        exact hadded
      | ok unwrapped =>
        rw [hunwrap] at hexec
        have hkeeps := (OnCore.forEach (onCore_synchronize timestamp) unwrapped).keeps (s.addAll rows)
        rw [hexec]
        exact hkeeps.trans hadded

section

omit [LegalOfficers]

/-- Which rows a block gives. -/
theorem extractRows_mem [Vault] {block : BlockExtrinsics} {rows : List TransactionAggregateRoot}
    (h : extractRows block = .ok rows) {row : TransactionAggregateRoot} :
    row ∈ rows ↔ ∃ k e ts t, block.extrinsics[k]? = some e ∧ extractFrom e k = .ok ts ∧ t ∈ ts ∧
      row = newTransaction ⟨block.number, block.chain⟩
        ((lastTimestamp block.extrinsics).getD 0) t := by
  obtain ⟨transactions, htransactions, h⟩ := bind_eq_ok.mp h
  cases h
  have hall := mapM_eq_ok.mp htransactions
  have hlen : transactions.length = block.extrinsics.length := by
    rw [← hall.length_eq, List.length_zipIdx]
  rw [List.mem_map]
  constructor
  · rintro ⟨t, ht, rfl⟩
    obtain ⟨ts, hts, ht⟩ := List.mem_flatten.mp ht
    obtain ⟨k, hk, rfl⟩ := List.getElem_of_mem hts
    have hk' : k < block.extrinsics.length := hlen ▸ hk
    have hstep := hall.get (by simpa using hk') hk
    refine ⟨k, block.extrinsics[k], _, t, List.getElem?_eq_getElem hk', ?_, ht, rfl⟩
    simpa using hstep
  · rintro ⟨k, e, ts, t, he, hts, ht, rfl⟩
    obtain ⟨hk, rfl⟩ := List.getElem?_eq_some_iff.mp he
    have hk' : k < transactions.length := hlen ▸ hk
    have hstep := hall.get (by simpa using hk) hk'
    have hval : transactions[k] = ts := by
      have hsame : extractFrom block.extrinsics[k] k = .ok transactions[k] := by simpa using hstep
      exact Except.ok.inj (hsame.symm.trans hts)
    exact ⟨t, List.mem_flatten.mpr ⟨ts, hval ▸ List.getElem_mem _, ht⟩, rfl⟩

theorem unwrapExtrinsics_append (as bs : List JsonExtrinsic) :
    unwrapExtrinsics (as ++ bs) = do
      let as' ← unwrapExtrinsics as
      let bs' ← unwrapExtrinsics bs
      return as' ++ bs' := by
  unfold unwrapExtrinsics
  rw [List.mapM_append]
  cases as.mapM unwrapExtrinsic with
  | error e => rfl
  | ok as' =>
    cases bs.mapM unwrapExtrinsic with
    | error e => rfl
    | ok bs' => simp

theorem unwrapExtrinsics_fixed {es : List JsonExtrinsic}
    (h : ∀ e ∈ es, unwrapExtrinsic e = .ok [e]) : unwrapExtrinsics es = .ok es := by
  induction es with
  | nil => rfl
  | cons e es ih =>
    have hone : unwrapExtrinsics [e] = .ok [e] := by
      simp [unwrapExtrinsics, h e List.mem_cons_self]
    have hrest := ih fun e' he' => h e' (List.mem_cons_of_mem e he')
    rw [show e :: es = [e] ++ es from rfl, unwrapExtrinsics_append, hone, hrest]
    rfl

/-- Leaving out an extrinsic whose extraction does not throw. -/
theorem extractRows_outcome [Vault] {pre post : List JsonExtrinsic} {e : JsonExtrinsic}
    (he : Returns (extractFrom e pre.length)) (number : ℤ) (chain : ChainType) :
    outcome (extractRows ⟨number, chain, pre ++ e :: post⟩) =
      outcome (extractRows ⟨number, chain, pre ++ post⟩) := by
  obtain ⟨ts, hts⟩ := he
  have hshift : outcome ((post.zipIdx (pre.length + 1)).mapM fun (e, index) => extractFrom e index) =
      outcome ((post.zipIdx pre.length).mapM fun (e, index) => extractFrom e index) := by
    rw [List.zipIdx_succ]
    refine mapM_outcome ?_
    rw [List.forall₂_map_left_iff, List.forall₂_same]
    exact fun entry _ => extractFrom_outcome _ _ _
  unfold extractRows
  refine outcome_bind_congr ?_ fun _ _ => rfl
  dsimp only
  rw [List.zipIdx_append, List.zipIdx_append, List.mapM_append, List.mapM_append, List.zipIdx_cons,
    List.mapM_cons, Nat.zero_add, hts]
  refine outcome_bind_congr_right fun _ => outcome_bind_congr ?_ fun _ _ => rfl
  rw [ok_bind]
  refine Eq.trans ?_ hshift
  cases (post.zipIdx (pre.length + 1)).mapM fun (e, index) => extractFrom e index <;> rfl

end

end Logion
