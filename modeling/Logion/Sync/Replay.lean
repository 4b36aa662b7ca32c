import Logion.Sync.ExactlyOnce
import Logion.Sync.NeverStuck
import Logion.Sync.ProcessBlock

/-!
# Replay — running again after a stop within a batch

The sync point is stored once for each batch, the updates of a batch one by one.  `stopAfter` is the
state that is left when the processing stops after some batches and some updates of the next one.

* `processBlock_stores`: everything that a block stores has one more row of it at least.
* `exec_runFrom`: one batch, and the run from the next one.
* `runFrom_rows`: the rows that a run adds do not depend on the database.
* `runFrom_split`: a run cut after some batches.
* `recovers_of`, `not_recovers_of`: the two directions of the condition.
* `recovers_iff`: the contract, for every chain and every point where the processing stops.
-/

namespace Logion

open Effect Fallible Keyed

/-! ### One block -/

/-- The calls that the synchronizers or the unwrapping of batches look at; each of them must be
signed. -/
def Call.needsSigner : Call → Bool
  | .logionLoc _ | .vote _ | .verifiedRecovery _ | .batchAll _ | .batch _ | .forceBatch _ => true
  | _ => false

/-- A record belongs to an extrinsic of the block, and an unsigned extrinsic has no call that must be
signed. -/
structure SignedBlockExtended.WellSigned (block : SignedBlockExtended) : Prop where
  inRange : block.InRange
  unsigned : ∀ tx ∈ block.extrinsics, tx.extrinsic.signer = none →
    tx.extrinsic.method.needsSigner = false

/-- The rows that the block gives. -/
def blockRows [Vault] (api : ChainApi) (block : SignedBlockExtended) :
    List TransactionAggregateRoot :=
  match extractRows ⟨block.number, api.chainType, extrinsicsOf api block⟩ with
  | .ok rows => rows
  | .error _ => []

/-- The second database has more rows than the first. -/
def MoreRows (db db' : Database) : Prop := db.transactions.length < db'.transactions.length

theorem moreRows_trans (a b c : Database) (h : MoreRows a b) (h' : MoreRows b c) : MoreRows a c :=
  Nat.lt_trans h h'

section

variable {api : ChainApi} {block : SignedBlockExtended} {e : JsonExtrinsic}

/-- An extrinsic that is built has the call and the signer of one of the block. -/
theorem extrinsicsOf_mem (h : e ∈ extrinsicsOf api block) :
    ∃ tx ∈ block.extrinsics, e.call = tx.extrinsic.method ∧ e.signer = tx.extrinsic.signer := by
  obtain ⟨b, hb, rfl⟩ := List.mem_map.mp h
  obtain ⟨o, ho, hob⟩ := List.mem_filterMap.mp hb
  cases hob
  obtain ⟨i, hi, hget⟩ := List.getElem_of_mem ho
  simp only [buildersAfter, List.getElem_mapIdx] at hget
  obtain ⟨-, -, hcall, hsigner, -⟩ := builderAfter_ok hget
  exact ⟨_, List.getElem_mem _, hcall, hsigner⟩

/-- An extrinsic that gives no row is a timestamp, or is not signed. -/
theorem extractFrom_nil [Vault] {index : ℕ} (h : extractFrom e index = .ok []) :
    (∃ now, e.call = .timestamp now) ∨ e.signer = none := by
  by_cases htype : determineType e = .timestamp
  · exact .inl (determineType_eq_timestamp.mp htype)
  · rw [extractFrom, if_neg htype] at h
    cases hsigner : e.signer with
    | none => exact .inr rfl
    | some signer =>
      rw [hsigner] at h
      obtain ⟨_, pre, t, post, -, hsplit, -⟩ := extractTransactions_ok h
      simp at hsplit

theorem unwrapExtrinsic_of_not_needsSigner (h : e.call.needsSigner = false) :
    unwrapExtrinsic e = .ok [e] := by
  unfold unwrapExtrinsic
  split
  · rename_i hcall
    rw [hcall] at h
    cases h
  · rename_i hcall
    rw [hcall] at h
    cases h
  · rename_i hcall
    rw [hcall] at h
    cases h
  · rfl

variable [LegalOfficers]

theorem synchronize_of_not_needsSigner (h : e.call.needsSigner = false) (timestamp : Moment)
    (s : Store) : exec (synchronize timestamp e) s = (.ok (), s) := by
  rw [synchronize, updateLocRequests, updateAccountRecoveryRequests, updateVotes]
  cases hcall : e.call with
  | logionLoc | vote | verifiedRecovery | batchAll | batch | forceBatch =>
    rw [hcall] at h
    cases h
  | _ => rfl

omit [LegalOfficers] in
theorem addAll_replay (s : Store) (rows : List TransactionAggregateRoot) :
    ∃ dbs, s.addAll rows = s.replay dbs ∧ ∀ db ∈ dbs, MoreRows s.db db := by
  induction rows generalizing s with
  | nil => exact ⟨[], rfl, by simp⟩
  | cons row rows ih =>
    obtain ⟨dbs, hdbs, hmore⟩ := ih (s.save (s.db.addTransaction row))
    have hfirst : MoreRows s.db (s.db.addTransaction row) := by
      simp [MoreRows, Database.addTransaction]
    refine ⟨s.db.addTransaction row :: dbs, hdbs, fun db hdb => ?_⟩
    rcases List.mem_cons.mp hdb with rfl | hdb
    · exact hfirst
    · exact moreRows_trans _ _ _ hfirst (hmore db hdb)

variable [Vault]

omit [LegalOfficers] in
/-- Without a row, a block has no call to look at. -/
theorem not_needsSigner_of_no_rows {block : BlockExtrinsics}
    (hsigned : ∀ e ∈ block.extrinsics, e.signer = none → e.call.needsSigner = false)
    (h : extractRows block = .ok []) : ∀ e ∈ block.extrinsics, e.call.needsSigner = false := by
  intro e he
  obtain ⟨k, hk⟩ := List.mem_iff_getElem?.mp he
  obtain ⟨transactions, htransactions, -⟩ := bind_eq_ok.mp h
  obtain ⟨ts, hts⟩ : Returns (extractFrom e k) := by
    refine mapM_returns.mp ⟨transactions, htransactions⟩ (e, k) ?_
    exact List.mk_mem_zipIdx_iff_getElem?.mpr hk
  cases ts with
  | nil =>
    rcases extractFrom_nil hts with ⟨now, hnow⟩ | hunsigned
    · rw [hnow]
      rfl
    · exact hsigned e he hunsigned
  | cons t ts =>
    have hmem := (extractRows_mem h).mpr ⟨k, e, _, t, hk, hts, List.mem_cons_self, rfl⟩
    cases hmem

/-- **What a block stores** has one more row of it at least. -/
theorem processExtrinsics_stores {block : BlockExtrinsics}
    (hsigned : ∀ e ∈ block.extrinsics, e.signer = none → e.call.needsSigner = false) :
    Logs id MoreRows (processExtrinsics block) := by
  intro s
  rw [exec_processExtrinsics]
  cases getBlockTimestamp block with
  | none => exact ⟨[], rfl, by simp⟩
  | some timestamp =>
    cases hrows : extractRows block with
    | error e => exact ⟨[], rfl, by simp⟩
    | ok rows =>
      dsimp only
      rcases List.eq_nil_or_concat rows with rfl | ⟨rows', row, hconcat⟩
      · -- no call is looked at, and nothing is stored
        have hinert := not_needsSigner_of_no_rows hsigned hrows
        have hunwrap : unwrapExtrinsics block.extrinsics = .ok block.extrinsics :=
          unwrapExtrinsics_fixed fun e he => unwrapExtrinsic_of_not_needsSigner (hinert e he)
        rw [hunwrap]
        refine ⟨[], ?_, by simp⟩
        dsimp only
        rw [exec_forEach_of_unchanged fun e he s =>
          synchronize_of_not_needsSigner (hinert e he) timestamp s]
        rfl
      · obtain ⟨dbs, hdbs, hmore⟩ := addAll_replay s rows
        have hadded : MoreRows s.db (s.addAll rows).db := by
          rw [MoreRows, addAll_db, hconcat]
          simp [Database.withTransactions]
        cases unwrapExtrinsics block.extrinsics with
        | error e => exact ⟨dbs, hdbs, hmore⟩
        | ok unwrapped =>
          obtain ⟨dbs', hdbs', hsame⟩ :=
            (OnCore.forEach (onCore_synchronize timestamp) unwrapped).logs (s.addAll rows)
          simp only [id] at hdbs' hsame ⊢
          refine ⟨dbs ++ dbs', ?_, fun db hdb => ?_⟩
          · rw [replay_append, ← hdbs]
            exact hdbs'
          · rcases List.mem_append.mp hdb with hdb | hdb
            · exact hmore db hdb
            · unfold MoreRows at hadded ⊢
              rwa [← hsame db hdb]

theorem processBlock_stores (hblock : block.WellSigned) : Logs id MoreRows (processBlock api block) := by
  have hsigned : ∀ e ∈ extrinsicsOf api block, e.signer = none → e.call.needsSigner = false := by
    intro e he hnone
    obtain ⟨tx, htx, hcall, hsigner⟩ := extrinsicsOf_mem he
    rw [hcall]
    exact hblock.unsigned tx htx (hsigner ▸ hnone)
  intro s
  rw [exec_processBlock hblock.inRange]
  exact processExtrinsics_stores hsigned s

theorem processBlock_rows (hblock : block.WellSigned) {s s' : Store}
    (h : exec (processBlock api block) s = (.ok (), s')) :
    s'.db.transactions = s.db.transactions ++ blockRows api block := by
  rw [exec_processBlock hblock.inRange] at h
  obtain ⟨rows, hrows, -, hextracted⟩ := processExtrinsics_transactions
    ⟨block.number, api.chainType, extrinsicsOf api block⟩ s
  rw [blockRows, hextracted ⟨(), s', h⟩]
  rw [h] at hrows
  exact hrows

end

/-! ### A batch -/

/-- The extended blocks of the node are well signed. -/
def WellSignedNode (node : Node SignedBlockExtended) : Prop :=
  ∀ hash block, node.getExtendedBlock hash = some block → block.WellSigned

section

variable [LegalOfficers] [Vault] (api : ChainApi) (node : Node SignedBlockExtended) (chain : Chain)

/-- The rows that a block of the chain gives. -/
def chainRows (n : ℕ) : List TransactionAggregateRoot :=
  if isEmptyBlock (chain.block n) then []
  else match node.getExtendedBlock (chain.block n).hash with
    | some block => blockRows api block
    | none => []

variable {api node chain} {h a : ℕ} {s s' : SyncState Store}

omit [LegalOfficers] [Vault] in
theorem liftDb_logs {P : Database → Database → Prop} {x : DbM Unit} (hx : Logs id P x) :
    Logs SyncState.db P (liftDb x) := by
  intro s
  obtain ⟨dbs, hs, hdbs⟩ := hx s.db
  refine ⟨dbs, ?_, hdbs⟩
  rw [liftDb, exec_bind_ok (exec_get s)]
  rcases hexec : exec x s.db with ⟨_ | _, db⟩
  · rw [hexec] at hs
    exact hs
  · rw [hexec] at hs
    exact hs

theorem visitBlock_stores (hsigned : WellSignedNode node) (block : SignedBlock) :
    Logs SyncState.db MoreRows (visitBlock node (processBlock api) block) := by
  have hemit : ∀ event, Logs SyncState.db MoreRows (emit event : SyncM Store Unit) :=
    fun _ => logs_of_unchanged fun _ => rfl
  unfold visitBlock
  refine Logs.bind moreRows_trans (hemit _) fun _ => .ite (logs_pure ()) ?_
  cases hext : node.getExtendedBlock block.hash with
  | none =>
    rw [getExtendedBlockByHash, hext]
    exact logs_of_unchanged fun _ => rfl
  | some extended =>
    rw [getExtendedBlockByHash, hext]
    dsimp only
    rw [pure_bind]
    exact Logs.bind moreRows_trans (liftDb_logs (processBlock_stores (hsigned _ _ hext))) fun _ =>
      hemit _

theorem visitBlocks_stores (hsigned : WellSignedNode node) (a b : ℕ) :
    Logs SyncState.db MoreRows (visitBlocks node (processBlock api) chain a b) :=
  Logs.forEach moreRows_trans (visitBlock_stores hsigned) _

theorem visitBlock_rows (hsigned : WellSignedNode node) {n : ℕ}
    (hvisit : exec (visitBlock node (processBlock api) (chain.block n)) s = (.ok (), s')) :
    s'.db.db.transactions = s.db.db.transactions ++ chainRows api node chain n := by
  unfold visitBlock at hvisit
  rw [exec_bind_ok (exec_emit _ s)] at hvisit
  unfold chainRows
  split_ifs at hvisit ⊢ with hempty
  · cases hvisit
    simp
  · cases hext : node.getExtendedBlock (chain.block n).hash with
    | none =>
      rw [getExtendedBlockByHash, hext] at hvisit
      cases hvisit
    | some extended =>
      rw [getExtendedBlockByHash, hext] at hvisit
      dsimp only at hvisit
      rw [pure_bind] at hvisit
      obtain ⟨_, s₁, hlift, hemit⟩ := exec_bind_eq_ok hvisit
      cases hemit
      rw [liftDb, exec_bind_ok (exec_get _)] at hlift
      rcases hexec : exec (processBlock api extended) s.db with ⟨_ | _, db⟩
      · rw [show (SyncState.db _ : Store) = s.db from rfl, hexec] at hlift
        cases hlift
      · rw [show (SyncState.db _ : Store) = s.db from rfl, hexec] at hlift
        cases hlift
        exact processBlock_rows (hsigned _ _ hext) hexec

theorem visitBlocks_rows (hsigned : WellSignedNode node) {ns : List ℕ}
    (hvisit : exec (forEach (visitBlock node (processBlock api)) (ns.map chain.block)) s =
      (.ok (), s')) :
    s'.db.db.transactions = s.db.db.transactions ++ ns.flatMap (chainRows api node chain) := by
  induction ns generalizing s with
  | nil =>
    cases hvisit
    simp
  | cons n ns ih =>
    obtain ⟨_, s₁, h1, h2⟩ := exec_bind_eq_ok hvisit
    rw [ih h2, visitBlock_rows hsigned h1, List.flatMap_cons, List.append_assoc]

/-! ### A run -/

/-- **The rows that a run adds** are those of the blocks it visits. -/
theorem runFrom_rows (hsigned : WellSignedNode node) (hnode : NodeAt chain h node) {fuel : ℕ}
    {last : Option SyncPoint} (ha : a ≤ h + 1) (hlast : last.isSome → s.syncPoint.isSome)
    (hrun : exec (runFrom node (processBlock api) h a fuel last) s = (.ok (), s')) :
    s'.db.db.transactions =
      s.db.db.transactions ++ (List.range' a (h + 1 - a)).flatMap (chainRows api node chain) := by
  induction fuel generalizing a last s with
  | zero =>
    rcases Nat.lt_or_ge h a with hdone | hmore
    · obtain rfl : a = h + 1 := by omega
      rw [exec_runFrom_done] at hrun
      cases hrun
      simp
    · rw [exec_runFrom_zero hmore] at hrun
      cases hrun
  | succ fuel ih =>
    rcases Nat.lt_or_ge h a with hdone | hmore
    · obtain rfl : a = h + 1 := by omega
      rw [exec_runFrom_done] at hrun
      cases hrun
      simp
    · obtain ⟨b, hab, hb, -, hbatch⟩ := exec_runFrom (processBlock api) hnode hmore
      rw [hbatch fuel last s hlast] at hrun
      rcases hvisit : exec (visitBlocks node (processBlock api) chain a b) s with ⟨_ | _, s₁⟩
      · rw [hvisit] at hrun
        cases hrun
      · rw [hvisit] at hrun
        have hrest := ih (by omega) (fun _ => rfl) hrun
        rw [hrest, range'_split hab hb, List.flatMap_append, ← List.append_assoc]
        have hbatchRows : s₁.db.db.transactions = _ := visitBlocks_rows hsigned hvisit
        exact congrArg (· ++ _) hbatchRows

/-- **A run cut after `j` batches** goes on from the state they left. -/
theorem runFrom_split (hnode : NodeAt chain h node) {fuel : ℕ}
    (hstart : StartsAt node h s.syncPoint a)
    (hrun : exec (runFrom node (processBlock api) h a fuel s.syncPoint) s = (.ok (), s')) (j : ℕ) :
    ∃ (c : ℕ) (t : SyncState Store),
      t = (exec (runFrom node (processBlock api) h a j s.syncPoint) s).2 ∧
      StartsAt node h t.syncPoint c ∧
      (∃ fuel', exec (runFrom node (processBlock api) h c fuel' t.syncPoint) t = (.ok (), s')) ∧
      (exec (runFrom node (processBlock api) h a (j + 1) s.syncPoint) s).2 =
        (exec (runFrom node (processBlock api) h c 1 t.syncPoint) t).2 := by
  induction j generalizing a s fuel with
  | zero =>
    refine ⟨a, s, ?_, hstart, ⟨fuel, hrun⟩, rfl⟩
    rcases Nat.lt_or_ge h a with hdone | hmore
    · obtain rfl : a = h + 1 := le_antisymm hstart.le hdone
      rw [exec_runFrom_done]
    · rw [exec_runFrom_zero hmore]
  | succ j ih =>
    rcases Nat.lt_or_ge h a with hdone | hmore
    · obtain rfl : a = h + 1 := le_antisymm hstart.le hdone
      refine ⟨h + 1, s, ?_, hstart, ⟨fuel, hrun⟩, ?_⟩
      · rw [exec_runFrom_done]
      · rw [exec_runFrom_done, exec_runFrom_done]
    · cases fuel with
      | zero =>
        rw [exec_runFrom_zero hmore] at hrun
        cases hrun
      | succ fuel =>
        obtain ⟨b, hab, hb, -, hbatch⟩ := exec_runFrom (processBlock api) hnode hmore
        rw [hbatch fuel _ s id] at hrun
        rcases hvisit : exec (visitBlocks node (processBlock api) chain a b) s with ⟨_ | _, s₁⟩
        · rw [hvisit] at hrun
          cases hrun
        · rw [hvisit] at hrun
          obtain ⟨c, t, ht, htstart, htrun, htnext⟩ :=
            ih (s := s₁.synced ⟨b, node.chainType⟩) (.next hb) hrun
          refine ⟨c, t, ?_, htstart, htrun, ?_⟩
          · rw [ht, hbatch j _ s id, hvisit]
            rfl
          · rw [← htnext, hbatch (j + 1) _ s id, hvisit]
            rfl

end

/-! ### Stopping and running again -/

section

variable [LegalOfficers] [Vault] (api : ChainApi) (node : Node SignedBlockExtended)

/-- The state after `j` batches of a run. -/
def afterBatches (s : SyncState Store) (j : ℕ) : SyncState Store :=
  (exec (consumeNewBlocks node (processBlock api) j) s).2

/-- The databases that the updates of the next batch store, one after the other. -/
def batchLog (s : SyncState Store) (j : ℕ) : List Database :=
  (afterBatches api node s (j + 1)).db.log.drop (afterBatches api node s j).db.log.length

/-- The state that is left when the processing stops after `j` batches and `k` updates of the next
one: the sync point is still that of the batches. -/
def stopAfter (s : SyncState Store) (j k : ℕ) : SyncState Store :=
  { afterBatches api node s j with
    db := (afterBatches api node s j).db.replay ((batchLog api node s j).take k) }

/-- The same contents, in any order of the transactions. -/
structure SameContents (db db' : Database) : Prop where
  core : db.core = db'.core
  transactions : db.transactions.Perm db'.transactions

/-- **Running again recovers** from the stop: it returns if the uninterrupted run does, with the same
contents. -/
def Recovers (s stop : SyncState Store) : Prop :=
  ∀ fuel s', exec (consumeNewBlocks node (processBlock api) fuel) s = (.ok (), s') →
    ∃ fuel' t, exec (consumeNewBlocks node (processBlock api) fuel') stop = (.ok (), t) ∧
      SameContents t.db.db s'.db.db

variable {api node} {chain : Chain} {h a fuel : ℕ} {s s' : SyncState Store}

omit [LegalOfficers] [Vault] in
/-- A run that returns has started from a block of the chain. -/
theorem startsAt_of_returns {δ ξ : Type} {node : Node ξ} {processBlock : ξ → Eff δ Err Unit}
    {s s' : SyncState δ} (hnode : NodeAt chain h node)
    (hpoint : ∀ point, s.syncPoint = some point → 0 ≤ point.block.blockNumber)
    (hrun : exec (consumeNewBlocks node processBlock fuel) s = (.ok (), s')) :
    ∃ a, StartsAt node h s.syncPoint a := by
  cases hs : s.syncPoint with
  | none => exact ⟨h, .head (.inl rfl)⟩
  | some point =>
    obtain ⟨⟨number, type⟩⟩ := point
    obtain ⟨p, rfl⟩ := Int.eq_ofNat_of_zero_le (hpoint _ hs)
    by_cases hrefused : (type = .para ∧ node.chainType = .solo) ∨
        (type = node.chainType ∧ (p : ℤ) > h)
    · obtain ⟨message, hthrow⟩ : ∃ message, exec (consumeNewBlocks node processBlock fuel) s =
          (.error (.threw (.error message)), s) := consumeNewBlocks_refused hnode hs hrefused
      rw [hthrow] at hrun
      cases hrun
    · by_cases htype : type = node.chainType
      · subst htype
        refine ⟨p + 1, .next ?_⟩
        by_contra hp
        exact hrefused (.inr ⟨rfl, by omega⟩)
      · refine ⟨h, .head (.inr ⟨p, ?_⟩)⟩
        cases type with
        | solo =>
          refine ⟨rfl, ?_⟩
          cases hchain : node.chainType with
          | solo => exact absurd hchain.symm htype
          | para => rfl
        | para =>
          cases hchain : node.chainType with
          | solo => exact absurd (.inl ⟨rfl, hchain⟩) hrefused
          | para => exact absurd hchain.symm htype

theorem afterBatches_eq (hnode : NodeAt chain h node) (hstart : StartsAt node h s.syncPoint a) (j : ℕ) :
    afterBatches api node s j =
      (exec (runFrom node (processBlock api) h a j s.syncPoint) s).2 := by
  rw [afterBatches, exec_consumeNewBlocks hnode hstart]

/-- Everything that a batch stores has one more row of it at least. -/
theorem batchLog_more (hsigned : WellSignedNode node) (hnode : NodeAt chain h node)
    (hstart : StartsAt node h s.syncPoint a)
    (hrun : exec (runFrom node (processBlock api) h a fuel s.syncPoint) s = (.ok (), s')) (j : ℕ) :
    ∀ db ∈ batchLog api node s j, MoreRows (afterBatches api node s j).db.db db := by
  obtain ⟨c, t, ht, htstart, ⟨fuel', htrun⟩, htnext⟩ := runFrom_split hnode hstart hrun j
  rw [batchLog, afterBatches_eq hnode hstart, afterBatches_eq hnode hstart, htnext, ← ht]
  rcases Nat.lt_or_ge h c with hdone | hmore
  · obtain rfl : c = h + 1 := le_antisymm htstart.le hdone
    rw [exec_runFrom_done]
    simp
  · obtain ⟨b, -, hb, -, hbatch⟩ := exec_runFrom (processBlock api) hnode hmore
    cases fuel' with
    | zero =>
      rw [exec_runFrom_zero hmore] at htrun
      cases htrun
    | succ fuel' =>
      rw [hbatch fuel' _ t id] at htrun
      have hlogs : Logs SyncState.db MoreRows (visitBlocks node (processBlock api) chain c b) :=
        visitBlocks_stores hsigned c b
      obtain ⟨dbs, hdbs, hmoreRows⟩ := hlogs t
      rcases hvisit : exec (visitBlocks node (processBlock api) chain c b) t with ⟨_ | _, s₁⟩
      · rw [hvisit] at htrun
        cases htrun
      · rw [hvisit] at hdbs
        have hlast : (exec (runFrom node (processBlock api) h c 1 t.syncPoint) t).2.db = s₁.db := by
          rw [hbatch 0 _ t id, hvisit]
          dsimp only
          rcases Nat.lt_or_ge h (b + 1) with hend | hnext
          · obtain rfl : b = h := by omega
            rw [exec_runFrom_done]
            rfl
          · rw [exec_runFrom_zero hnext]
            rfl
        rw [hlast, hdbs, replay_log, List.drop_left]
        exact hmoreRows

/-- Nothing of the batch was stored: running again is going on. -/
theorem recovers_of (hnode : NodeAt chain h node) (hstart : StartsAt node h s.syncPoint a) {j k : ℕ}
    (hnothing : (batchLog api node s j).take k = []) :
    Recovers api node s (stopAfter api node s j k) := by
  intro fuel s' hrun
  rw [exec_consumeNewBlocks hnode hstart] at hrun
  obtain ⟨c, t, ht, htstart, ⟨fuel', htrun⟩, -⟩ := runFrom_split hnode hstart hrun j
  have hstop : stopAfter api node s j k = t := by
    rw [stopAfter, hnothing, ht, ← afterBatches_eq hnode hstart]
    rfl
  refine ⟨fuel', s', ?_, rfl, List.Perm.refl _⟩
  rw [hstop, exec_consumeNewBlocks hnode htstart, htrun]

/-- Something of the batch was stored: a row of it is added twice, or the run throws. -/
theorem not_recovers_of (hsigned : WellSignedNode node) (hnode : NodeAt chain h node)
    (hstart : StartsAt node h s.syncPoint a)
    (hrun : exec (consumeNewBlocks node (processBlock api) fuel) s = (.ok (), s')) {j k : ℕ}
    (hstored : (batchLog api node s j).take k ≠ []) :
    ¬ Recovers api node s (stopAfter api node s j k) := by
  intro hrecovers
  obtain ⟨fuel₂, u, hagain, hsame⟩ := hrecovers fuel s' hrun
  rw [exec_consumeNewBlocks hnode hstart] at hrun
  obtain ⟨c, t, ht, htstart, ⟨fuel', htrun⟩, -⟩ := runFrom_split hnode hstart hrun j
  have hafter : afterBatches api node s j = t := by
    rw [afterBatches_eq hnode hstart, ht]
  -- the stop has more rows than the last sync point
  have hmore : MoreRows t.db.db (stopAfter api node s j k).db.db := by
    rw [← hafter]
    rcases replay_db (afterBatches api node s j).db ((batchLog api node s j).take k) with
      ⟨-, hnil⟩ | hmem
    · exact absurd hnil hstored
    · exact batchLog_more hsigned hnode hstart hrun j _ (List.mem_of_mem_take hmem)
  have hpoint : (stopAfter api node s j k).syncPoint = t.syncPoint := by
    rw [← hafter]
    rfl
  rw [← hpoint] at htstart
  rw [exec_consumeNewBlocks hnode htstart] at hagain
  -- and both runs add the same rows from there
  have hrows := runFrom_rows hsigned hnode htstart.le id hagain
  have hrows' := runFrom_rows hsigned hnode htstart.le id htrun
  have hlength := hsame.transactions.length_eq
  rw [hrows, hrows', List.length_append, List.length_append] at hlength
  unfold MoreRows at hmore
  omega

/-- **Block replay.**  From any point where the processing of a segment stops, running again recovers
if and only if nothing of the batch at hand was stored. -/
theorem recovers_iff (api : ChainApi) (node : Node SignedBlockExtended) (chain : Chain) (h : ℕ)
    (s : SyncState Store) (hnode : NodeAt chain h node) (hsigned : WellSignedNode node)
    (hpoint : ∀ point, s.syncPoint = some point → 0 ≤ point.block.blockNumber)
    (hreturns : ∃ fuel s', exec (consumeNewBlocks node (processBlock api) fuel) s = (.ok (), s'))
    (j k : ℕ) :
    Recovers api node s (stopAfter api node s j k) ↔ (batchLog api node s j).take k = [] := by
  obtain ⟨fuel, s', hrun⟩ := hreturns
  obtain ⟨a, hstart⟩ := startsAt_of_returns hnode hpoint hrun
  refine ⟨fun hrecovers => ?_, recovers_of hnode hstart⟩
  by_contra hstored
  exact not_recovers_of hsigned hnode hstart hrun hstored hrecovers

end

/-! ### The closing of a LOC, processed again -/

/-- A block that closes a LOC. -/
def closeBlock : SignedBlockExtended where
  number := 1
  extrinsics := [
    { extrinsic := { method := .timestamp 5000, signer := none } },
    { extrinsic := { method := .logionLoc (.close "loc"), signer := some "alice" } }]
  events := [
    ⟨.applyExtrinsic 0, .other "system" "ExtrinsicSuccess"⟩,
    ⟨.applyExtrinsic 1, .other "logionLoc" "LocClosed"⟩]

def closeNode : Node SignedBlockExtended where
  chainType := .solo
  getFinalizedHead := (sampleNode .solo).getFinalizedHead
  getBlockHash := (sampleNode .solo).getBlockHash
  getBlock := (sampleNode .solo).getBlock
  getExtendedBlock _ := some closeBlock

def closeApi : ChainApi where
  chainType := .solo
  findMetaError _ := none
  queryInfo _ := 1

/-- Block 0 is synchronized. -/
def closeState : SyncState Store where
  syncPoint := some ⟨⟨(0 : ℕ), .solo⟩⟩
  db := collectionStore

theorem closeNode_at : NodeAt sampleChain 1 closeNode :=
  ⟨(sampleNode_at .solo).finalized, (sampleNode_at .solo).hashes, (sampleNode_at .solo).blocks⟩

theorem closeNode_wellSigned : WellSignedNode closeNode := by
  rintro hash block h
  cases h
  refine ⟨?_, ?_⟩
  · intro record hrecord i hi
    simp only [closeBlock, List.mem_cons, List.not_mem_nil, or_false] at hrecord
    rcases hrecord with rfl | rfl
    · cases hi
      exact Nat.zero_lt_two
    · cases hi
      exact Nat.one_lt_two
  · intro tx htx hunsigned
    simp only [closeBlock, List.mem_cons, List.not_mem_nil, or_false] at htx
    rcases htx with rfl | rfl
    · rfl
    · cases hunsigned

theorem recovers_iff_close : @Recovers noLegalOfficers noVault closeApi closeNode closeState
    (@stopAfter noLegalOfficers noVault closeApi closeNode closeState 0 0) :=
  (@recovers_iff noLegalOfficers noVault closeApi closeNode sampleChain 1 closeState closeNode_at
    closeNode_wellSigned (fun point hpoint => by cases hpoint; exact le_refl 0) ⟨1, _, rfl⟩ 0 0).mpr rfl

/-- The processing stops after the transaction of the closing is stored: running again stores it a
second time. -/
theorem transaction_duplicated :
    (exec (@consumeNewBlocks _ _ closeNode (@processBlock noLegalOfficers noVault closeApi) 1)
        closeState).2.db.db.transactions.length = 1 ∧
      (exec (@consumeNewBlocks _ _ closeNode (@processBlock noLegalOfficers noVault closeApi) 1)
        (@stopAfter noLegalOfficers noVault closeApi closeNode closeState 0 1)).2.db.db.transactions.length
          = 2 ∧
      ¬ @Recovers noLegalOfficers noVault closeApi closeNode closeState
        (@stopAfter noLegalOfficers noVault closeApi closeNode closeState 0 1) := by
  refine ⟨rfl, rfl, ?_⟩
  exact @not_recovers_of noLegalOfficers noVault _ _ _ _ _ 1 _ _ closeNode_wellSigned closeNode_at
    (.next (Nat.zero_le 1)) rfl 0 1 (List.cons_ne_nil _ _)

end Logion
