import Logion.Sync.ScheduledRuns

/-!
# RecordedBlocks — what the database keeps of the blocks, whatever happens to the runs

`R h n db` says what `db` records of the blocks up to `n`, when the finalized head is `h`.  If the
processing of a block, what an interrupted one leaves, and the other writes keep it, then it holds in
every run of the scheduler, up to the stored sync point and what the run in progress has processed.

* `Records`: what must be shown of `R` and of the processing of one block.
* `Await.position`: the block up to which a run has processed the chain.
* `records_resume`: what a run does next.
* `records_run`: every run of the scheduler.
-/

namespace Logion

open Effect Fallible

variable {δ ξ : Type}

/-- The block `n` is not empty, and a node has answered `extended` for it. -/
def Fetched (chain : Chain) (nodes : ℕ → Node ξ) (n : ℕ) (extended : ξ) : Prop :=
  isEmptyBlock (chain.block n) = false ∧
    ∃ k ≥ n, (nodes k).getExtendedBlock (chain.block n).hash = some extended

/-- What the processing of one block, and everything else, must do to `R` after block `p`: `Cut` is
what a block may leave when it is not processed to its end, `Written` what the others may write.  An
exception or a restart, possible if `disturbed`, takes the sync point for what has been processed. -/
structure Records (chain : Chain) (nodes : ℕ → Node ξ) (processBlock : ξ → Eff δ Err Unit)
    (Cut : ξ → δ → δ → Prop) (Written : δ → δ → Prop) (disturbed : Prop) (p : ℕ)
    (R : ℕ → ℕ → δ → Prop) : Prop where
  grows : ∀ {h h' n db}, R h n db → h ≤ h' → R h' n db
  passes : ∀ {h n db}, p ≤ n → n < h → isEmptyBlock (chain.block (n + 1)) = true →
    R h n db → R h (n + 1) db
  processes : ∀ {h n extended db db'}, p ≤ n → n < h → Fetched chain nodes (n + 1) extended →
    exec (processBlock extended) db = (.ok (), db') → R h n db → R h (n + 1) db'
  throws : ∀ {extended e db db'}, exec (processBlock extended) db = (.error e, db') →
    Cut extended db db'
  cut : ∀ {h n extended db db'}, disturbed → p ≤ n → n < h → Fetched chain nodes (n + 1) extended →
    Cut extended db db' → R h n db → R h n db'
  back : ∀ {h q n db}, disturbed → p ≤ q → q ≤ n → R h n db → R h q db
  written : ∀ {h n db db'}, Written db db' → R h n db → R h n db'

/-- The block up to which a run that awaits this has processed the chain, when the sync point is that
of block `q`. -/
def Await.position (q : ℕ) : Await ξ → ℕ
  | .getExtendedBlock _ blocks _ rest | .processBlock _ blocks _ rest _ =>
    q + (blocks.length - rest.length) - 1
  | .sync _ blocks _ => q + blocks.length
  | _ => q

/-! ### What a run does next -/

section

variable {chain : Chain} {type : ChainType} {nodes : ℕ → Node ξ} {processBlock : ξ → Eff δ Err Unit}
  {Cut : ξ → δ → δ → Prop} {Written : δ → δ → Prop} {disturbed : Prop} {R : ℕ → ℕ → δ → Prop}
  {head head' p p₀ q b n h : ℕ} {part : List Event} {loop : BatchLoop} {a : Await ξ} {s : SyncState δ}

theorem AwaitInv.position_le (ha : AwaitInv chain type nodes head q part a) (hq : q ≤ head) :
    q ≤ a.position q ∧ a.position q ≤ head := by
  cases a with
  | getHeadBlockHash | getHeadBlock | findByName | getBlockHash | getBlocksUpTo => exact ⟨le_refl q, hq⟩
  | getExtendedBlock loop blocks block rest =>
    obtain ⟨b, n, hbatch, rfl, hqn, hnb, -, -, rfl, -⟩ := ha
    have hle := hbatch.le
    simp only [Await.position, length_blocksBetween]
    omega
  | processBlock loop blocks block rest extended =>
    obtain ⟨b, n, hbatch, rfl, hqn, hnb, -, -, rfl, -⟩ := ha
    have hle := hbatch.le
    simp only [Await.position, length_blocksBetween]
    omega
  | sync loop blocks currentLast =>
    obtain ⟨b, hbatch, rfl, -⟩ := ha
    have hle := hbatch.le
    have hlt := hbatch.lt
    simp only [Await.position, length_blocksBetween]
    omega

variable (type R) in
/-- The sync point is that of some block after `p`, and the database records the chain up to the
`position` that goes with it. -/
def RecordsUpTo (head p : ℕ) (position : ℕ → ℕ) (s : SyncState δ) : Prop :=
  ∃ q : ℕ, s.syncPoint = some ⟨⟨q, type⟩⟩ ∧ p ≤ q ∧ R head (position q) s.db

variable (type R) in
/-- What a run has come to. -/
def RecordsTo (head p : ℕ) : Except Stop (Option (Await ξ)) × SyncState δ → Prop
  | (.ok (some a), s) => RecordsUpTo type R head p a.position s
  | (.ok none, s) | (.error _, s) => RecordsUpTo type R head p id s

theorem recordsTo_next (hs : s.syncPoint = some ⟨⟨q, type⟩⟩) (hp : p ≤ q) (hR : R head q s.db) :
    RecordsTo type R head p ((.ok loop.next : Except Stop (Option (Await ξ))), s) := by
  rw [BatchLoop.next]
  split_ifs
  · exact ⟨q, hs, hp, hR⟩
  · exact ⟨q, hs, hp, hR⟩

section

variable (hrecords : Records chain nodes processBlock Cut Written disturbed p R)

include hrecords

/-- The rest of the batch: the empty blocks are passed over. -/
theorem recordsTo_visit (hs : s.syncPoint = some ⟨⟨q, type⟩⟩) (hp : p ≤ q)
    (hbatch : loop.InBatch type head q b) (hqn : q ≤ n) (hnb : n ≤ b) (hR : R head n s.db) :
    RecordsTo (ξ := ξ) type R head p
      (exec (loop.visit (blocksBetween chain q b) (blocksBetween chain n b)) s) := by
  have hle := hbatch.le
  induction hk : b - n generalizing n s with
  | zero =>
    obtain rfl : n = b := by omega
    rw [blocksBetween_self, BatchLoop.visit, getLast?_blocksBetween hbatch.lt]
    refine ⟨q, hs, hp, ?_⟩
    simp only [Await.position, length_blocksBetween]
    rwa [Nat.add_sub_cancel' hqn]
  | succ k ih =>
    have hlt : n < b := by omega
    rw [blocksBetween_cons hlt, BatchLoop.visit, exec_bind_ok (exec_emit _ s)]
    cases hempty : isEmptyBlock (chain.block (n + 1)) with
    | true =>
      rw [if_pos rfl]
      exact ih hs (by omega) hlt (hrecords.passes (by omega) (by omega) hempty hR) (by omega)
    | false =>
      rw [if_neg Bool.false_ne_true]
      refine ⟨q, hs, hp, ?_⟩
      have hposition : q + (b - q - (b - (n + 1))) - 1 = n := by omega
      simpa only [Await.position, length_blocksBetween, hposition] using hR

/-- The blocks of the batch that are still to get. -/
theorem recordsTo_fetch (hs : s.syncPoint = some ⟨⟨q, type⟩⟩) (hp : p ≤ q)
    (hbatch : loop.InBatch type head q b) (hR : R head q s.db) (missing : ℕ) (hash : BlockHash)
    {later : List SignedBlock} (hlater : missing = 0 → later = blocksBetween chain q b) :
    RecordsTo (ξ := ξ) type R head p (exec (loop.fetch hash later missing) s) := by
  cases missing with
  | zero =>
    rw [BatchLoop.fetch, hlater rfl]
    exact recordsTo_visit hrecords hs hp hbatch (le_refl q) hbatch.lt.le hR
  | succ missing => exact ⟨q, hs, hp, hR⟩

theorem recordsTo_getBlockHash (hs : s.syncPoint = some ⟨⟨q, type⟩⟩) (hp : p ≤ q) (hh : h ≤ head)
    (hqh : q < h) (hat : loop.At type h q) (hR : R head q s.db) :
    RecordsTo type R head p
      (exec ((Await.getBlockHash loop).resume (nodes head) processBlock) s) := by
  obtain ⟨b, hstop, hqb, hbh, hsize⟩ := getNextStop_eq (h := h) (a := q + 1) hqh
  have hq : (((q + 1 : ℕ) : ℤ) - 1) = q := by omega
  rw [hq, ← hat.nextStop] at hstop
  have hcount : loop.nextStop - loop.currentLast.blockNumber = ((b - q : ℕ) : ℤ) := by
    rw [hstop, hat.currentLast]
    show (b : ℤ) - q = _
    omega
  simp only [Await.resume, hcount, Int.toNat_natCast]
  rw [if_neg (by omega)]
  exact recordsTo_fetch hrecords hs hp ⟨⟨h, hh, hbh, hat⟩, hqb, by omega⟩ hR (b - q) _
    fun hzero => absurd hzero (by omega)

theorem recordsTo_getExtendedBlock {blocks rest : List SignedBlock} {block : SignedBlock}
    (hs : s.syncPoint = some ⟨⟨q, type⟩⟩) (hp : p ≤ q)
    (hinv : AwaitInv chain type nodes head q part (.getExtendedBlock loop blocks block rest))
    (hR : R head ((Await.getExtendedBlock (ξ := ξ) loop blocks block rest).position q) s.db)
    (hok : disturbed ∨ Returns (exec ((Await.getExtendedBlock loop blocks block rest).resume
      (nodes head) processBlock) s).1) :
    RecordsTo type R head p
      (exec ((Await.getExtendedBlock loop blocks block rest).resume (nodes head) processBlock) s) := by
  obtain ⟨b, n, hbatch, rfl, hqn, hnb, rfl, hempty, rfl, -⟩ := hinv
  have hposition : q + (b - q - (b - (n + 1))) - 1 = n := by omega
  simp only [Await.position, length_blocksBetween, hposition] at hR
  rw [Await.resume] at hok ⊢
  cases hext : (nodes head).getExtendedBlock (chain.block (n + 1)).hash with
  | none =>
    rw [getExtendedBlockByHash, hext] at hok ⊢
    rcases hok with hdisturbed | ⟨_, hok⟩
    · exact ⟨q, hs, hp, hrecords.back hdisturbed hp hqn hR⟩
    · cases hok
  | some extended =>
    rw [getExtendedBlockByHash, hext]
    refine ⟨q, hs, hp, ?_⟩
    simpa only [Await.position, length_blocksBetween, hposition] using hR

theorem recordsTo_processBlock {blocks rest : List SignedBlock} {block : SignedBlock} {extended : ξ}
    (hs : s.syncPoint = some ⟨⟨q, type⟩⟩) (hp : p ≤ q)
    (hinv : AwaitInv chain type nodes head q part (.processBlock loop blocks block rest extended))
    (hR : R head ((Await.processBlock loop blocks block rest extended).position q) s.db)
    (hok : disturbed ∨ Returns (exec ((Await.processBlock loop blocks block rest extended).resume
      (nodes head) processBlock) s).1) :
    RecordsTo type R head p
      (exec ((Await.processBlock loop blocks block rest extended).resume (nodes head) processBlock) s) := by
  obtain ⟨b, n, hbatch, rfl, hqn, hnb, rfl, hempty, rfl, -, hext⟩ := hinv
  have hle := hbatch.le
  have hposition : q + (b - q - (b - (n + 1))) - 1 = n := by omega
  simp only [Await.position, length_blocksBetween, hposition] at hR
  rw [Await.resume] at hok ⊢
  rcases hproc : exec (processBlock extended) s.db with ⟨e | _, db⟩
  · have hthrew : exec (liftDb (processBlock extended)) s =
        (.error (.threw e), { s with db := db }) := by
      rw [liftDb, exec_bind_ok (exec_get s), hproc]
      rfl
    rw [exec_bind_error hthrew] at hok ⊢
    rcases hok with hdisturbed | ⟨_, hok⟩
    · have hcut := hrecords.cut hdisturbed (by omega) (by omega) ⟨hempty, hext⟩
        (hrecords.throws hproc) hR
      exact ⟨q, hs, hp, hrecords.back hdisturbed hp hqn hcut⟩
    · cases hok
  · rw [exec_bind_ok (exec_liftDb_ok hproc), exec_bind_ok (exec_emit _ _)]
    have hdone := hrecords.processes (by omega) (by omega) ⟨hempty, hext⟩ hproc hR
    exact recordsTo_visit hrecords hs hp hbatch (by omega) hnb hdone

/-- **What a run does next**: it records the blocks that it has processed, or leaves off. -/
theorem records_resume (hnodes : OneChain chain type nodes)
    (ha : Awaits chain type nodes True head p₀ s a) (hr : RecordsUpTo type R head p a.position s)
    (hok : disturbed ∨ Returns (exec (a.resume (nodes head) processBlock) s).1) :
    RecordsTo type R head p (exec (a.resume (nodes head) processBlock) s) := by
  obtain ⟨q, τ, part, hstored, -, hinv⟩ := ha
  obtain ⟨q', hs, hp, hR⟩ := hr
  obtain rfl : q = q' := by
    have hsame := hstored.syncPoint.symm.trans hs
    simpa using hsame
  cases a with
  | getHeadBlockHash => exact ⟨q, hs, hp, hR⟩
  | getHeadBlock headHash =>
    obtain ⟨-, h, hh, hqh, rfl⟩ := hinv
    rw [Await.resume, exec_bind_ok (exec_getBlockByHash (hnodes.nodeAt head) hh s)]
    exact ⟨q, hs, hp, hR⟩
  | findByName block =>
    rw [Await.resume, exec_bind_ok (exec_get s)]
    dsimp only
    split_ifs with hsame
    · exact ⟨q, hs, hp, hR⟩
    · cases getLastBlock block (s.syncPoint.map SyncPoint.block) with
      | error e => exact ⟨q, hs, hp, hR⟩
      | ok lastBlock => exact recordsTo_next hs hp hR
  | getBlockHash loop =>
    obtain ⟨-, h, hh, hqh, hat⟩ := hinv
    exact recordsTo_getBlockHash hrecords hs hp hh hqh hat hR
  | getBlocksUpTo loop nextHash missing later =>
    obtain ⟨-, b, hbatch, hmissing, rfl, rfl⟩ := hinv
    have hle := hbatch.le
    have hnext : q + 1 + missing = q + missing + 1 := by omega
    rw [hnext] at hmissing ⊢
    rw [Await.resume, exec_bind_ok (exec_getBlockByHash (hnodes.nodeAt head) (by omega) s),
      ← blocksBetween_cons (by omega)]
    exact recordsTo_fetch hrecords hs hp hbatch hR missing _ fun hzero => by rw [hzero, Nat.add_zero]
  | getExtendedBlock loop blocks block rest =>
    exact recordsTo_getExtendedBlock hrecords hs hp hinv hR hok
  | processBlock loop blocks block rest extended =>
    exact recordsTo_processBlock hrecords hs hp hinv hR hok
  | sync loop blocks currentLast =>
    obtain ⟨b, hbatch, rfl, rfl, -⟩ := hinv
    have hlt := hbatch.lt
    rw [Await.resume, exec_bind_ok (exec_sync (fun _ => by rw [hs]; rfl) _)]
    simp only [Await.position, length_blocksBetween, Nat.add_sub_cancel' hlt.le] at hR
    exact recordsTo_next rfl (hp.trans hlt.le) hR

end

end

/-! ### The scheduler -/

namespace Scheduler

section

variable (nodes : ℕ → Node ξ) (processBlock : ξ → Eff δ Err Unit) (Cut : ξ → δ → δ → Prop)
  (Written : δ → δ → Prop) (disturbed : Prop)

/-- What an exception or a restart leaves: what there was, or some of the block being processed. -/
def Leaves (σ : SchedulerState δ ξ) (db : δ) : Prop :=
  db = σ.store.db ∨ ∃ loop blocks block rest extended,
    .processBlock loop blocks block rest extended ∈ σ.runs ∧ Cut extended σ.store.db db

/-- The requests only write what they may; nothing throws and nothing restarts, unless `disturbed`. -/
def Permitted (σ : SchedulerState δ ξ) : Op δ → Prop
  | .tick | .finalize _ => True
  | .resume i => ∀ a ∈ σ.runs[i]?,
      disturbed ∨ Returns (exec (a.resume (nodes σ.head) processBlock) σ.store).1
  | .request db => Written σ.store.db db
  | .fail _ db | .restart db => disturbed ∧ Leaves Cut σ db

instance [∀ db db', Decidable (Written db db')] (σ : SchedulerState δ ξ) : (o : Op δ) →
    Decidable (Permitted nodes processBlock Cut Written False σ o)
  | .tick | .finalize _ => .isTrue trivial
  | .resume i => inferInstanceAs (Decidable (∀ a ∈ σ.runs[i]?,
      False ∨ Returns (exec (a.resume (nodes σ.head) processBlock) σ.store).1))
  | .request db => inferInstanceAs (Decidable (Written σ.store.db db))
  | .fail _ _ | .restart _ => .isFalse And.left

/-- The block up to which the runs have processed the chain; there is one run at most. -/
def position : List (Await ξ) → ℕ → ℕ
  | [], q => q
  | a :: _, q => a.position q

end

variable {chain : Chain} {type : ChainType} {nodes : ℕ → Node ξ} {processBlock : ξ → Eff δ Err Unit}
  {Cut : ξ → δ → δ → Prop} {Written : δ → δ → Prop} {disturbed : Prop} {R : ℕ → ℕ → δ → Prop}
  {head p h : ℕ} {a : Await ξ} {s : SyncState δ} {σ σ' : SchedulerState δ ξ} {o : Op δ}

variable (chain type nodes R) in
structure Recorded (p : ℕ) (σ : SchedulerState δ ξ) : Prop where
  inv : Inv chain type nodes True p σ
  records : RecordsUpTo type R σ.head p (position σ.runs) σ.store

/-- The run goes on, or it ends. -/
theorem records_settle {r : Except Stop (Option (Await ξ)) × SyncState δ} (hruns : σ.runs = [a])
    (h : RecordsTo type R σ.head p r) :
    RecordsUpTo type R (settle σ 0 r).head p (position (settle σ 0 r).runs) (settle σ 0 r).store := by
  obtain ⟨⟨⟩ | ⟨⟨⟩ | a'⟩, s⟩ := r <;>
  · simp only [settle, hruns]
    exact h

section

variable (hrecords : Records chain nodes processBlock Cut Written disturbed p R)

include hrecords

/-- An exception and a restart take the sync point for what has been processed. -/
theorem Recorded.leaves (hσ : Recorded chain type nodes R p σ) (hdisturbed : disturbed) {db : δ}
    (hdb : Leaves Cut σ db) : RecordsUpTo type R σ.head p id { σ.store with db := db } := by
  obtain ⟨q, hs, hp, hR⟩ := hσ.records
  refine ⟨q, hs, hp, ?_⟩
  cases hσ.inv with
  | atRest hrunning hruns h =>
    rw [hruns] at hR
    rcases hdb with rfl | ⟨loop, blocks, block, rest, extended, hmem, -⟩
    · exact hR
    · rw [hruns] at hmem
      cases hmem
  | awaits a hrunning hruns h =>
    rw [hruns] at hR
    obtain ⟨q', τ, part, hstored, -, hinv⟩ := h
    obtain rfl : q' = q := by
      have hsame := hstored.syncPoint.symm.trans hs
      simpa using hsame
    have hposition := hinv.position_le hstored.le
    rcases hdb with rfl | ⟨loop, blocks, block, rest, extended, hmem, hcut⟩
    · exact hrecords.back hdisturbed hp hposition.1 hR
    · obtain rfl : .processBlock loop blocks block rest extended = a := by simpa [hruns] using hmem
      obtain ⟨b, n, hbatch, rfl, hqn, hnb, rfl, hempty, rfl, -, hext⟩ := hinv
      have hle := hbatch.le
      have hat : q' + (b - q' - (b - (n + 1))) - 1 = n := by omega
      simp only [position, Await.position, length_blocksBetween, hat] at hR
      exact hrecords.back hdisturbed hp hqn
        (hrecords.cut hdisturbed (by omega) (by omega) ⟨hempty, hext⟩ hcut hR)

/-- **One step.** -/
theorem Recorded.step (hnodes : OneChain chain type nodes) (hσ : Recorded chain type nodes R p σ)
    (ho : Permitted nodes processBlock Cut Written disturbed σ o)
    (hok : Scheduler.step nodes processBlock σ o = .ok σ') : Recorded chain type nodes R p σ' := by
  refine ⟨hσ.inv.step hnodes (fun hnot => absurd trivial hnot) (fun _ => trivial) hok, ?_⟩
  have hr := hσ.records
  cases o with
  | tick =>
    rw [Scheduler.step] at hok
    split_ifs at hok with hrunning
    · cases hok
      exact hr
    · cases hσ.inv with
      | atRest _ hruns _ =>
        cases hok
        rw [hruns] at hr
        simp only [hruns]
        exact hr
      | awaits a htrue _ _ => exact absurd htrue hrunning
  | resume i =>
    rw [Scheduler.step] at hok
    split at hok
    · cases hok
    · next a hi =>
      obtain ⟨rfl, hrunning, hruns, h⟩ := hσ.inv.getElem? hi
      cases hok
      rw [hruns] at hr
      exact records_settle hruns (records_resume hrecords hnodes h hr (ho a hi))
  | fail i db =>
    rw [Scheduler.step] at hok
    split at hok
    · cases hok
    · next a hi =>
      obtain ⟨rfl, hrunning, hruns, h⟩ := hσ.inv.getElem? hi
      cases hok
      simp only [hruns]
      exact hσ.leaves hrecords ho.1 ho.2
  | finalize blocks =>
    cases hok
    obtain ⟨q, hs, hp, hR⟩ := hr
    exact ⟨q, hs, hp, hrecords.grows hR (Nat.le_add_right _ _)⟩
  | request db =>
    cases hok
    obtain ⟨q, hs, hp, hR⟩ := hr
    exact ⟨q, hs, hp, hrecords.written ho hR⟩
  | restart db =>
    cases hok
    exact hσ.leaves hrecords ho.1 ho.2

/-- **Every run of the scheduler**: the database records the chain up to the stored sync point, and
what the run in progress has processed after it. -/
theorem records_run (hnodes : OneChain chain type nodes) (hp : p ≤ h)
    (hs : s.syncPoint = some ⟨⟨p, type⟩⟩) (htrace : s.trace = []) (hR : R h p s.db) {os : List (Op δ)}
    (hos : Along (Scheduler.step nodes processBlock)
      (Permitted nodes processBlock Cut Written disturbed) (start h s) os) :
    let σ := run (Scheduler.step nodes processBlock) (start h s) os
    ∃ q n : ℕ, σ.store.syncPoint = some ⟨⟨q, type⟩⟩ ∧ p ≤ q ∧ q ≤ n ∧ n ≤ σ.head ∧
      (σ.runs = [] → n = q) ∧ R σ.head n σ.store.db := by
  intro σ
  have hinv : Recorded chain type nodes R p σ := by
    refine run_invariant (fun σ o σ' hσ ho hok => hσ.step hrecords hnodes ho hok) ⟨?_, ?_⟩ hos
    · exact .atRest rfl rfl ⟨p, hs, hp, htrace ▸ .start⟩
    · exact ⟨p, hs, le_refl p, hR⟩
  obtain ⟨q, hq, hpq, hrecorded⟩ := hinv.records
  refine ⟨q, position σ.runs q, hq, hpq, ?_⟩
  cases hinv.inv with
  | atRest _ hruns h =>
    obtain ⟨q', hstored⟩ := h
    obtain rfl : q' = q := by
      have hsame := hstored.syncPoint.symm.trans hq
      simpa using hsame
    rw [hruns] at hrecorded ⊢
    exact ⟨le_refl q', hstored.le, fun _ => rfl, hrecorded⟩
  | awaits a _ hruns h =>
    obtain ⟨q', τ, part, hstored, -, hawait⟩ := h
    obtain rfl : q' = q := by
      have hsame := hstored.syncPoint.symm.trans hq
      simpa using hsame
    have hposition := hawait.position_le hstored.le
    rw [hruns] at hrecorded ⊢
    exact ⟨hposition.1, hposition.2, fun h => absurd h (List.cons_ne_nil _ _), hrecorded⟩

end

end Scheduler

end Logion
