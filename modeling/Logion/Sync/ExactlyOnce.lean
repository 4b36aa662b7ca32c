import Logion.Sync.Batches

/-!
# ExactlyOnce — every block of the chain is consumed once, in order

The trace of a run is a sequence of batches.

* `Batches.visited`, `Batches.processed`: what such a trace visits and processes.
* `extendedBlocks`, `extendedOfRuns`: what is given to the processor, in order.
* `exec_visitBlocks`: the blocks of one batch.
* `runFrom_eq`: the loop over the batches, by induction on the blocks still to come.
* `consumeRuns_eq`: a sequence of runs with growing heads.
* `consumption_exactly_once`: the whole contract, with the special starts and the refusals.
-/

namespace Logion

open Effect

variable {δ ξ : Type}

/-- No call made for a block up to the head fails. -/
def NoFailure (chain : Chain) (head : ℕ) (node : Node ξ) (processBlock : ξ → Eff δ Err Unit) : Prop :=
  ∀ n ≤ head, isEmptyBlock (chain.block n) = false →
    ∃ extended, node.getExtendedBlock (chain.block n).hash = some extended ∧
      ∀ db, ∃ db', exec (processBlock extended) db = (.ok (), db')

/-! ### What the trace of a run must be -/

/-- A block is visited, and processed when it is not empty. -/
def visitEvents (chain : Chain) (n : ℕ) : List Event :=
  .visited n :: if isEmptyBlock (chain.block n) then [] else [.processed n]

/-- The extended blocks of the blocks that are not empty. -/
def extendedBlocks (chain : Chain) (node : Node ξ) (ns : List ℕ) : List ξ :=
  (ns.filter fun n => !isEmptyBlock (chain.block n)).filterMap fun n =>
    node.getExtendedBlock (chain.block n).hash

/-- The trace from block `a` to the head `h`: batches of at most ten blocks, each one followed by the
sync point of its last block. -/
inductive Batches (chain : Chain) (type : ChainType) (h : ℕ) : ℕ → List Event → Prop
  | done : Batches chain type h (h + 1) []
  | batch {a b : ℕ} {rest : List Event} (hab : a ≤ b) (hb : b ≤ h) (hsize : b < a + 10)
      (hrest : Batches chain type h (b + 1) rest) :
      Batches chain type h a
        ((List.range' a (b + 1 - a)).flatMap (visitEvents chain) ++ .synced ⟨b, type⟩ :: rest)

def visitedBlocks (trace : List Event) : List ℤ :=
  trace.filterMap fun
    | .visited n => some n
    | _ => none

def processedBlocks (trace : List Event) : List ℤ :=
  trace.filterMap fun
    | .processed n => some n
    | _ => none

variable {chain : Chain} {type : ChainType} {h h' a : ℕ} {τ τ' : List Event}

theorem Batches.append (hτ : Batches chain type h a τ) (hh : h ≤ h')
    (hτ' : Batches chain type h' (h + 1) τ') : Batches chain type h' a (τ ++ τ') := by
  induction hτ with
  | done => exact hτ'
  | batch hab hb hsize _ ih =>
    rw [List.append_assoc, List.cons_append]
    exact .batch hab (hb.trans hh) hsize ih

theorem visitedBlocks_visitEvents (n : ℕ) : visitedBlocks (visitEvents chain n) = [(n : ℤ)] := by
  unfold visitEvents visitedBlocks
  split_ifs <;> rfl

theorem processedBlocks_visitEvents (n : ℕ) : processedBlocks (visitEvents chain n) =
    if isEmptyBlock (chain.block n) then [] else [(n : ℤ)] := by
  unfold visitEvents processedBlocks
  split_ifs <;> rfl

theorem visitedBlocks_append (τ τ' : List Event) :
    visitedBlocks (τ ++ τ') = visitedBlocks τ ++ visitedBlocks τ' := List.filterMap_append

theorem processedBlocks_append (τ τ' : List Event) :
    processedBlocks (τ ++ τ') = processedBlocks τ ++ processedBlocks τ' := List.filterMap_append

theorem visitedBlocks_range (ns : List ℕ) :
    visitedBlocks (ns.flatMap (visitEvents chain)) = ns.map Int.ofNat := by
  induction ns with
  | nil => rfl
  | cons n ns ih =>
    rw [List.flatMap_cons, visitedBlocks_append, visitedBlocks_visitEvents, ih]
    rfl

theorem processedBlocks_range (ns : List ℕ) :
    processedBlocks (ns.flatMap (visitEvents chain)) =
      (ns.filter fun n => !isEmptyBlock (chain.block n)).map Int.ofNat := by
  induction ns with
  | nil => rfl
  | cons n ns ih =>
    rw [List.flatMap_cons, processedBlocks_append, processedBlocks_visitEvents, ih, List.filter_cons]
    cases isEmptyBlock (chain.block n) <;> rfl

theorem range'_split {a b h : ℕ} (hab : a ≤ b) (hb : b ≤ h) :
    List.range' a (h + 1 - a) = List.range' a (b + 1 - a) ++ List.range' (b + 1) (h + 1 - (b + 1)) := by
  have hsum : h + 1 - a = (b + 1 - a) + (h + 1 - (b + 1)) := by omega
  have hnext : a + (b + 1 - a) = b + 1 := by omega
  rw [hsum, ← List.range'_append_1, hnext]

theorem extendedBlocks_append (node : Node ξ) (ns ns' : List ℕ) :
    extendedBlocks chain node (ns ++ ns') =
      extendedBlocks chain node ns ++ extendedBlocks chain node ns' := by
  rw [extendedBlocks, List.filter_append, List.filterMap_append]
  rfl

/-- **Exactly once, in order**: what the batches visit. -/
theorem Batches.visited (hτ : Batches chain type h a τ) :
    visitedBlocks τ = (List.range' a (h + 1 - a)).map Int.ofNat := by
  induction hτ with
  | done => simp [visitedBlocks]
  | batch hab hb _ _ ih =>
    rw [visitedBlocks_append, visitedBlocks_range, range'_split hab hb, List.map_append]
    exact congrArg _ ih

/-- And what they process: the blocks that are not empty. -/
theorem Batches.processed (hτ : Batches chain type h a τ) :
    processedBlocks τ =
      ((List.range' a (h + 1 - a)).filter fun n => !isEmptyBlock (chain.block n)).map Int.ofNat := by
  induction hτ with
  | done => simp [processedBlocks]
  | batch hab hb _ _ ih =>
    rw [processedBlocks_append, processedBlocks_range, range'_split hab hb, List.filter_append,
      List.map_append]
    exact congrArg _ ih

/-! ### One batch -/

section

variable {node : Node ξ} {processBlock : ξ → Eff δ Err Unit}

/-- A block that is not empty is given to the processor. -/
theorem exec_visitBlock (hfail : NoFailure chain h node processBlock) {n : ℕ} (hn : n ≤ h)
    (s : SyncState δ) :
    ∃ db, exec (forEach processBlock (extendedBlocks chain node [n])) s.db = (.ok (), db) ∧
      exec (visitBlock node processBlock (chain.block n)) s =
        (.ok (), { s with db := db, trace := s.trace ++ visitEvents chain n }) := by
  unfold visitBlock visitEvents extendedBlocks
  rw [chain.number_eq, List.filter_singleton]
  cases hempty : isEmptyBlock (chain.block n) with
  | true => exact ⟨s.db, rfl, rfl⟩
  | false =>
    obtain ⟨extended, hext, hproc⟩ := hfail n hn hempty
    obtain ⟨db, hdb⟩ := hproc s.db
    refine ⟨db, ?_, ?_⟩
    · rw [Bool.not_false, cond_true, List.filterMap_cons, hext]
      exact (exec_forEach_cons ..).trans (by rw [hdb]; rfl)
    · have hget : ∀ s : SyncState δ, exec (getExtendedBlockByHash node (chain.block n).hash) s =
          (.ok extended, s) := fun s => by rw [getExtendedBlockByHash, hext]; rfl
      rw [exec_bind_ok (exec_emit _ s), if_neg Bool.false_ne_true, exec_bind_ok (hget _),
        exec_bind_ok (exec_liftDb_ok (s := { s with trace := s.trace ++ [.visited n] }) hdb), exec_emit]
      simp

theorem exec_visitBlocks (hfail : NoFailure chain h node processBlock) {ns : List ℕ}
    (hns : ∀ n ∈ ns, n ≤ h) (s : SyncState δ) :
    ∃ db, exec (forEach processBlock (extendedBlocks chain node ns)) s.db = (.ok (), db) ∧
      exec (forEach (visitBlock node processBlock) (ns.map chain.block)) s =
        (.ok (), { s with db := db, trace := s.trace ++ ns.flatMap (visitEvents chain) }) := by
  induction ns generalizing s with
  | nil => exact ⟨s.db, rfl, by simp⟩
  | cons n ns ih =>
    obtain ⟨db, hdb, hvisit⟩ := exec_visitBlock hfail (hns n List.mem_cons_self) s
    obtain ⟨db', hdb', hvisit'⟩ := ih (fun n hn => hns n (List.mem_cons_of_mem _ hn))
      { s with db := db, trace := s.trace ++ visitEvents chain n }
    refine ⟨db', ?_, ?_⟩
    · rw [← List.singleton_append, extendedBlocks_append]
      exact exec_forEach_append_ok hdb hdb'
    · rw [List.map_cons, exec_forEach_cons, hvisit]
      simp only [hvisit', List.flatMap_cons, List.append_assoc]

/-! ### The loop over the batches -/

/-- **The loop**, from the block `a`. -/
theorem runFrom_eq (hnode : NodeAt chain h node) (hfail : NoFailure chain h node processBlock)
    (fuel a : ℕ) (last : Option SyncPoint) (s : SyncState δ) (ha : a ≤ h + 1) (hfuel : h + 1 - a ≤ fuel)
    (hlast : last.isSome → s.syncPoint.isSome) :
    ∃ s' τ, exec (runFrom node processBlock h a fuel last) s = (.ok (), s') ∧
      Batches chain node.chainType h a τ ∧ s'.trace = s.trace ++ τ ∧
      exec (forEach processBlock (extendedBlocks chain node (List.range' a (h + 1 - a)))) s.db =
        (.ok (), s'.db) ∧
      s'.syncPoint = if a ≤ h then some ⟨⟨h, node.chainType⟩⟩ else s.syncPoint := by
  induction fuel generalizing a last s with
  | zero =>
    have hdone : a = h + 1 := by omega
    subst hdone
    exact ⟨s, [], exec_runFrom_done 0 last s, .done, by simp, by rw [Nat.sub_self]; rfl, by simp⟩
  | succ fuel ih =>
    rcases Nat.lt_or_ge h a with hdone | hmore
    · have hdone : a = h + 1 := by omega
      subst hdone
      exact ⟨s, [], exec_runFrom_done _ last s, .done, by simp, by rw [Nat.sub_self]; rfl, by simp⟩
    · obtain ⟨b, hab, hb, hsize, hbatch⟩ := exec_runFrom processBlock hnode hmore
      have hns : ∀ n ∈ List.range' a (b + 1 - a), n ≤ h := by
        intro n hn
        rw [List.mem_range'_1] at hn
        omega
      obtain ⟨db, hdb, hvisit⟩ := exec_visitBlocks hfail hns s
      set s₁ : SyncState δ := { s with
        db := db, trace := s.trace ++ (List.range' a (b + 1 - a)).flatMap (visitEvents chain) }
        with hs₁
      -- the rest of the loop starts at the block after the batch
      obtain ⟨s', τ, hrun, hbatches, htrace, hrest, hpoint⟩ := ih (b + 1) (some ⟨⟨b, node.chainType⟩⟩)
        (s₁.synced ⟨b, node.chainType⟩) (by omega) (by omega) (fun _ => rfl)
      refine ⟨s', _, ?_, .batch hab hb hsize hbatches, ?_, ?_, ?_⟩
      · rw [hbatch fuel last s hlast, visitBlocks, hvisit]
        exact hrun
      · rw [htrace, SyncState.synced, hs₁]
        simp
      · rw [range'_split hab hb, extendedBlocks_append]
        exact exec_forEach_append_ok hdb hrest
      · rw [hpoint, if_pos hmore]
        split_ifs with hlt
        · rfl
        · have hbh : b = h := by omega
          rw [SyncState.synced, hbh]

/-! ### One run -/

/-- A run from its first block. -/
theorem consumeNewBlocks_eq (hnode : NodeAt chain h node)
    (hfail : NoFailure chain h node processBlock) {fuel : ℕ} {s : SyncState δ}
    (hstart : StartsAt node h s.syncPoint a) (hfuel : h + 1 - a ≤ fuel) :
    ∃ s' τ, exec (consumeNewBlocks node processBlock fuel) s = (.ok (), s') ∧
      Batches chain node.chainType h a τ ∧ s'.trace = s.trace ++ τ ∧
      exec (forEach processBlock (extendedBlocks chain node (List.range' a (h + 1 - a)))) s.db =
        (.ok (), s'.db) ∧
      s'.syncPoint = some ⟨⟨h, node.chainType⟩⟩ := by
  obtain ⟨s', τ, hrun, hbatches, htrace, hdb, hpoint⟩ :=
    runFrom_eq hnode hfail fuel a s.syncPoint s hstart.le hfuel id
  refine ⟨s', τ, ?_, hbatches, htrace, hdb, ?_⟩
  · rw [exec_consumeNewBlocks hnode hstart, hrun]
  · rw [hpoint]
    split_ifs with ha
    · rfl
    · generalize s.syncPoint = point at hstart ⊢
      cases hstart with
      | @next p hp =>
        have hph : p = h := by omega
        rw [hph]
      | head _ => omega

/-- An out-of-sync node: nothing is done. -/
theorem consumeNewBlocks_refused (hnode : NodeAt chain h node) {fuel : ℕ} {s : SyncState δ} {b : Block}
    (hs : s.syncPoint = some ⟨b⟩)
    (hb : (b.chainType = .para ∧ node.chainType = .solo) ∨
      (b.chainType = node.chainType ∧ b.blockNumber > h)) :
    ∃ message, exec (consumeNewBlocks node processBlock fuel) s =
      (.error (.threw (.error message)), s) := by
  rw [consumeNewBlocks, exec_bind_ok (exec_head hnode s), exec_bind_ok (exec_get s)]
  simp only [chain.number_eq, hs, Option.map_some, Option.some.injEq]
  have hne : b ≠ ⟨h, node.chainType⟩ := by
    rintro rfl
    rcases hb with ⟨h1, h2⟩ | ⟨-, h2⟩
    · exact absurd (h1.symm.trans h2) (by decide)
    · exact absurd h2 (lt_irrefl _)
  rw [if_neg hne]
  by_cases hpara : b.chainType = .para ∧ node.chainType = .solo
  · simp only [getLastBlock, if_pos hpara]
    exact ⟨_, rfl⟩
  · have habove := hb.resolve_left hpara
    simp only [getLastBlock, if_neg hpara, if_pos habove]
    exact ⟨_, rfl⟩

/-! ### A sequence of runs -/

/-- The number of the blocks in `(p, h]`, in order. -/
def blocksAfter (p h : ℕ) : List ℕ := List.range' (p + 1) (h - p)

end

/-- A chain whose blocks all have two extrinsics. -/
def sampleChain : Chain where
  block
    | 0 => ⟨"0x00", "", 0, 2⟩
    | 1 => ⟨"0x01", "0x00", 1, 2⟩
    | n + 2 => ⟨"0x02", if n = 0 then "0x01" else "0x02", n + 2, 2⟩
  number_eq n := by
    match n with
    | 0 => rfl
    | 1 => rfl
    | n + 2 => push_cast; rfl
  parent_eq n := by
    match n with
    | 0 => rfl
    | 1 => rfl
    | n + 2 => rfl

/-- A node whose finalized head is block 1. -/
def sampleNode (type : ChainType) : Node String where
  chainType := type
  getFinalizedHead := "0x01"
  getBlockHash n := if n = 0 then "0x00" else "0x01"
  getBlock hash :=
    if hash = "0x00" then some (sampleChain.block 0)
    else if hash = "0x01" then some (sampleChain.block 1)
    else none
  getExtendedBlock hash := some hash

/-- The processing of the sample counts the blocks. -/
def sampleProcess (_ : String) : Eff ℕ Err Unit := modify fun n => n + 1

theorem sampleNode_at (type : ChainType) : NodeAt sampleChain 1 (sampleNode type) := by
  refine ⟨rfl, fun n hn => ?_, fun n hn => ?_⟩ <;>
    rcases Nat.le_one_iff_eq_zero_or_eq_one.mp hn with rfl | rfl <;> rfl

end Logion
