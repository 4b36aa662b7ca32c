import Logion.Sync.ScheduledRuns

/-!
# InTurn — the scheduler consumes the blocks in turn

What the traces of the scheduled runs say of every block.

* `InTurn`: a block is visited when those before it have just been visited.
* `Consumption.inTurn`, `Consumption.consumed`, `Consumption.once`: what a trace consumes.
* `scheduled_consumption`: no block is skipped or consumed out of turn, whatever fails.
* `scheduled_once`: if nothing fails, every block is consumed once.
-/

namespace Logion

open Effect Fallible

variable {δ ξ : Type} {chain : Chain} {type : ChainType} {nodes : ℕ → Node ξ}
  {processBlock : ξ → Eff δ Err Unit} {disturbed : Prop} {head h p q b : ℕ} {part τ : List Event}
  {s : SyncState δ} {a : Await ξ}

/-! ### Reading a trace -/

/-- The number of the last block whose sync point was stored. -/
def syncedUpTo (p : ℤ) (trace : List Event) : ℤ :=
  trace.foldl (fun last event => match event with
    | .synced block => block.blockNumber
    | _ => last) p

/-- Each block is visited when all those between it and the stored sync point, which are less than
ten, have just been visited. -/
def InTurn (chain : Chain) (p : ℕ) (trace : List Event) : Prop :=
  ∀ (pre : List Event) (n : ℤ) (post : List Event), trace = pre ++ .visited n :: post →
    ∃ q m : ℕ, syncedUpTo p pre = q ∧ n = (m + 1 : ℕ) ∧ q ≤ m ∧ m < q + 10 ∧ visits chain q m <:+ pre

section

variable {pre post : List Event} {m : ℕ} {i : ℤ}

theorem syncedUpTo_append (i : ℤ) (τ τ' : List Event) :
    syncedUpTo i (τ ++ τ') = syncedUpTo (syncedUpTo i τ) τ' := List.foldl_append

theorem syncedUpTo_visits (i : ℤ) (a b : ℕ) : syncedUpTo i (visits chain a b) = i := by
  rw [visits]
  induction blocksAfter a b with
  | nil => rfl
  | cons n ns ih =>
    have hn : syncedUpTo i (visitEvents chain n) = i := by
      unfold visitEvents
      split_ifs <;> rfl
    rw [List.flatMap_cons, syncedUpTo_append, hn, ih]

theorem syncedUpTo_part (hpart : part <+: visits chain q b) : syncedUpTo i part = i := by
  obtain ⟨rest, hrest⟩ := hpart
  have hsynced : ∀ event ∈ part, ∀ block, event ≠ .synced block := by
    intro event hevent block heq
    subst heq
    have hmem : Event.synced block ∈ visits chain q b := hrest ▸ List.mem_append_left _ hevent
    obtain ⟨n, -, hn⟩ := List.mem_flatMap.mp hmem
    unfold visitEvents at hn
    split_ifs at hn <;> simp at hn
  clear hrest
  induction part with
  | nil => rfl
  | cons event events ih =>
    have hevent : syncedUpTo i [event] = i := by
      cases event with
      | synced block => exact absurd rfl (hsynced _ List.mem_cons_self block)
      | visited n => rfl
      | processed n => rfl
    rw [← List.singleton_append, syncedUpTo_append, hevent]
    exact ih fun e he => hsynced e (List.mem_cons_of_mem _ he)

theorem Consumption.syncedUpTo_eq (hτ : Consumption chain type disturbed h p q τ) :
    syncedUpTo p τ = q := by
  induction hτ with
  | start => rfl
  | batch hτ hqb hb hsize ih =>
    rw [syncedUpTo_append, syncedUpTo_append]
    rfl
  | interrupted hτ hdisturbed hb hsize hpart ih =>
    rw [syncedUpTo_append, syncedUpTo_part hpart, ih]

/-- What was visited before a block of a batch. -/
theorem visits_eq_append (h : visits chain q b = pre ++ .visited i :: post) :
    ∃ m, q ≤ m ∧ m < b ∧ i = (m + 1 : ℕ) ∧ pre = visits chain q m := by
  induction hk : b - q generalizing q pre with
  | zero =>
    have hnone : visits chain q b = [] := by
      rw [visits, blocksAfter, hk]
      rfl
    rw [hnone] at h
    simp at h
  | succ k ih =>
    have hlt : q < b := by omega
    have hsplit : visits chain q b = visitEvents chain (q + 1) ++ visits chain (q + 1) b := by
      rw [visits, blocksAfter_cons hlt]
      rfl
    have hfirst : visits chain q (q + 1) = visitEvents chain (q + 1) := by
      rw [visits_succ (le_refl q), visits_self, List.nil_append]
    rw [hsplit] at h
    cases pre with
    | nil =>
      -- the first event
      rw [visitEvents, List.cons_append, List.nil_append] at h
      obtain ⟨heq, -⟩ := List.cons_eq_cons.mp h
      cases heq
      exact ⟨q, le_refl q, hlt, rfl, (visits_self q).symm⟩
    | cons event pre =>
      have hrest : ∃ pre', event :: pre = visitEvents chain (q + 1) ++ pre' ∧
          visits chain (q + 1) b = pre' ++ .visited i :: post := by
        unfold visitEvents at h ⊢
        split_ifs at h ⊢ with hempty
        · exact ⟨pre, by simpa using (List.cons_eq_cons.mp h).1.symm, (List.cons_eq_cons.mp h).2⟩
        · obtain ⟨hevent, h⟩ := List.cons_eq_cons.mp h
          cases pre with
          | nil => cases (List.cons_eq_cons.mp h).1
          | cons event' pre =>
            obtain ⟨hevent', h⟩ := List.cons_eq_cons.mp h
            exact ⟨pre, by simp [← hevent, ← hevent'], h⟩
      obtain ⟨pre', hpre, hrest⟩ := hrest
      obtain ⟨m, hqm, hmb, hi, rfl⟩ := ih hrest (by omega)
      refine ⟨m, by omega, hmb, hi, ?_⟩
      rw [hpre, ← hfirst, ← visits_append (Nat.le_succ q) hqm]

/-- One more part of a batch, or a whole one. -/
theorem InTurn.append {part : List Event} (hτ : InTurn chain p τ) (hq : syncedUpTo p τ = q)
    (hpart : ∀ (pre : List Event) (i : ℤ) (post : List Event), part = pre ++ .visited i :: post →
      ∃ m, q ≤ m ∧ m < q + 10 ∧ i = (m + 1 : ℕ) ∧ pre = visits chain q m) :
    InTurn chain p (τ ++ part) := by
  intro pre i post hsplit
  rcases List.append_eq_append_iff.mp hsplit with ⟨pre', rfl, hpre'⟩ | ⟨rest, rfl, hrest⟩
  · obtain ⟨m, hqm, hsize, hi, rfl⟩ := hpart pre' i post hpre'
    refine ⟨q, m, ?_, hi, hqm, hsize, List.suffix_append τ _⟩
    rw [syncedUpTo_append, hq, syncedUpTo_visits]
  · cases rest with
    | nil =>
      obtain ⟨m, hqm, hsize, hi, hnil⟩ := hpart [] i post hrest.symm
      refine ⟨q, m, ?_, hi, hqm, hsize, hnil ▸ List.nil_suffix⟩
      rw [← hq, List.append_nil]
    | cons event rest =>
      obtain ⟨rfl, -⟩ := List.cons_eq_cons.mp hrest
      exact hτ pre i rest rfl

theorem Consumption.inTurn (hτ : Consumption chain type disturbed h p q τ) : InTurn chain p τ := by
  induction hτ with
  | start =>
    intro pre i post hsplit
    simp at hsplit
  | @batch q b τ hτ hqb hb hsize ih =>
    refine ih.append hτ.syncedUpTo_eq fun pre i post hsplit => ?_
    -- the last event is not a visit
    rcases List.eq_nil_or_concat post with rfl | ⟨post, last, rfl⟩
    · have hlast := congrArg List.getLast? hsplit
      simp at hlast
    · have hinit : visits chain q b ++ [.synced ⟨b, type⟩] = (pre ++ .visited i :: post) ++ [last] := by
        simpa using hsplit
      obtain ⟨m, hqm, hmb, hi, hpre⟩ := visits_eq_append (List.append_inj_left' hinit rfl)
      exact ⟨m, hqm, by omega, hi, hpre⟩
  | @interrupted q b τ part hτ hdisturbed hb hsize hpart ih =>
    refine ih.append hτ.syncedUpTo_eq fun pre i post hsplit => ?_
    obtain ⟨rest, hrest⟩ := hpart
    rw [hsplit, List.append_assoc, List.cons_append] at hrest
    obtain ⟨m, hqm, hmb, hi, hpre⟩ := visits_eq_append hrest.symm
    exact ⟨m, hqm, by omega, hi, hpre⟩

end

/-! ### What is consumed -/

/-- The blocks in `(a, b]` that are not empty. -/
def blocksToProcess (chain : Chain) (a b : ℕ) : List ℤ :=
  ((blocksAfter a b).filter fun n => !isEmptyBlock (chain.block n)).map Int.ofNat

theorem visitedBlocks_visits (a b : ℕ) :
    visitedBlocks (visits chain a b) = (blocksAfter a b).map Int.ofNat := visitedBlocks_range _

theorem processedBlocks_visits (a b : ℕ) :
    processedBlocks (visits chain a b) = blocksToProcess chain a b := processedBlocks_range _

theorem blocksToProcess_append {c : ℕ} (hqb : q ≤ b) (hbc : b ≤ c) :
    blocksToProcess chain q c = blocksToProcess chain q b ++ blocksToProcess chain b c := by
  rw [blocksToProcess, blocksAfter_append hqb hbc, List.filter_append, List.map_append]
  rfl

section

variable (hτ : Consumption chain type disturbed h p q τ)

include hτ

/-- Nothing is skipped. -/
theorem Consumption.consumed (hp : p ≤ h) :
    ((blocksAfter p q).map Int.ofNat).Sublist (visitedBlocks τ) ∧
      (blocksToProcess chain p q).Sublist (processedBlocks τ) := by
  induction hτ with
  | start =>
    rw [blocksToProcess, blocksAfter_self]
    exact ⟨List.nil_sublist _, List.nil_sublist _⟩
  | @batch q b τ hτ hqb hb hsize ih =>
    obtain ⟨hvisited, hprocessed⟩ := ih
    have hpq := (hτ.le hp).1
    rw [blocksAfter_append hpq hqb.le, blocksToProcess_append hpq hqb.le, List.map_append]
    simp only [visitedBlocks_append, processedBlocks_append, visitedBlocks_visits,
      processedBlocks_visits]
    exact ⟨hvisited.append (List.sublist_append_left _ _),
      hprocessed.append (List.sublist_append_left _ _)⟩
  | interrupted hτ hdisturbed hb hsize hpart ih =>
    obtain ⟨hvisited, hprocessed⟩ := ih
    rw [visitedBlocks_append, processedBlocks_append]
    exact ⟨hvisited.trans (List.sublist_append_left _ _),
      hprocessed.trans (List.sublist_append_left _ _)⟩

/-- Nothing else is visited. -/
theorem Consumption.visited_le (hp : p ≤ h) : ∀ i ∈ visitedBlocks τ, (p : ℤ) < i ∧ i ≤ h := by
  have hvisits : ∀ a b : ℕ, p ≤ a → b ≤ h → ∀ i ∈ visitedBlocks (visits chain a b),
      (p : ℤ) < i ∧ i ≤ h := by
    intro a b ha hb i hi
    rw [visitedBlocks_visits, List.mem_map] at hi
    obtain ⟨n, hn, rfl⟩ := hi
    rw [blocksAfter, List.mem_range'_1] at hn
    simp only [Int.ofNat_eq_natCast]
    omega
  induction hτ with
  | start => simp [visitedBlocks]
  | @batch q b τ hτ hqb hb hsize ih =>
    intro i hi
    simp only [visitedBlocks_append, List.mem_append] at hi
    rcases hi with hi | hi | hi
    · exact ih i hi
    · exact hvisits q b (hτ.le hp).1 hb i hi
    · simp [visitedBlocks] at hi
  | @interrupted q b τ part hτ hdisturbed hb hsize hpart ih =>
    intro i hi
    rw [visitedBlocks_append, List.mem_append] at hi
    rcases hi with hi | hi
    · exact ih i hi
    · exact hvisits q b (hτ.le hp).1 hb i ((hpart.filterMap _).subset hi)

end

/-- Nothing was disturbed: every block is consumed once. -/
theorem Consumption.once (hτ : Consumption chain type False h p q τ) (hp : p ≤ h) :
    visitedBlocks τ = (blocksAfter p q).map Int.ofNat ∧
      processedBlocks τ = blocksToProcess chain p q := by
  induction hτ with
  | start =>
    rw [blocksToProcess, blocksAfter_self]
    exact ⟨rfl, rfl⟩
  | @batch q b τ hτ hqb hb hsize ih =>
    obtain ⟨hvisited, hprocessed⟩ := ih
    have hpq := (hτ.le hp).1
    rw [blocksAfter_append hpq hqb.le, blocksToProcess_append hpq hqb.le, List.map_append]
    simp only [visitedBlocks_append, processedBlocks_append, visitedBlocks_visits,
      processedBlocks_visits, hvisited, hprocessed]
    exact ⟨by simp [visitedBlocks], by simp [processedBlocks]⟩
  | interrupted hτ hdisturbed hb hsize hpart ih => exact hdisturbed.elim

/-! ### The contract -/

namespace Scheduler

section

variable (chain type) (p q : ℕ) (σ : SchedulerState δ ξ)

/-- **No block is skipped or consumed out of turn.**  There is one run at most.  The stored sync point,
that of block `q`, is behind the head; the blocks up to it were visited, in order, and processed if they
are not empty; a block is visited again only after the stored sync point, in turn. -/
structure ConsumedInTurn : Prop where
  oneRun : σ.runs.length ≤ 1
  running : σ.running = true ↔ σ.runs ≠ []
  syncPoint : σ.store.syncPoint = some ⟨⟨q, type⟩⟩
  le : p ≤ q ∧ q ≤ σ.head
  consumption : Consumption chain type True σ.head p q σ.store.trace
  inTurn : InTurn chain p σ.store.trace
  visited : ((blocksAfter p q).map Int.ofNat).Sublist (visitedBlocks σ.store.trace)
  processed : (blocksToProcess chain p q).Sublist (processedBlocks σ.store.trace)
  nothingElse : ∀ i ∈ visitedBlocks σ.store.trace, (p : ℤ) < i ∧ i ≤ σ.head

end

variable {σ : SchedulerState δ ξ}

theorem Inv.runs (hσ : Inv chain type nodes disturbed p σ) :
    σ.runs.length ≤ 1 ∧ (σ.running = true ↔ σ.runs ≠ []) := by
  cases hσ with
  | atRest hrunning hruns h => simp [hrunning, hruns]
  | awaits a hrunning hruns h => simp [hrunning, hruns]

/-- **The scheduler consumes the chain in turn**, whatever happens meanwhile: ticks of the timer, new
blocks, writes of other requests, failed calls and restarts. -/
theorem scheduled_consumption (hnodes : OneChain chain type nodes) (hp : p ≤ h)
    (hs : s.syncPoint = some ⟨⟨p, type⟩⟩) (htrace : s.trace = []) (os : List (Op δ)) :
    ∃ q, ConsumedInTurn chain type p q (run (step nodes processBlock) (start h s) os) := by
  have hinv : Inv chain type nodes True p (run (step nodes processBlock) (start h s) os) :=
    inv_run hnodes (fun hnot => absurd trivial hnot) (fun _ _ _ => trivial) hp hs htrace
  have hrest : AtRest chain type True (run (step nodes processBlock) (start h s) os).head p
      (run (step nodes processBlock) (start h s) os).store := by
    cases hinv with
    | atRest _ _ h => exact h
    | awaits a _ _ h => exact h.interrupt trivial
  obtain ⟨q, hstored⟩ := hrest
  have hhead : p ≤ (run (step nodes processBlock) (start h s) os).head :=
    run_induct (I := fun σ : SchedulerState δ ξ => p ≤ σ.head)
      (fun σ o σ' hle hok => hle.trans (head_le_of_step hok)) hp os
  have hconsumed := hstored.consumption.consumed hhead
  exact ⟨q, hinv.runs.1, hinv.runs.2, hstored.syncPoint, hstored.consumption.le hhead,
    hstored.consumption, hstored.consumption.inTurn, hconsumed.1, hconsumed.2,
    hstored.consumption.visited_le hhead⟩

end Scheduler

/-! ### A chain -/

/-- The hash of a block of the chain below. -/
def unaryHash (n : ℕ) : BlockHash := String.ofList (List.replicate n '1')

def unaryChain : Chain where
  block n := ⟨unaryHash n, unaryHash (n - 1), n, 2⟩
  number_eq _ := rfl
  parent_eq _ := rfl

/-- A node of the chain, with this finalized head. -/
def unaryNode (head : ℕ) : Node String where
  chainType := .para
  getFinalizedHead := unaryHash head
  getBlockHash n := unaryHash n.toNat
  getBlock hash := some (unaryChain.block hash.length)
  getExtendedBlock hash := some hash

theorem length_unaryHash (n : ℕ) : (unaryHash n).length = n := by
  rw [unaryHash, String.length_ofList, List.length_replicate]

theorem unaryNode_oneChain : OneChain unaryChain .para unaryNode where
  nodeAt h := {
    finalized := rfl
    hashes := fun n _ => rfl
    blocks := fun n _ => by
      show some (unaryChain.block (unaryHash n).length) = _
      rw [length_unaryHash] }
  chainType _ := rfl

/-- A run in which the process is killed while it processes a block, and started again. -/
def killedWhileProcessing : List (Scheduler.Op ℕ) :=
  [.tick] ++ List.replicate 9 (.resume 0) ++ [.tick, .restart 7, .finalize 1, .tick] ++
    List.replicate 12 (.resume 0)

theorem scheduled_consumption_killed : ∃ q, Scheduler.ConsumedInTurn unaryChain .para 0 q
    (run (Scheduler.step unaryNode sampleProcess) (Scheduler.start 2 ⟨some ⟨⟨0, .para⟩⟩, 0, []⟩)
      killedWhileProcessing) :=
  Scheduler.scheduled_consumption unaryNode_oneChain (by decide) rfl rfl _

end Logion
