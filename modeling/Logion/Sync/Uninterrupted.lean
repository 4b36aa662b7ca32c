import Logion.Sync.InTurn

/-!
# Uninterrupted — a scheduled run alone does what `consumeNewBlocks` does

The two models of a run, from one `await` to the next one and as a whole, agree: when nothing happens
between the start of a run and its end, the scheduler is left with what `consumeNewBlocks` stores,
whether it returns or throws.

* `Ends`: what a run comes to when it is alone.
* `Delays`, `Refines`: a computation that awaits before it goes on, and one that is cut at every `await`.
* `refines_consumeNewBlocks`: the whole run, through its two loops.
* `uninterrupted_run`: the scheduler.
-/

namespace Logion

open Effect Fallible

variable {δ ξ : Type} {node : Node ξ} {processBlock : ξ → Eff δ Err Unit}

/-! ### Runs that are alone -/

variable (node processBlock) in
/-- A run that has come to this ends, and leaves `s'`. -/
inductive Ends : Except Stop (Option (Await ξ)) × SyncState δ → SyncState δ → Prop
  | returned {s : SyncState δ} : Ends (.ok none, s) s
  | threw {e : Stop} {s : SyncState δ} : Ends (.error e, s) s
  | awaits {a : Await ξ} {s s' : SyncState δ} (h : Ends (exec (a.resume node processBlock) s) s') :
      Ends (.ok (some a), s) s'

variable (node processBlock) in
/-- Where `x` ends `y` ends, which may await something first. -/
def Delays (x y : SyncM δ (Option (Await ξ))) : Prop :=
  ∀ s s', Ends node processBlock (exec x s) s' → Ends node processBlock (exec y s) s'

variable (node processBlock) in
/-- Where `x` is done, unless it had not enough fuel, `y` ends. -/
def Refines (x : SyncM δ Unit) (y : SyncM δ (Option (Await ξ))) : Prop :=
  ∀ s, (exec x s).1 ≠ .error .outOfFuel → Ends node processBlock (exec y s) (exec x s).2

section

variable {α : Type} {x y z : SyncM δ (Option (Await ξ))} {f g : α → SyncM δ (Option (Await ξ))}
  {loop : BatchLoop}

theorem Delays.refl (x : SyncM δ (Option (Await ξ))) : Delays node processBlock x x := fun _ _ h => h

theorem Delays.trans (hxy : Delays node processBlock x y) (hyz : Delays node processBlock y z) :
    Delays node processBlock x z := fun s s' h => hyz s s' (hxy s s' h)

theorem Delays.bind (m : SyncM δ α) (h : ∀ a, Delays node processBlock (f a) (g a)) :
    Delays node processBlock (m >>= f) (m >>= g) := by
  intro s s' hends
  rw [exec_bind] at hends ⊢
  rcases hm : exec m s with ⟨_ | a, s₁⟩
  · rw [hm] at hends
    exact hends
  · rw [hm] at hends
    exact h a s₁ s' hends

/-- One `await`. -/
theorem delays_await (a : Await ξ) :
    Delays node processBlock (a.resume node processBlock) (pure (some a)) := fun _ _ h => .awaits h

theorem Refines.delayed {w : SyncM δ Unit} (h : Refines node processBlock w x)
    (hxy : Delays node processBlock x y) : Refines node processBlock w y :=
  fun s hfuel => hxy s _ (h s hfuel)

theorem Refines.bind {w : α → SyncM δ Unit} (m : SyncM δ α)
    (h : ∀ a, Refines node processBlock (w a) (f a)) :
    Refines node processBlock (m >>= w) (m >>= f) := by
  intro s hfuel
  rw [exec_bind] at hfuel ⊢
  rw [exec_bind]
  rcases hm : exec m s with ⟨_ | a, s₁⟩
  · exact .threw
  · rw [hm] at hfuel
    exact h a s₁ hfuel

theorem refines_throw (e : Stop) : Refines node processBlock (throw e : SyncM δ Unit) (throw e) :=
  fun _ _ => .threw

theorem refines_return : Refines node processBlock (pure () : SyncM δ Unit) (pure none) :=
  fun _ _ => .returned

/-! ### The loops -/

/-- The blocks of a batch, one after the other. -/
theorem delays_visit (loop : BatchLoop) (blocks rest : List SignedBlock) :
    Delays node processBlock
      (forEach (visitBlock node processBlock) rest >>= fun _ => loop.visit blocks [])
      (loop.visit blocks rest) := by
  induction rest with
  | nil => exact fun _ _ h => h
  | cons block rest ih =>
    rw [forEach, visitBlock, BatchLoop.visit]
    simp only [bind_assoc]
    refine .bind _ fun _ => ?_
    split_ifs with hempty
    · rw [pure_bind]
      exact ih
    · refine .trans ?_ (delays_await _)
      rw [Await.resume]
      simp only [bind_assoc]
      refine .bind _ fun extended => .trans ?_ (delays_await _)
      rw [Await.resume]
      exact .bind _ fun _ => .bind _ fun _ => ih

/-- The blocks of a batch, from the last one to the first one. -/
theorem delays_fetch (loop : BatchLoop) (hash : BlockHash) (later : List SignedBlock) (n : ℕ) :
    Delays node processBlock
      (blocksBackFrom node hash n >>= fun blocks => loop.visit (blocks ++ later) (blocks ++ later))
      (loop.fetch hash later n) := by
  induction n generalizing hash later with
  | zero => exact fun _ _ h => h
  | succ n ih =>
    refine .trans ?_ (delays_await _)
    rw [blocksBackFrom, Await.resume]
    simp only [bind_assoc]
    refine .bind _ fun nextBlock => .trans ?_ (ih nextBlock.parentHash (nextBlock :: later))
    refine .bind _ fun earlier => ?_
    rw [pure_bind, List.append_assoc]
    exact .refl _

/-- The end of a batch. -/
theorem refines_endOfBatch (loop : BatchLoop) (blocks : List SignedBlock)
    {k : Block → SyncPoint → SyncM δ Unit} (hk : ∀ currentLast syncPoint,
      Refines node processBlock (k currentLast syncPoint)
        (pure (loop.advance blocks currentLast syncPoint).next)) :
    Refines node processBlock
      (match blocks.getLast? with
        | none => fail "Cannot read properties of undefined"
        | some lastOfBatch =>
          sync loop.lastSyncPoint (loop.currentLast.at lastOfBatch.number) >>=
            k (loop.currentLast.at lastOfBatch.number))
      (loop.visit blocks []) := by
  rw [BatchLoop.visit]
  cases blocks.getLast? with
  | none => exact refines_throw _
  | some lastOfBatch =>
    refine .delayed ?_ (delays_await _)
    exact .bind _ fun syncPoint => hk _ syncPoint

/-- **The loop over the batches**, by induction on the fuel. -/
theorem refines_batchLoop (fuel : ℕ) (loop : BatchLoop) :
    Refines node processBlock
      (batchLoop node processBlock loop.head loop.blocksToSync fuel loop.totalProcessedBlocks loop.nextStop
        loop.currentLast loop.lastSyncPoint)
      (pure loop.next) := by
  induction fuel generalizing loop with
  | zero =>
    rw [batchLoop, BatchLoop.next]
    split_ifs with hmore
    · exact fun s hfuel => absurd rfl hfuel
    · exact refines_return
  | succ fuel ih =>
    rw [batchLoop, BatchLoop.next]
    split_ifs with hmore
    · refine .delayed ?_ (delays_await _)
      rw [Await.resume]
      unfold getBlocksUpTo
      dsimp only
      split_ifs with hsize
      · exact fun _ _ => .threw
      · refine .delayed (.bind _ fun blocks => .delayed (.bind _ fun _ =>
          refines_endOfBatch loop blocks fun currentLast syncPoint =>
            ih (loop.advance blocks currentLast syncPoint)) (delays_visit loop blocks blocks)) ?_
        refine .trans ?_ (delays_fetch loop _ [] _)
        refine .bind _ fun blocks => ?_
        rw [List.append_nil]
        exact .refl _
    · exact refines_return

/-- **A whole run.** -/
theorem refines_consumeNewBlocks (fuel : ℕ) :
    Refines node processBlock (consumeNewBlocks node processBlock fuel)
      (pure (some .getHeadBlockHash)) := by
  refine .delayed (.delayed ?_ (delays_await (.getHeadBlock node.getFinalizedHead)))
    (delays_await .getHeadBlockHash)
  rw [Await.resume, consumeNewBlocks]
  refine .bind _ fun headBlock => .delayed ?_ (delays_await _)
  rw [Await.resume]
  refine .bind _ fun s => ?_
  dsimp only
  split_ifs with hsame
  · exact refines_return
  · cases getLastBlock ⟨headBlock.number, node.chainType⟩ (s.syncPoint.map SyncPoint.block) with
    | error e => exact refines_throw _
    | ok lastBlock => exact refines_batchLoop fuel (BatchLoop.start _ lastBlock s.syncPoint)

end

/-! ### The scheduler -/

namespace Scheduler

variable {nodes : ℕ → Node ξ} {head : ℕ} {s s' : SyncState δ} {a : Await ξ}
  {r : Except Stop (Option (Await ξ)) × SyncState δ}

theorem settle_alone (hends : Ends (nodes head) processBlock r s') (s₀ : SyncState δ) (a₀ : Await ξ) :
    ∃ k, run (step nodes processBlock) (settle ⟨head, s₀, true, [a₀]⟩ 0 r)
      (List.replicate k (.resume 0)) = start head s' := by
  induction hends generalizing s₀ a₀ with
  | returned => exact ⟨0, rfl⟩
  | threw => exact ⟨0, rfl⟩
  | @awaits a s s' _ ih =>
    obtain ⟨k, hk⟩ := ih s a
    exact ⟨k + 1, hk⟩

/-- **A run of the scheduler that nothing interrupts** leaves what `consumeNewBlocks` leaves, from any
stored state, whether it returns or throws. -/
theorem uninterrupted_run (nodes : ℕ → Node ξ) (processBlock : ξ → Eff δ Err Unit) (head fuel : ℕ)
    (s : SyncState δ)
    (hfuel : (exec (consumeNewBlocks (nodes head) processBlock fuel) s).1 ≠ .error .outOfFuel) :
    ∃ k, run (step nodes processBlock) (start head s) (.tick :: List.replicate k (.resume 0)) =
      start head (exec (consumeNewBlocks (nodes head) processBlock fuel) s).2 := by
  have hends := refines_consumeNewBlocks fuel s hfuel
  exact settle_alone hends s .getHeadBlockHash

/-- One batch of one block. -/
theorem uninterrupted_run_unary : ∃ k,
    run (step unaryNode sampleProcess) (start 1 ⟨some ⟨⟨0, .para⟩⟩, 0, []⟩)
      (.tick :: List.replicate k (.resume 0)) =
    start 1 (exec (consumeNewBlocks (unaryNode 1) sampleProcess 1) ⟨some ⟨⟨0, .para⟩⟩, 0, []⟩).2 := by
  refine uninterrupted_run unaryNode sampleProcess 1 1 ⟨some ⟨⟨0, .para⟩⟩, 0, []⟩ ?_
  have hcalm : NoFailure unaryChain 1 (unaryNode 1) sampleProcess :=
    fun n _ _ => ⟨_, rfl, fun db => ⟨db + 1, rfl⟩⟩
  have hstart : StartsAt (unaryNode 1) 1 (some ⟨⟨((0 : ℕ) : ℤ), .para⟩⟩) 1 := .next (by decide)
  obtain ⟨s', τ, hrun, -⟩ := consumeNewBlocks_eq (s := ⟨some ⟨⟨0, .para⟩⟩, 0, []⟩)
    (unaryNode_oneChain.nodeAt 1) hcalm hstart (le_refl 1)
  rw [hrun]
  exact fun h => by cases h

end Scheduler

end Logion
