import Logion.Sync.BlockConsumer
import Mathlib.Data.List.Range

/-!
# Batches — the loop over the blocks, one batch after the other

A hash-linked chain is a sequence of blocks; a node agrees with it up to its finalized head.  On such
a node `consumeNewBlocks` is `runFrom` the first block to come, and `runFrom` is one batch followed by
`runFrom` the block after it.

* `blocksBackFrom_eq`: walking back by parent hash gives the blocks of the batch, in order.
* `exec_runFrom`: one batch.
* `exec_consumeNewBlocks`: where a run starts.
-/

namespace Logion

open Effect

/-! ### Chains and nodes -/

/-- A hash-linked chain. -/
structure Chain where
  block : ℕ → SignedBlock
  number_eq : ∀ n, (block n).number = n
  parent_eq : ∀ n, (block (n + 1)).parentHash = (block n).hash

variable {δ ξ : Type}

/-- The node agrees with the chain up to its finalized head. -/
structure NodeAt (chain : Chain) (head : ℕ) (node : Node ξ) : Prop where
  finalized : node.getFinalizedHead = (chain.block head).hash
  hashes : ∀ n ≤ head, node.getBlockHash n = (chain.block n).hash
  blocks : ∀ n ≤ head, node.getBlock (chain.block n).hash = some (chain.block n)

variable {chain : Chain} {h a : ℕ}

/-! ### One batch -/

section

variable {node : Node ξ} {processBlock : ξ → Eff δ Err Unit}

theorem exec_getBlockByHash (hnode : NodeAt chain h node) {n : ℕ} (hn : n ≤ h) (s : SyncState δ) :
    exec (getBlockByHash node (chain.block n).hash) s = (.ok (chain.block n), s) := by
  rw [getBlockByHash, hnode.blocks n hn]
  rfl

/-- **The backward walk.**  `n` steps back from block `m` give the last `n` blocks up to `m`. -/
theorem blocksBackFrom_eq (hnode : NodeAt chain h node) (s : SyncState δ) :
    ∀ {n m : ℕ}, m ≤ h → n ≤ m + 1 → exec (blocksBackFrom node (chain.block m).hash n) s =
      (.ok ((List.range' (m + 1 - n) n).map chain.block), s)
  | 0, _, _, _ => rfl
  | n + 1, m, hm, hn => by
    have hwalk : exec (blocksBackFrom node (chain.block m).parentHash n) s =
        (.ok ((List.range' (m - n) n).map chain.block), s) := by
      cases n with
      | zero => rfl
      | succ n =>
        obtain ⟨m', rfl⟩ : ∃ m', m = m' + 1 := ⟨m - 1, by omega⟩
        rw [chain.parent_eq, blocksBackFrom_eq hnode s (by omega) (by omega)]
    have hlast : List.range' (m + 1 - (n + 1)) (n + 1) = List.range' (m - n) n ++ [m] := by
      have hm' : m - n + n = m := by omega
      rw [Nat.add_sub_add_right, List.range'_1_concat, hm']
    rw [blocksBackFrom, exec_bind_ok (exec_getBlockByHash hnode hm s), exec_bind_ok hwalk, hlast,
      List.map_append]
    rfl

theorem exec_sync {last : Option SyncPoint} {s : SyncState δ}
    (hlast : last.isSome → s.syncPoint.isSome) (block : Block) :
    exec (sync last block) s =
      (.ok ⟨block⟩, { s with syncPoint := some ⟨block⟩, trace := s.trace ++ [.synced block] }) := by
  have hok : ¬(last.isSome && s.syncPoint.isNone) = true := by
    intro hbad
    rw [Bool.and_eq_true] at hbad
    have := hlast hbad.1
    cases hs : s.syncPoint <;> simp_all
  rw [sync, exec_bind_ok (exec_get s), if_neg hok]
  rfl

/-- The last block of the batch that starts at `a`. -/
theorem getNextStop_eq {a : ℕ} (ha : a ≤ h) :
    ∃ b : ℕ, getNextStop ((a : ℤ) - 1) h = b ∧ a ≤ b ∧ b ≤ h ∧ b < a + 10 := by
  unfold getNextStop batchSize
  split_ifs with hstop
  · exact ⟨h, rfl, ha, le_refl h, by omega⟩
  · exact ⟨a + 9, by push_cast; omega, by omega, by omega, by omega⟩

theorem exec_getBlocksUpTo (hnode : NodeAt chain h node) {a b : ℕ} (hab : a ≤ b) (hb : b ≤ h)
    (s : SyncState δ) :
    exec (getBlocksUpTo node (node.getBlockHash b) (b - ((a : ℤ) - 1))) s =
      (.ok ((List.range' a (b + 1 - a)).map chain.block), s) := by
  have hsize : ((b : ℤ) - ((a : ℤ) - 1)).toNat = b + 1 - a := by omega
  have hstart : b + 1 - (b + 1 - a) = a := by omega
  rw [getBlocksUpTo, if_neg (by omega), hsize, hnode.hashes b hb,
    blocksBackFrom_eq hnode s hb (by omega), hstart]

theorem getLast?_range' {a b : ℕ} (hab : a ≤ b) :
    ((List.range' a (b + 1 - a)).map chain.block).getLast? = some (chain.block b) := by
  have hlen : b + 1 - a = (b - a) + 1 := by omega
  have hlast : a + (b - a) = b := by omega
  rw [hlen, List.range'_1_concat, hlast, List.map_append]
  simp

theorem exec_head (hnode : NodeAt chain h node) (s : SyncState δ) :
    exec (getBlockByHash node node.getFinalizedHead) s = (.ok (chain.block h), s) := by
  rw [hnode.finalized]
  exact exec_getBlockByHash hnode (le_refl h) s

theorem keeps_visitBlock (block : SignedBlock) :
    Keeps (fun s : SyncState δ => s.syncPoint) (visitBlock node processBlock block) := by
  have hemit : ∀ event, Keeps (fun s : SyncState δ => s.syncPoint) (emit event) := fun _ _ => rfl
  refine (hemit _).bind fun _ => .ite (keeps_pure ()) (.bind ?_ fun extendedBlock =>
    .bind ?_ fun _ => hemit _)
  · unfold getExtendedBlockByHash
    split
    · exact keeps_pure _
    · exact keeps_throw _
  · intro s
    unfold liftDb
    rw [exec_bind_ok (exec_get s)]
    rcases exec (processBlock extendedBlock) s.db with ⟨_ | _, db⟩ <;> rfl

/-! ### The loop -/

variable (node processBlock)

/-- The loop from the block `a` to the head `h`. -/
def runFrom (h a fuel : ℕ) (last : Option SyncPoint) : SyncM δ Unit :=
  batchLoop node processBlock ⟨h, node.chainType⟩ ((h + 1 - a : ℕ) : ℤ) fuel 0
    (getNextStop ((a : ℤ) - 1) h) ⟨(a : ℤ) - 1, node.chainType⟩ last

/-- The blocks from `a` to `b`, visited. -/
def visitBlocks (chain : Chain) (a b : ℕ) : SyncM δ Unit :=
  forEach (visitBlock node processBlock) ((List.range' a (b + 1 - a)).map chain.block)

/-- The sync point at the end of a batch. -/
def SyncState.synced (s : SyncState δ) (block : Block) : SyncState δ :=
  { s with syncPoint := some ⟨block⟩, trace := s.trace ++ [.synced block] }

variable {node processBlock}

/-- Only the number of blocks still to come counts. -/
theorem batchLoop_shift (c : ℤ) (head : Block) (blocksToSync : ℤ) (fuel : ℕ) (total nextStop : ℤ)
    (currentLast : Block) (last : Option SyncPoint) :
    batchLoop node processBlock head (blocksToSync + c) fuel (total + c) nextStop currentLast last =
      batchLoop node processBlock head blocksToSync fuel total nextStop currentLast last := by
  induction fuel generalizing total nextStop currentLast last with
  | zero =>
    unfold batchLoop
    simp only [add_lt_add_iff_right]
  | succ fuel ih =>
    unfold batchLoop
    simp only [add_lt_add_iff_right, add_right_comm total c, ih]

theorem exec_runFrom_done (fuel : ℕ) (last : Option SyncPoint) (s : SyncState δ) :
    exec (runFrom node processBlock h (h + 1) fuel last) s = (.ok (), s) := by
  unfold runFrom batchLoop
  rw [if_neg (by omega)]
  rfl

theorem exec_runFrom_zero (ha : a ≤ h) (last : Option SyncPoint) (s : SyncState δ) :
    exec (runFrom node processBlock h a 0 last) s = (.error .outOfFuel, s) := by
  unfold runFrom batchLoop
  rw [if_pos (by omega)]
  rfl

/-- **One batch**, then the run from the block after it. -/
theorem exec_runFrom (processBlock : ξ → Eff δ Err Unit) (hnode : NodeAt chain h node) (ha : a ≤ h) :
    ∃ b, a ≤ b ∧ b ≤ h ∧ b < a + 10 ∧ ∀ (fuel : ℕ) (last : Option SyncPoint) (s : SyncState δ),
      (last.isSome → s.syncPoint.isSome) →
      exec (runFrom node processBlock h a (fuel + 1) last) s =
        match exec (visitBlocks node processBlock chain a b) s with
        | (.ok _, s₁) => exec (runFrom node processBlock h (b + 1) fuel (some ⟨⟨b, node.chainType⟩⟩))
            (s₁.synced ⟨b, node.chainType⟩)
        | (.error e, s₁) => (.error e, s₁) := by
  obtain ⟨b, hstop, hab, hb, hsize⟩ := getNextStop_eq ha
  refine ⟨b, hab, hb, hsize, fun fuel last s hlast => ?_⟩
  rw [runFrom, batchLoop, if_pos (by omega)]
  simp only [hstop]
  rw [exec_bind_ok (exec_getBlocksUpTo hnode hab hb s), exec_bind]
  unfold visitBlocks
  rcases hvisit : exec (forEach (visitBlock node processBlock)
    ((List.range' a (b + 1 - a)).map chain.block)) s with ⟨_ | _, s₁⟩
  · rfl
  · have hkept : s₁.syncPoint = s.syncPoint :=
      (Keeps.forEach (fun block => keeps_visitBlock block) _).eq hvisit
    have hlast₁ : last.isSome → s₁.syncPoint.isSome := fun h => by rw [hkept]; exact hlast h
    have hcur : (⟨(a : ℤ) - 1, node.chainType⟩ : Block).at (chain.block b).number =
        ⟨b, node.chainType⟩ := by
      simp [Block.at, chain.number_eq]
    have hcount : (((List.range' a (b + 1 - a)).map chain.block).length : ℤ) = (b + 1 - a : ℕ) := by
      simp
    dsimp only
    rw [getLast?_range' hab]
    simp only [hcur, hcount]
    rw [exec_bind_ok (exec_sync hlast₁ ⟨b, node.chainType⟩)]
    -- what is left of the loop, with the blocks of this batch taken off both counters
    have hleft : ((h + 1 - (b + 1) : ℕ) : ℤ) + (b + 1 - a : ℕ) = (h + 1 - a : ℕ) := by omega
    have hnext : (((b + 1 : ℕ) : ℤ) - 1) = b := by omega
    rw [runFrom, hnext, ← hleft, batchLoop_shift]
    rfl

/-! ### Where a run starts -/

/-- The first block that a run visits, from the stored sync point. -/
inductive StartsAt (node : Node ξ) (h : ℕ) : Option SyncPoint → ℕ → Prop
  /-- The block after the sync point. -/
  | next {p : ℕ} (hp : p ≤ h) : StartsAt node h (some ⟨⟨p, node.chainType⟩⟩) (p + 1)
  /-- The head, without a sync point or with one of the former Solo chain on a Para node. -/
  | head {point : Option SyncPoint} (hpoint : point = none ∨
      ∃ n, point = some ⟨⟨n, .solo⟩⟩ ∧ node.chainType = .para) : StartsAt node h point h

theorem StartsAt.le {point : Option SyncPoint} (hstart : StartsAt node h point a) : a ≤ h + 1 := by
  cases hstart with
  | next hp => omega
  | head _ => omega

/-- **A run** is the loop from its first block. -/
theorem exec_consumeNewBlocks (hnode : NodeAt chain h node) {s : SyncState δ}
    (hstart : StartsAt node h s.syncPoint a) (fuel : ℕ) :
    exec (consumeNewBlocks node processBlock fuel) s =
      exec (runFrom node processBlock h a fuel s.syncPoint) s := by
  rw [consumeNewBlocks, exec_bind_ok (exec_head hnode s), exec_bind_ok (exec_get s)]
  simp only [chain.number_eq]
  generalize hs : s.syncPoint = point at hstart
  cases hstart with
  | @next p hp =>
    simp only [Option.map_some, Option.some.injEq]
    rcases Nat.eq_or_lt_of_le hp with rfl | hlt
    · rw [if_pos rfl, exec_runFrom_done]
      rfl
    · have hne : (⟨p, node.chainType⟩ : Block) ≠ ⟨h, node.chainType⟩ := by
        intro heq
        have hnum : (p : ℤ) = h := congrArg Block.blockNumber heq
        omega
      have hlast : getLastBlock ⟨h, node.chainType⟩ (some ⟨p, node.chainType⟩) =
          .ok ⟨p, node.chainType⟩ := by
        have hpara : ¬(node.chainType = .para ∧ node.chainType = .solo) := by
          rintro ⟨h1, h2⟩
          rw [h1] at h2
          cases h2
        have habove : ¬((p : ℤ) > h) := by omega
        simp only [getLastBlock, if_neg hpara, habove, and_false, if_false, ne_eq, not_true_eq_false]
      have hcount : (h : ℤ) - p = (h + 1 - (p + 1) : ℕ) := by omega
      have hnext : (((p + 1 : ℕ) : ℤ) - 1) = p := by omega
      rw [if_neg hne, hlast, runFrom, hnext, ← hcount]
  | head hpoint =>
    have hlast : getLastBlock ⟨h, node.chainType⟩ (point.map SyncPoint.block) =
        .ok ⟨(h : ℤ) - 1, node.chainType⟩ := by
      rcases hpoint with rfl | ⟨n, rfl, htype⟩
      · rfl
      · rw [htype]
        rfl
    have hne : point.map SyncPoint.block ≠ some ⟨h, node.chainType⟩ := by
      rcases hpoint with rfl | ⟨n, rfl, htype⟩
      · exact fun heq => by cases heq
      · rw [htype]
        intro heq
        have htype' := congrArg Block.chainType (Option.some.inj heq)
        cases htype'
    have hcount : (h : ℤ) - (h - 1) = (h + 1 - h : ℕ) := by omega
    rw [if_neg hne, hlast]
    dsimp only
    rw [hcount]
    rfl

end

end Logion
