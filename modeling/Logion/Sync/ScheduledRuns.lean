import Logion.Sync.Scheduler

/-!
# ScheduledRuns — what the scheduled runs do to the chain, whatever happens meanwhile

The node answers along one chain whose head moves on.  The trace is then a sequence of whole batches
and of batches that were cut short, each one from the block after the sync point that was stored then.

* `Consumption`: such a trace, up to a stored sync point.
* `AwaitInv`: what a run that awaits something has done, and what it is about to do.
* `Awaits.resume`: what a run does next keeps this, or stores a whole batch.
* `inv_run`: there is one run at most, whatever happens, and its trace is such a sequence.
-/

namespace Logion

open Effect Fallible

variable {δ ξ : Type}

/-! ### Traces -/

/-- The blocks in `(a, b]`, visited. -/
def visits (chain : Chain) (a b : ℕ) : List Event := (blocksAfter a b).flatMap (visitEvents chain)

def blocksBetween (chain : Chain) (a b : ℕ) : List SignedBlock := (blocksAfter a b).map chain.block

/-- What has been done since the sync point of block `p` was stored, up to the stored sync point of
block `q`, on a chain with the finalized head `h`: batches of at most ten blocks, with their sync
points, and parts of such batches, if anything was disturbed. -/
inductive Consumption (chain : Chain) (type : ChainType) (disturbed : Prop) (h p : ℕ) :
    ℕ → List Event → Prop
  | start : Consumption chain type disturbed h p p []
  | batch {q b : ℕ} {τ : List Event} (hτ : Consumption chain type disturbed h p q τ) (hqb : q < b)
      (hb : b ≤ h) (hsize : b ≤ q + 10) :
      Consumption chain type disturbed h p b (τ ++ (visits chain q b ++ [.synced ⟨b, type⟩]))
  | interrupted {q b : ℕ} {τ part : List Event} (hτ : Consumption chain type disturbed h p q τ)
      (hdisturbed : disturbed) (hb : b ≤ h) (hsize : b ≤ q + 10) (hpart : part <+: visits chain q b) :
      Consumption chain type disturbed h p q (τ ++ part)

section

variable {chain : Chain} {type : ChainType} {disturbed : Prop} {a b c h h' p q : ℕ}
  {τ part : List Event}

theorem blocksAfter_self (a : ℕ) : blocksAfter a a = [] := by
  rw [blocksAfter, Nat.sub_self]
  rfl

theorem blocksAfter_cons (hab : a < b) : blocksAfter a b = (a + 1) :: blocksAfter (a + 1) b := by
  have hlen : b - a = (b - (a + 1)) + 1 := by omega
  rw [blocksAfter, blocksAfter, hlen, List.range'_succ]

theorem blocksAfter_append (hab : a ≤ b) (hbc : b ≤ c) :
    blocksAfter a c = blocksAfter a b ++ blocksAfter b c := by
  have hlen : c - a = (b - a) + (c - b) := by omega
  have hnext : a + 1 + (b - a) = b + 1 := by omega
  rw [blocksAfter, blocksAfter, blocksAfter, hlen, ← List.range'_append_1, hnext]

theorem blocksBetween_self (a : ℕ) : blocksBetween chain a a = [] := by
  rw [blocksBetween, blocksAfter_self]
  rfl

theorem blocksBetween_cons (hab : a < b) :
    blocksBetween chain a b = chain.block (a + 1) :: blocksBetween chain (a + 1) b := by
  rw [blocksBetween, blocksAfter_cons hab]
  rfl

theorem length_blocksBetween (a b : ℕ) : (blocksBetween chain a b).length = b - a := by
  rw [blocksBetween, List.length_map, blocksAfter, List.length_range']

theorem getLast?_blocksBetween (hab : a < b) :
    (blocksBetween chain a b).getLast? = some (chain.block b) := by
  have hrange : blocksAfter a b = List.range' (a + 1) (b + 1 - (a + 1)) := by
    rw [blocksAfter, Nat.add_sub_add_right]
  rw [blocksBetween, hrange, getLast?_range' hab]

theorem visits_self (a : ℕ) : visits chain a a = [] := by
  rw [visits, blocksAfter_self]
  rfl

theorem visits_append (hab : a ≤ b) (hbc : b ≤ c) :
    visits chain a c = visits chain a b ++ visits chain b c := by
  rw [visits, blocksAfter_append hab hbc, List.flatMap_append]
  rfl

theorem visits_succ (hab : a ≤ b) :
    visits chain a (b + 1) = visits chain a b ++ visitEvents chain (b + 1) := by
  have hlast : visits chain b (b + 1) = visitEvents chain (b + 1) := by
    rw [visits, blocksAfter_cons (Nat.lt_succ_self b), blocksAfter_self]
    simp
  rw [visits_append hab (Nat.le_succ b), hlast]

theorem Consumption.le (hτ : Consumption chain type disturbed h p q τ) (hp : p ≤ h) :
    p ≤ q ∧ q ≤ h := by
  induction hτ with
  | start => exact ⟨le_refl p, hp⟩
  | batch _ hqb hb _ ih => exact ⟨by omega, hb⟩
  | interrupted _ _ _ _ _ ih => exact ih

/-- The chain has grown. -/
theorem Consumption.mono (hτ : Consumption chain type disturbed h p q τ) (hh : h ≤ h') :
    Consumption chain type disturbed h' p q τ := by
  induction hτ with
  | start => exact .start
  | batch _ hqb hb hsize ih => exact .batch ih hqb (hb.trans hh) hsize
  | interrupted _ hdisturbed hb hsize hpart ih =>
    exact .interrupted ih hdisturbed (hb.trans hh) hsize hpart

end

/-! ### What a run is about to do -/

variable (chain : Chain) (type : ChainType) (nodes : ℕ → Node ξ)

/-- The loop at the sync point of block `q`, with `h` the head that the run has found. -/
structure BatchLoop.At (h q : ℕ) (loop : BatchLoop) : Prop where
  head : loop.head = ⟨h, type⟩
  currentLast : loop.currentLast = ⟨q, type⟩
  left : loop.blocksToSync - loop.totalProcessedBlocks = (h : ℤ) - q
  nextStop : loop.nextStop = getNextStop q h

/-- The batch of the blocks in `(q, b]`. -/
structure BatchLoop.InBatch (head q b : ℕ) (loop : BatchLoop) : Prop where
  loop : ∃ h ≤ head, b ≤ h ∧ loop.At type h q
  lt : q < b
  size : b ≤ q + 10

/-- What a run has done since the sync point of block `q` was stored, and what it awaits. -/
def AwaitInv (head q : ℕ) (part : List Event) : Await ξ → Prop
  | .getHeadBlockHash => part = []
  | .getHeadBlock headHash => part = [] ∧ ∃ h ≤ head, q ≤ h ∧ headHash = (chain.block h).hash
  | .findByName block => part = [] ∧ ∃ h ≤ head, q ≤ h ∧ block = ⟨h, type⟩
  | .getBlockHash loop => part = [] ∧ ∃ h ≤ head, q < h ∧ loop.At type h q
  | .getBlocksUpTo loop nextHash missing later => part = [] ∧ ∃ b, loop.InBatch type head q b ∧
      q + 1 + missing ≤ b ∧ nextHash = (chain.block (q + 1 + missing)).hash ∧
      later = blocksBetween chain (q + 1 + missing) b
  | .getExtendedBlock loop blocks block rest => ∃ b n, loop.InBatch type head q b ∧
      blocks = blocksBetween chain q b ∧ q ≤ n ∧ n < b ∧ block = chain.block (n + 1) ∧
      isEmptyBlock block = false ∧ rest = blocksBetween chain (n + 1) b ∧
      part = visits chain q n ++ [.visited (n + 1 : ℕ)]
  | .processBlock loop blocks block rest extendedBlock => ∃ b n, loop.InBatch type head q b ∧
      blocks = blocksBetween chain q b ∧ q ≤ n ∧ n < b ∧ block = chain.block (n + 1) ∧
      isEmptyBlock block = false ∧ rest = blocksBetween chain (n + 1) b ∧
      part = visits chain q n ++ [.visited (n + 1 : ℕ)] ∧
      ∃ k ≥ n + 1, (nodes k).getExtendedBlock block.hash = some extendedBlock
  | .sync loop blocks currentLast => ∃ b, loop.InBatch type head q b ∧
      blocks = blocksBetween chain q b ∧ currentLast = ⟨b, type⟩ ∧ part = visits chain q b

variable {chain type nodes} {head head' q b n : ℕ} {part : List Event} {loop : BatchLoop} {a : Await ξ}

theorem BatchLoop.InBatch.le (h : loop.InBatch type head q b) : b ≤ head := by
  obtain ⟨h', hh', hb, -⟩ := h.loop
  exact hb.trans hh'

theorem BatchLoop.InBatch.mono (h : loop.InBatch type head q b) (hh : head ≤ head') :
    loop.InBatch type head' q b := by
  obtain ⟨h', hh', hb, hat⟩ := h.loop
  exact ⟨⟨h', hh'.trans hh, hb, hat⟩, h.lt, h.size⟩

/-- The chain has grown. -/
theorem AwaitInv.mono (h : AwaitInv chain type nodes head q part a) (hh : head ≤ head') :
    AwaitInv chain type nodes head' q part a := by
  cases a with
  | getHeadBlockHash => exact h
  | getHeadBlock headHash =>
    obtain ⟨hpart, h', hh', hrest⟩ := h
    exact ⟨hpart, h', hh'.trans hh, hrest⟩
  | findByName block =>
    obtain ⟨hpart, h', hh', hrest⟩ := h
    exact ⟨hpart, h', hh'.trans hh, hrest⟩
  | getBlockHash loop =>
    obtain ⟨hpart, h', hh', hrest⟩ := h
    exact ⟨hpart, h', hh'.trans hh, hrest⟩
  | getBlocksUpTo loop nextHash missing later =>
    obtain ⟨hpart, b, hbatch, hrest⟩ := h
    exact ⟨hpart, b, hbatch.mono hh, hrest⟩
  | getExtendedBlock loop blocks block rest =>
    obtain ⟨b, n, hbatch, hrest⟩ := h
    exact ⟨b, n, hbatch.mono hh, hrest⟩
  | processBlock loop blocks block rest extendedBlock =>
    obtain ⟨b, n, hbatch, hrest⟩ := h
    exact ⟨b, n, hbatch.mono hh, hrest⟩
  | sync loop blocks currentLast =>
    obtain ⟨b, hbatch, hrest⟩ := h
    exact ⟨b, hbatch.mono hh, hrest⟩

/-- What the run has done is a part of a batch. -/
theorem AwaitInv.isPart (h : AwaitInv chain type nodes head q part a) (hq : q ≤ head) :
    ∃ b ≤ head, b ≤ q + 10 ∧ part <+: visits chain q b := by
  have hnone : part = [] → ∃ b ≤ head, b ≤ q + 10 ∧ part <+: visits chain q b := by
    rintro rfl
    exact ⟨q, hq, by omega, List.nil_prefix⟩
  have hvisiting : ∀ {loop : BatchLoop} {b n}, loop.InBatch type head q b → q ≤ n → n < b →
      ∃ b ≤ head, b ≤ q + 10 ∧ visits chain q n ++ [.visited (n + 1 : ℕ)] <+: visits chain q b := by
    intro loop b n hbatch hqn hnb
    have hle := hbatch.le
    have hsize := hbatch.size
    refine ⟨n + 1, by omega, by omega, ?_⟩
    rw [visits_succ hqn, List.prefix_append_right_inj, visitEvents]
    exact ⟨_, rfl⟩
  cases a with
  | getHeadBlockHash => exact hnone h
  | getHeadBlock headHash => exact hnone h.1
  | findByName block => exact hnone h.1
  | getBlockHash loop => exact hnone h.1
  | getBlocksUpTo loop nextHash missing later => exact hnone h.1
  | getExtendedBlock loop blocks block rest =>
    obtain ⟨b, n, hbatch, -, hqn, hnb, -, -, -, rfl⟩ := h
    exact hvisiting hbatch hqn hnb
  | processBlock loop blocks block rest extendedBlock =>
    obtain ⟨b, n, hbatch, -, hqn, hnb, -, -, -, rfl, -⟩ := h
    exact hvisiting hbatch hqn hnb
  | sync loop blocks currentLast =>
    obtain ⟨b, hbatch, -, -, rfl⟩ := h
    exact ⟨b, hbatch.le, hbatch.size, List.prefix_refl _⟩

/-! ### What is stored -/

section

variable (chain type nodes) (disturbed : Prop) (processBlock : ξ → Eff δ Err Unit)

/-- The sync point is that of block `q`, and `τ` has been done up to it. -/
structure Stored (head p q : ℕ) (τ : List Event) (s : SyncState δ) : Prop where
  syncPoint : s.syncPoint = some ⟨⟨q, type⟩⟩
  le : q ≤ head
  consumption : Consumption chain type disturbed head p q τ

/-- No run is in progress. -/
def AtRest (head p : ℕ) (s : SyncState δ) : Prop :=
  ∃ q, Stored chain type disturbed head p q s.trace s

/-- A run awaits `a`. -/
def Awaits (head p : ℕ) (s : SyncState δ) (a : Await ξ) : Prop :=
  ∃ q τ part, Stored chain type disturbed head p q τ s ∧ s.trace = τ ++ part ∧
    AwaitInv chain type nodes head q part a

/-- What a run has come to: it awaits something, or it has returned; it throws only if something was
disturbed. -/
def ComesTo (head p : ℕ) : Except Stop (Option (Await ξ)) × SyncState δ → Prop
  | (.ok (some a), s) => Awaits chain type nodes disturbed head p s a
  | (.ok none, s) => AtRest chain type disturbed head p s
  | (.error _, s) => disturbed ∧ AtRest chain type disturbed head p s

end

variable {disturbed : Prop} {processBlock : ξ → Eff δ Err Unit} {h p : ℕ} {τ : List Event}
  {s : SyncState δ}

theorem Stored.mono (hs : Stored chain type disturbed head p q τ s) (hh : head ≤ head') :
    Stored chain type disturbed head' p q τ s :=
  ⟨hs.syncPoint, hs.le.trans hh, hs.consumption.mono hh⟩

/-- A run that ends in the middle of a batch leaves a part of it. -/
theorem Stored.interrupt (hs : Stored chain type disturbed head p q τ s) (hdisturbed : disturbed)
    (htrace : s.trace = τ ++ part) (hb : b ≤ head) (hsize : b ≤ q + 10)
    (hpart : part <+: visits chain q b) : AtRest chain type disturbed head p s :=
  ⟨q, hs.syncPoint, hs.le, htrace ▸ hs.consumption.interrupted hdisturbed hb hsize hpart⟩

theorem Awaits.interrupt (ha : Awaits chain type nodes disturbed head p s a) (hdisturbed : disturbed) :
    AtRest chain type disturbed head p s := by
  obtain ⟨q, τ, part, hs, htrace, hinv⟩ := ha
  obtain ⟨b, hb, hsize, hpart⟩ := hinv.isPart hs.le
  exact hs.interrupt hdisturbed htrace hb hsize hpart

/-! ### What a run does next -/

/-- The next batch, or the end of the run. -/
theorem comesTo_next (hs : Stored chain type disturbed head p q s.trace s) (hh : h ≤ head)
    (hat : loop.At type h q) :
    ComesTo chain type nodes disturbed head p (.ok loop.next, s) := by
  have hleft := hat.left
  rw [BatchLoop.next]
  split_ifs with hmore
  · exact ⟨q, s.trace, [], hs, by simp, rfl, h, hh, by omega, hat⟩
  · exact ⟨q, hs⟩

/-- The rest of the batch. -/
theorem comesTo_visit (hs : Stored chain type disturbed head p q τ s)
    (hbatch : loop.InBatch type head q b) (hqn : q ≤ n) (hnb : n ≤ b)
    (htrace : s.trace = τ ++ visits chain q n) :
    ComesTo chain type nodes disturbed head p
      (exec (loop.visit (blocksBetween chain q b) (blocksBetween chain n b)) s) := by
  induction hk : b - n generalizing n s with
  | zero =>
    obtain rfl : n = b := by omega
    obtain ⟨h, hh, hbh, hat⟩ := hbatch.loop
    rw [blocksBetween_self, BatchLoop.visit, getLast?_blocksBetween hbatch.lt]
    refine ⟨q, τ, visits chain q n, hs, htrace, n, hbatch, rfl, ?_, rfl⟩
    rw [hat.currentLast, chain.number_eq]
    rfl
  | succ k ih =>
    have hlt : n < b := by omega
    rw [blocksBetween_cons hlt, BatchLoop.visit, exec_bind_ok (exec_emit _ s), chain.number_eq]
    have hs₁ : Stored chain type disturbed head p q τ
        { s with trace := s.trace ++ [.visited (n + 1 : ℕ)] } := ⟨hs.syncPoint, hs.le, hs.consumption⟩
    cases hempty : isEmptyBlock (chain.block (n + 1)) with
    | true =>
      rw [if_pos rfl]
      refine ih hs₁ (by omega) hlt ?_ (by omega)
      rw [htrace, visits_succ hqn, visitEvents, if_pos hempty, List.append_assoc]
    | false =>
      rw [if_neg Bool.false_ne_true]
      refine ⟨q, τ, visits chain q n ++ [.visited (n + 1 : ℕ)], hs₁, ?_, b, n, hbatch, rfl, hqn, hlt, rfl,
        hempty, rfl, rfl⟩
      rw [htrace, List.append_assoc]

/-- The blocks of the batch that are still to get. -/
theorem comesTo_fetch (hs : Stored chain type disturbed head p q s.trace s)
    (hbatch : loop.InBatch type head q b) {missing : ℕ} (hmissing : q + missing ≤ b) {hash : BlockHash}
    (hhash : hash = (chain.block (q + missing)).hash) :
    ComesTo chain type nodes disturbed head p
      (exec (loop.fetch hash (blocksBetween chain (q + missing) b) missing) s) := by
  cases missing with
  | zero => exact comesTo_visit hs hbatch (le_refl q) hbatch.lt.le (by simp [visits_self])
  | succ missing =>
    have hnext : q + (missing + 1) = q + 1 + missing := by omega
    rw [hnext] at hmissing hhash ⊢
    exact ⟨q, s.trace, [], hs, by simp, rfl, b, hbatch, hmissing, hhash, rfl⟩

/-- A batch that is done. -/
theorem comesTo_sync (hs : Stored chain type disturbed head p q τ s)
    (hbatch : loop.InBatch type head q b) (htrace : s.trace = τ ++ visits chain q b) :
    ComesTo chain type nodes disturbed head p
      (exec ((Await.sync loop (blocksBetween chain q b) ⟨b, type⟩).resume (nodes head) processBlock)
        s) := by
  obtain ⟨h, hh, hbh, hat⟩ := hbatch.loop
  have hlast : loop.lastSyncPoint.isSome → s.syncPoint.isSome := fun _ => by rw [hs.syncPoint]; rfl
  rw [Await.resume, exec_bind_ok (exec_sync hlast ⟨b, type⟩)]
  have hbatched := hs.consumption.batch hbatch.lt hbatch.le hbatch.size
  refine comesTo_next (q := b) ⟨rfl, hbatch.le, ?_⟩ hh ⟨hat.head, rfl, ?_, ?_⟩
  · rw [htrace, List.append_assoc]
    exact hbatched
  · have hleft := hat.left
    have hqb := hbatch.lt
    simp only [BatchLoop.advance, length_blocksBetween]
    omega
  · rw [BatchLoop.advance, hat.head]

theorem comesTo_findByName (hs : Stored chain type disturbed head p q s.trace s) (hh : h ≤ head)
    (hqh : q ≤ h) : ComesTo chain type nodes disturbed head p
      (exec ((Await.findByName ⟨h, type⟩).resume (nodes head) processBlock) s) := by
  rw [Await.resume, exec_bind_ok (exec_get s)]
  simp only [hs.syncPoint, Option.map_some, Option.some.injEq, Block.mk.injEq, and_true,
    Nat.cast_inj]
  split_ifs with hsame
  · exact ⟨q, hs⟩
  · have hpara : ¬(type = .para ∧ type = .solo) := by
      rintro ⟨rfl, h⟩
      cases h
    have habove : ¬((q : ℤ) > h) := by omega
    have hlast : getLastBlock ⟨h, type⟩ (some ⟨q, type⟩) = .ok ⟨q, type⟩ := by
      simp only [getLastBlock, if_neg hpara, habove, and_false, if_false, ne_eq, not_true_eq_false]
    rw [hlast]
    exact comesTo_next hs hh ⟨rfl, rfl, sub_zero _, rfl⟩

variable (chain type nodes) in
/-- The node answers along the chain, whatever its head. -/
structure OneChain : Prop where
  nodeAt : ∀ h, NodeAt chain h (nodes h)
  chainType : ∀ h, (nodes h).chainType = type

section

variable (hnodes : OneChain chain type nodes)

include hnodes

theorem comesTo_getBlockHash (hs : Stored chain type disturbed head p q s.trace s) (hh : h ≤ head)
    (hqh : q < h) (hat : loop.At type h q) : ComesTo chain type nodes disturbed head p
      (exec ((Await.getBlockHash loop).resume (nodes head) processBlock) s) := by
  obtain ⟨b, hstop, hqb, hbh, hsize⟩ := getNextStop_eq (h := h) (a := q + 1) hqh
  have hq : (((q + 1 : ℕ) : ℤ) - 1) = q := by omega
  rw [hq, ← hat.nextStop] at hstop
  have hcount : loop.nextStop - loop.currentLast.blockNumber = ((b - q : ℕ) : ℤ) := by
    rw [hstop, hat.currentLast]
    show (b : ℤ) - q = _
    omega
  have hmissing : q + (b - q) = b := by omega
  simp only [Await.resume, hcount, Int.toNat_natCast]
  rw [if_neg (by omega), hstop, (hnodes.nodeAt head).hashes b (by omega)]
  have hfetch : ComesTo chain type nodes disturbed head p (exec (loop.fetch (chain.block b).hash
      (blocksBetween chain (q + (b - q)) b) (b - q)) s) :=
    comesTo_fetch hs ⟨⟨h, hh, hbh, hat⟩, hqb, by omega⟩ hmissing.le (by rw [hmissing])
  rwa [hmissing, blocksBetween_self] at hfetch

theorem comesTo_getBlocksUpTo (hs : Stored chain type disturbed head p q s.trace s)
    (hbatch : loop.InBatch type head q b) {missing : ℕ} (hmissing : q + 1 + missing ≤ b) :
    ComesTo chain type nodes disturbed head p
      (exec ((Await.getBlocksUpTo loop (chain.block (q + 1 + missing)).hash missing
        (blocksBetween chain (q + 1 + missing) b)).resume (nodes head) processBlock) s) := by
  have hle := hbatch.le
  have hnext : q + 1 + missing = q + missing + 1 := by omega
  rw [hnext] at hmissing ⊢
  rw [Await.resume, exec_bind_ok (exec_getBlockByHash (hnodes.nodeAt head) (by omega) s),
    chain.parent_eq, ← blocksBetween_cons (by omega)]
  exact comesTo_fetch hs hbatch (by omega) rfl

end

section

variable (hcalm : ¬ disturbed → ∀ h, NoFailure chain h (nodes h) processBlock)

include hcalm

theorem comesTo_getExtendedBlock {blocks rest : List SignedBlock} {block : SignedBlock}
    (hs : Stored chain type disturbed head p q τ s) (htrace : s.trace = τ ++ part)
    (hinv : AwaitInv chain type nodes head q part (.getExtendedBlock loop blocks block rest)) :
    ComesTo chain type nodes disturbed head p
      (exec ((Await.getExtendedBlock loop blocks block rest).resume (nodes head) processBlock) s) := by
  have hat : Awaits chain type nodes disturbed head p s (.getExtendedBlock loop blocks block rest) :=
    ⟨q, τ, part, hs, htrace, hinv⟩
  obtain ⟨b, n, hbatch, rfl, hqn, hnb, rfl, hempty, rfl, rfl⟩ := hinv
  have hle := hbatch.le
  rw [Await.resume]
  cases hext : (nodes head).getExtendedBlock (chain.block (n + 1)).hash with
  | none =>
    have hdisturbed : disturbed := by
      by_contra hnot
      obtain ⟨extended, hsome, -⟩ := hcalm hnot head (n + 1) (by omega) hempty
      rw [hext] at hsome
      cases hsome
    rw [getExtendedBlockByHash, hext]
    exact ⟨hdisturbed, hat.interrupt hdisturbed⟩
  | some extended =>
    rw [getExtendedBlockByHash, hext]
    exact ⟨q, τ, _, hs, htrace, b, n, hbatch, rfl, hqn, hnb, rfl, hempty, rfl, rfl, head, by omega, hext⟩

theorem comesTo_processBlock {blocks rest : List SignedBlock} {block : SignedBlock} {extended : ξ}
    (hs : Stored chain type disturbed head p q τ s) (htrace : s.trace = τ ++ part)
    (hinv : AwaitInv chain type nodes head q part (.processBlock loop blocks block rest extended)) :
    ComesTo chain type nodes disturbed head p
      (exec ((Await.processBlock loop blocks block rest extended).resume (nodes head) processBlock) s) := by
  have hpart := hinv.isPart hs.le
  obtain ⟨b, n, hbatch, rfl, hqn, hnb, rfl, hempty, rfl, rfl, k, hk, hext⟩ := hinv
  have hs₁ : ∀ db : δ, Stored chain type disturbed head p q τ { s with db := db } :=
    fun db => ⟨hs.syncPoint, hs.le, hs.consumption⟩
  rw [Await.resume]
  rcases hproc : exec (processBlock extended) s.db with ⟨e | _, db⟩
  · have hdisturbed : disturbed := by
      by_contra hnot
      obtain ⟨extended', hext', hok⟩ := hcalm hnot k (n + 1) hk hempty
      obtain rfl : extended' = extended := Option.some.inj (hext'.symm.trans hext)
      obtain ⟨db', hdb'⟩ := hok s.db
      rw [hproc] at hdb'
      cases hdb'
    have hthrew : exec (liftDb (processBlock extended)) s =
        (.error (.threw e), { s with db := db }) := by
      rw [liftDb, exec_bind_ok (exec_get s), hproc]
      rfl
    rw [exec_bind_error hthrew]
    obtain ⟨b', hb', hsize, hprefix⟩ := hpart
    exact ⟨hdisturbed, (hs₁ db).interrupt hdisturbed htrace hb' hsize hprefix⟩
  · rw [exec_bind_ok (exec_liftDb_ok hproc), exec_bind_ok (exec_emit _ _)]
    refine comesTo_visit (n := n + 1) ⟨hs.syncPoint, hs.le, hs.consumption⟩ hbatch (by omega) hnb ?_
    show s.trace ++ [.processed (chain.block (n + 1)).number] = _
    rw [htrace, visits_succ hqn, visitEvents, hempty, chain.number_eq]
    simp

/-- **What a run does next**: it stays within its batch, or stores its sync point. -/
theorem Awaits.resume (hnodes : OneChain chain type nodes)
    (ha : Awaits chain type nodes disturbed head p s a) :
    ComesTo chain type nodes disturbed head p (exec (a.resume (nodes head) processBlock) s) := by
  obtain ⟨q, τ, part, hs, htrace, hinv⟩ := ha
  have hwhole : part = [] → Stored chain type disturbed head p q s.trace s := by
    rintro rfl
    rw [htrace, List.append_nil]
    exact hs
  cases a with
  | getHeadBlockHash =>
    have hfinalized := (hnodes.nodeAt head).finalized
    exact ⟨q, τ, part, hs, htrace, hinv, head, le_refl head, hs.le, hfinalized⟩
  | getHeadBlock headHash =>
    obtain ⟨hpart, h, hh, hqh, rfl⟩ := hinv
    rw [Await.resume, exec_bind_ok (exec_getBlockByHash (hnodes.nodeAt head) hh s), chain.number_eq,
      hnodes.chainType]
    exact ⟨q, τ, part, hs, htrace, hpart, h, hh, hqh, rfl⟩
  | findByName block =>
    obtain ⟨hpart, h, hh, hqh, rfl⟩ := hinv
    exact comesTo_findByName (hwhole hpart) hh hqh
  | getBlockHash loop =>
    obtain ⟨hpart, h, hh, hqh, hat⟩ := hinv
    exact comesTo_getBlockHash hnodes (hwhole hpart) hh hqh hat
  | getBlocksUpTo loop nextHash missing later =>
    obtain ⟨hpart, b, hbatch, hmissing, rfl, rfl⟩ := hinv
    exact comesTo_getBlocksUpTo hnodes (hwhole hpart) hbatch hmissing
  | getExtendedBlock loop blocks block rest =>
    exact comesTo_getExtendedBlock hcalm hs htrace hinv
  | processBlock loop blocks block rest extended =>
    exact comesTo_processBlock hcalm hs htrace hinv
  | sync loop blocks currentLast =>
    obtain ⟨b, hbatch, rfl, rfl, rfl⟩ := hinv
    exact comesTo_sync hs hbatch htrace

end

/-! ### The scheduler -/

theorem AtRest.db (h : AtRest chain type disturbed head p s) (db : δ) :
    AtRest chain type disturbed head p { s with db := db } := by
  obtain ⟨q, hs⟩ := h
  exact ⟨q, hs.syncPoint, hs.le, hs.consumption⟩

theorem Awaits.db (h : Awaits chain type nodes disturbed head p s a) (db : δ) :
    Awaits chain type nodes disturbed head p { s with db := db } a := by
  obtain ⟨q, τ, part, hs, hrest⟩ := h
  exact ⟨q, τ, part, ⟨hs.syncPoint, hs.le, hs.consumption⟩, hrest⟩

theorem AtRest.mono (h : AtRest chain type disturbed head p s) (hh : head ≤ head') :
    AtRest chain type disturbed head' p s := by
  obtain ⟨q, hs⟩ := h
  exact ⟨q, hs.mono hh⟩

theorem Awaits.mono (h : Awaits chain type nodes disturbed head p s a) (hh : head ≤ head') :
    Awaits chain type nodes disturbed head' p s a := by
  obtain ⟨q, τ, part, hs, htrace, hinv⟩ := h
  exact ⟨q, τ, part, hs.mono hh, htrace, hinv.mono hh⟩

namespace Scheduler

variable {σ σ' : SchedulerState δ ξ} {o : Op δ}

variable (chain type nodes disturbed) in
/-- There is no run and the flag is down, or there is one and the flag is up. -/
inductive Inv (p : ℕ) (σ : SchedulerState δ ξ) : Prop
  | atRest (hrunning : σ.running = false) (hruns : σ.runs = [])
      (h : AtRest chain type disturbed σ.head p σ.store)
  | awaits (a : Await ξ) (hrunning : σ.running = true) (hruns : σ.runs = [a])
      (h : Awaits chain type nodes disturbed σ.head p σ.store a)

/-- The exceptions of what the runs await, and the restarts of the process. -/
def Op.Disturbs : Op δ → Prop
  | .fail _ _ | .restart _ => True
  | _ => False

instance : (o : Op δ) → Decidable o.Disturbs
  | .fail _ _ | .restart _ => .isTrue trivial
  | .tick | .resume _ | .finalize _ | .request _ => .isFalse id

/-- The run goes on, or it ends and takes the flag down. -/
theorem inv_settle {r : Except Stop (Option (Await ξ)) × SyncState δ} (hruns : σ.runs = [a])
    (hrunning : σ.running = true) (h : ComesTo chain type nodes disturbed σ.head p r) :
    Inv chain type nodes disturbed p (settle σ 0 r) := by
  obtain ⟨⟨⟩ | ⟨⟨⟩ | a'⟩, s⟩ := r
  · exact .atRest rfl (by simp [settle, hruns]) h.2
  · exact .atRest rfl (by simp [settle, hruns]) h
  · exact .awaits a' hrunning (by simp [settle, hruns]) h

theorem head_le_of_step (hok : Scheduler.step nodes processBlock σ o = .ok σ') :
    σ.head ≤ σ'.head := by
  cases o with
  | tick =>
    rw [Scheduler.step] at hok
    split at hok <;> cases hok <;> exact le_refl _
  | resume i =>
    rw [Scheduler.step] at hok
    split at hok
    · cases hok
    · next a hi =>
      cases hok
      obtain ⟨⟨⟩ | ⟨⟨⟩ | a'⟩, s⟩ := exec (a.resume (nodes σ.head) processBlock) σ.store <;> exact le_refl _
  | fail i db =>
    rw [Scheduler.step] at hok
    split at hok <;> cases hok
    exact le_refl _
  | finalize blocks =>
    cases hok
    exact Nat.le_add_right _ _
  | request db =>
    cases hok
    exact le_refl _
  | restart db =>
    cases hok
    exact le_refl _

/-- Whatever is run, it has the index 0. -/
theorem Inv.getElem? (hσ : Inv chain type nodes disturbed p σ) {i : ℕ} (hi : σ.runs[i]? = some a) :
    i = 0 ∧ σ.running = true ∧ σ.runs = [a] ∧
      Awaits chain type nodes disturbed σ.head p σ.store a := by
  cases hσ with
  | atRest hrunning hruns h =>
    rw [hruns] at hi
    cases hi
  | awaits a' hrunning hruns h =>
    rw [hruns, List.getElem?_singleton] at hi
    split_ifs at hi with hzero
    cases hi
    exact ⟨hzero, hrunning, hruns, h⟩

/-- **One step.** -/
theorem Inv.step (hnodes : OneChain chain type nodes)
    (hcalm : ¬ disturbed → ∀ h, NoFailure chain h (nodes h) processBlock)
    (hσ : Inv chain type nodes disturbed p σ) (ho : o.Disturbs → disturbed)
    (hok : Scheduler.step nodes processBlock σ o = .ok σ') :
    Inv chain type nodes disturbed p σ' := by
  cases o with
  | tick =>
    cases hσ with
    | atRest hrunning hruns h =>
      rw [Scheduler.step, if_neg (by simp [hrunning])] at hok
      cases hok
      obtain ⟨q, hs⟩ := h
      exact .awaits .getHeadBlockHash rfl (by simp [hruns])
        ⟨q, σ.store.trace, [], hs, by simp, rfl⟩
    | awaits a hrunning hruns h =>
      rw [Scheduler.step, if_pos hrunning] at hok
      cases hok
      exact .awaits a hrunning hruns h
  | resume i =>
    rw [Scheduler.step] at hok
    split at hok
    · cases hok
    · next a hi =>
      obtain ⟨rfl, hrunning, hruns, h⟩ := hσ.getElem? hi
      cases hok
      exact inv_settle hruns hrunning (h.resume hcalm hnodes)
  | fail i db =>
    rw [Scheduler.step] at hok
    split at hok
    · cases hok
    · next a hi =>
      obtain ⟨rfl, hrunning, hruns, h⟩ := hσ.getElem? hi
      cases hok
      exact .atRest rfl (by simp [hruns]) ((h.interrupt (ho trivial)).db db)
  | finalize blocks =>
    cases hok
    cases hσ with
    | atRest hrunning hruns h => exact .atRest hrunning hruns (h.mono (Nat.le_add_right _ _))
    | awaits a hrunning hruns h => exact .awaits a hrunning hruns (h.mono (Nat.le_add_right _ _))
  | request db =>
    cases hok
    cases hσ with
    | atRest hrunning hruns h => exact .atRest hrunning hruns (h.db db)
    | awaits a hrunning hruns h => exact .awaits a hrunning hruns (h.db db)
  | restart db =>
    cases hok
    refine .atRest rfl rfl ?_
    cases hσ with
    | atRest hrunning hruns h => exact h.db db
    | awaits a hrunning hruns h => exact (h.interrupt (ho trivial)).db db

/-- **Every run of the scheduler.** -/
theorem inv_run (hnodes : OneChain chain type nodes)
    (hcalm : ¬ disturbed → ∀ h, NoFailure chain h (nodes h) processBlock) {os : List (Op δ)}
    (hos : ∀ o ∈ os, o.Disturbs → disturbed) (hp : p ≤ h) (hs : s.syncPoint = some ⟨⟨p, type⟩⟩)
    (htrace : s.trace = []) :
    Inv chain type nodes disturbed p (run (Scheduler.step nodes processBlock) (start h s) os) := by
  refine run_invariant (C := fun _ o => o.Disturbs → disturbed)
    (fun σ o σ' hσ ho hok => hσ.step hnodes hcalm ho hok) ?_ ?_
  · exact .atRest rfl rfl ⟨p, hs, hp, htrace ▸ .start⟩
  · refine along_iff.mpr fun pre o post hsplit => hos o ?_
    rw [hsplit]
    simp

end Scheduler

end Logion
