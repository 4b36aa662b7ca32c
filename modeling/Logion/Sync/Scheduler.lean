import Logion.Lib.Fallible
import Logion.Sync.ExactlyOnce

/-!
# Scheduler — the job that consumes the new blocks (`scheduler.service.ts`)

A timer starts `consumeNewBlocks` unless it is still running.  Between the start and the end of a run
other things happen each time that the run awaits something: the timer fires again, the chain
finalizes more blocks, HTTP requests write to the database, a call of the node fails, or the process
is killed and started again with what is stored.

* `Await`, `Await.resume`: where `consumeNewBlocks` awaits something, and what it does until the next
  time.
* `SchedulerState`, `step`: the flag, the runs, and everything that can happen.
-/

namespace Logion

open Effect Fallible

variable {δ ξ : Type}

/-! ### A run, from one `await` to the next one -/

/-- The variables of the loop over the batches. -/
structure BatchLoop where
  head : Block
  blocksToSync : ℤ
  totalProcessedBlocks : ℤ
  nextStop : ℤ
  currentLast : Block
  lastSyncPoint : Option SyncPoint

/-- What a run of `consumeNewBlocks` awaits; `missing` is how many blocks `getBlocksUpTo` has still to
get after the one that it awaits, and `rest` are the blocks to visit after `block`. -/
inductive Await (ξ : Type)
  | getHeadBlockHash
  | getHeadBlock (headHash : BlockHash)
  | findByName (head : Block)
  | getBlockHash (loop : BatchLoop)
  | getBlocksUpTo (loop : BatchLoop) (nextHash : BlockHash) (missing : ℕ) (later : List SignedBlock)
  | getExtendedBlock (loop : BatchLoop) (blocks : List SignedBlock) (block : SignedBlock)
      (rest : List SignedBlock)
  | processBlock (loop : BatchLoop) (blocks : List SignedBlock) (block : SignedBlock)
      (rest : List SignedBlock) (extendedBlock : ξ)
  | sync (loop : BatchLoop) (blocks : List SignedBlock) (currentLast : Block)

namespace BatchLoop

variable (loop : BatchLoop)

/-- The condition of the `while` loop: the run goes on with a batch, or returns. -/
def next : Option (Await ξ) :=
  if loop.totalProcessedBlocks < loop.blocksToSync then some (.getBlockHash loop) else none

/-- The loop over the blocks of a batch, up to the next block that is not empty or to the end. -/
def visit (blocks : List SignedBlock) : List SignedBlock → SyncM δ (Option (Await ξ))
  | [] =>
    match blocks.getLast? with
    | none => fail "Cannot read properties of undefined"
    | some lastOfBatch => return some (.sync loop blocks (loop.currentLast.at lastOfBatch.number))
  | block :: rest => do
    emit (.visited block.number)
    if isEmptyBlock block then visit blocks rest
    else return some (.getExtendedBlock loop blocks block rest)

/-- The loop of `getBlocksUpTo`, with `missing` blocks still to get. -/
def fetch (nextHash : BlockHash) (later : List SignedBlock) : ℕ → SyncM δ (Option (Await ξ))
  | 0 => loop.visit later later
  | missing + 1 => return some (.getBlocksUpTo loop nextHash missing later)

/-- The variables after a batch. -/
def advance (blocks : List SignedBlock) (currentLast : Block) (syncPoint : SyncPoint) : BatchLoop where
  head := loop.head
  blocksToSync := loop.blocksToSync
  totalProcessedBlocks := loop.totalProcessedBlocks + blocks.length
  nextStop := getNextStop currentLast.blockNumber loop.head.blockNumber
  currentLast := currentLast
  lastSyncPoint := some syncPoint

/-- The variables before the first batch. -/
def start (head lastBlock : Block) (lastSyncPoint : Option SyncPoint) : BatchLoop where
  head := head
  blocksToSync := head.blockNumber - lastBlock.blockNumber
  totalProcessedBlocks := 0
  nextStop := getNextStop lastBlock.blockNumber head.blockNumber
  currentLast := lastBlock
  lastSyncPoint := lastSyncPoint

end BatchLoop

/-- What the run does when it gets what it awaits, up to the next `await`; `none` when it returns. -/
def Await.resume (node : Node ξ) (processBlock : ξ → Eff δ Err Unit) :
    Await ξ → SyncM δ (Option (Await ξ))
  | .getHeadBlockHash => return some (.getHeadBlock node.getFinalizedHead)
  | .getHeadBlock headHash => do
    let headBlock ← getBlockByHash node headHash
    return some (.findByName ⟨headBlock.number, node.chainType⟩)
  | .findByName head => do
    let s ← get
    let lastSynced := s.syncPoint.map SyncPoint.block
    if lastSynced = some head then return none
    else match getLastBlock head lastSynced with
      | .error e => fail ("Out-of-sync error: " ++ e)
      | .ok lastBlock => return (BatchLoop.start head lastBlock s.syncPoint).next
  | .getBlockHash loop =>
    let nextBatchSize := loop.nextStop - loop.currentLast.blockNumber
    if nextBatchSize < 0 then fail "Invalid array length"
    else loop.fetch (node.getBlockHash loop.nextStop) [] nextBatchSize.toNat
  | .getBlocksUpTo loop nextHash missing later => do
    let nextBlock ← getBlockByHash node nextHash
    loop.fetch nextBlock.parentHash (nextBlock :: later) missing
  | .getExtendedBlock loop blocks block rest => do
    let extendedBlock ← getExtendedBlockByHash node block.hash
    return some (.processBlock loop blocks block rest extendedBlock)
  | .processBlock loop blocks block rest extendedBlock => do
    liftDb (processBlock extendedBlock)
    emit (.processed block.number)
    loop.visit blocks rest
  | .sync loop blocks currentLast => do
    let syncPoint ← Logion.sync loop.lastSyncPoint currentLast
    return (loop.advance blocks currentLast syncPoint).next

/-! ### The scheduler -/

/-- The number of the finalized head, what is stored, and the memory of the process: the flag
`running` and the runs that have not ended. -/
structure SchedulerState (δ ξ : Type) where
  head : ℕ
  store : SyncState δ
  running : Bool
  runs : List (Await ξ)

namespace Scheduler

/-- What can happen: the timer fires, a run gets what it awaits or an exception, the chain finalizes
some blocks, something else writes to the database, or the process is killed and started again.  An
exception and a restart may leave a block processed in part. -/
inductive Op (δ : Type)
  | tick
  | resume (i : ℕ)
  | fail (i : ℕ) (db : δ)
  | finalize (blocks : ℕ)
  | request (db : δ)
  | restart (db : δ)

/-- There is no such run. -/
inductive Idle
  | noRun
  deriving DecidableEq

/-- What a run gets to. -/
def settle (σ : SchedulerState δ ξ) (i : ℕ) : Except Stop (Option (Await ξ)) × SyncState δ →
    SchedulerState δ ξ
  | (.ok (some a), store) => { σ with store := store, runs := σ.runs.set i a }
  | (.ok none, store) | (.error _, store) =>
    { σ with store := store, running := false, runs := σ.runs.eraseIdx i }

variable (nodes : ℕ → Node ξ) (processBlock : ξ → Eff δ Err Unit)

/-- `nodes` is what the node answers for each finalized head. -/
def step (σ : SchedulerState δ ξ) : Op δ → Except Idle (SchedulerState δ ξ)
  | .tick =>
    if σ.running then return σ
    else return { σ with running := true, runs := σ.runs ++ [.getHeadBlockHash] }
  | .resume i =>
    match σ.runs[i]? with
    | none => throw .noRun
    | some a => return settle σ i (exec (a.resume (nodes σ.head) processBlock) σ.store)
  | .fail i db =>
    match σ.runs[i]? with
    | none => throw .noRun
    | some _ => return {
        σ with store := { σ.store with db := db }, running := false, runs := σ.runs.eraseIdx i }
  | .finalize blocks => return { σ with head := σ.head + blocks }
  | .request db => return { σ with store := { σ.store with db := db } }
  | .restart db => return { σ with store := { σ.store with db := db }, running := false, runs := [] }

/-- The process has just been started. -/
def start (head : ℕ) (store : SyncState δ) : SchedulerState δ ξ where
  head := head
  store := store
  running := false
  runs := []

end Scheduler

end Logion
