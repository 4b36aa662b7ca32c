import Logion.Lib.Effect
import Logion.Model.Basic
import Mathlib.Algebra.Order.Ring.Int

/-!
# BlockConsumer — the loop over the blocks (`blockconsumption.service.ts`, `block.service.ts`)

`consumeNewBlocks` brings the stored sync point to the finalized head in batches of ten blocks: the
blocks of a batch are fetched backwards, by parent hash, from the last one, then visited in order, and
the sync point is stored after each batch.  What happens to a block that is not empty is a parameter
(`processBlock`), and so is the node.

The state has a trace of what the loop did.  The loop takes some fuel; `outOfFuel` is not an exception
of the code.
-/

namespace Logion

open Effect

/-! ### Blocks and sync points -/

/-- The stored sync point `TRANSACTIONS_SYNC_POINT_NAME`. -/
structure SyncPoint where
  block : Block
  deriving DecidableEq, Repr

abbrev BlockHash := String

/-- What the loop reads of a `SignedBlock`: its header and the number of its extrinsics. -/
structure SignedBlock where
  hash : BlockHash
  parentHash : BlockHash
  number : ℤ
  extrinsics : ℕ
  deriving DecidableEq, Repr

/-- The node, with `ξ` the type of the extended blocks it derives. -/
structure Node (ξ : Type) where
  chainType : ChainType
  getFinalizedHead : BlockHash
  getBlockHash : ℤ → BlockHash
  getBlock : BlockHash → Option SignedBlock
  getExtendedBlock : BlockHash → Option ξ

/-! ### State -/

/-- Something the loop did; a block is processed when `processBlock` has returned. -/
inductive Event
  | visited (blockNumber : ℤ)
  | processed (blockNumber : ℤ)
  | synced (block : Block)
  deriving DecidableEq, Repr

/-- How a run can stop before its end. -/
inductive Stop
  | threw (e : Err)
  | outOfFuel
  deriving DecidableEq, Repr

structure SyncState (δ : Type) where
  syncPoint : Option SyncPoint
  db : δ
  trace : List Event := []

abbrev SyncM (δ : Type) := Eff (SyncState δ) Stop

variable {δ ξ : Type}

def fail {α : Type} (message : String) : SyncM δ α := throw (.threw (.error message))

def emit (event : Event) : SyncM δ Unit := modify fun s => { s with trace := s.trace ++ [event] }

/-- A computation on the database alone. -/
def liftDb (x : Eff δ Err Unit) : SyncM δ Unit := do
  let s ← get
  match exec x s.db with
  | (.ok _, db) => set { s with db := db }
  | (.error e, db) => do
    set { s with db := db }
    throw (.threw e)

/-! ### The node (`BlockExtrinsicsService`) -/

def getBlockByHash (node : Node ξ) (hash : BlockHash) : SyncM δ SignedBlock :=
  match node.getBlock hash with
  | some block => pure block
  | none => fail "Block not found"

def getExtendedBlockByHash (node : Node ξ) (hash : BlockHash) : SyncM δ ξ :=
  match node.getExtendedBlock hash with
  | some block => pure block
  | none => fail "Block not found"

/-- The loop of `getBlocksUpTo`: `n` blocks back from the given one, in chain order. -/
def blocksBackFrom (node : Node ξ) (hash : BlockHash) : ℕ → SyncM δ (List SignedBlock)
  | 0 => pure []
  | n + 1 => do
    let nextBlock ← getBlockByHash node hash
    let earlier ← blocksBackFrom node nextBlock.parentHash n
    return earlier ++ [nextBlock]

/-- `getBlocksUpTo`; an array cannot have a negative length. -/
def getBlocksUpTo (node : Node ξ) (hash : BlockHash) (maxBlocks : ℤ) : SyncM δ (List SignedBlock) :=
  if maxBlocks < 0 then fail "Invalid array length"
  else blocksBackFrom node hash maxBlocks.toNat

/-! ### The consumer -/

def batchSize : ℤ := 10

def getNextStop (last head : ℤ) : ℤ := if last + batchSize > head then head else last + batchSize

/-- `getLastBlock`: the last synchronized block to start from, or the error of an out-of-sync node. -/
def getLastBlock (head : Block) (lastSynced : Option Block) : Except String Block :=
  match lastSynced with
  | none => .ok (head.at (head.blockNumber - 1))
  | some last =>
    if last.chainType = .para ∧ head.chainType = .solo then
      .error "cannot revert back from solo to para"
    else if last.chainType = head.chainType ∧ last.blockNumber > head.blockNumber then
      .error "last synced block number greater than head number"
    else if head.chainType ≠ last.chainType then .ok (head.at (head.blockNumber - 1))
    else .ok last

def isEmptyBlock (block : SignedBlock) : Bool := block.extrinsics ≤ 1

/-- The body of the loop over the blocks of a batch. -/
def visitBlock (node : Node ξ) (processBlock : ξ → Eff δ Err Unit) (block : SignedBlock) :
    SyncM δ Unit := do
  emit (.visited block.number)
  if isEmptyBlock block then pure ()
  else do
    let extendedBlock ← getExtendedBlockByHash node block.hash
    liftDb (processBlock extendedBlock)
    emit (.processed block.number)

/-- `sync`: the sync point is added the first time, and updated afterwards. -/
def sync (lastSyncPoint : Option SyncPoint) (block : Block) : SyncM δ SyncPoint := do
  let s ← get
  if lastSyncPoint.isSome && s.syncPoint.isNone then fail "Value is undefined"
  else do
    set { s with syncPoint := some ⟨block⟩ }
    emit (.synced block)
    return ⟨block⟩

/-- The `while` loop over the batches. -/
def batchLoop (node : Node ξ) (processBlock : ξ → Eff δ Err Unit) (head : Block)
    (blocksToSync : ℤ) : (fuel : ℕ) → (totalProcessedBlocks nextStop : ℤ) → (currentLast : Block) →
      (lastSyncPoint : Option SyncPoint) → SyncM δ Unit
  | fuel, total, nextStop, currentLast, lastSyncPoint =>
    if total < blocksToSync then
      match fuel with
      | 0 => throw .outOfFuel
      | fuel + 1 => do
        let nextBatchSize := nextStop - currentLast.blockNumber
        let blocks ← getBlocksUpTo node (node.getBlockHash nextStop) nextBatchSize
        forEach (visitBlock node processBlock) blocks
        match blocks.getLast? with
        | none => fail "Cannot read properties of undefined"
        | some lastOfBatch => do
          let currentLast := currentLast.at lastOfBatch.number
          let syncPoint ← sync lastSyncPoint currentLast
          batchLoop node processBlock head blocksToSync fuel (total + blocks.length)
            (getNextStop currentLast.blockNumber head.blockNumber) currentLast (some syncPoint)
    else pure ()

def consumeNewBlocks (node : Node ξ) (processBlock : ξ → Eff δ Err Unit) (fuel : ℕ) :
    SyncM δ Unit := do
  let headBlock ← getBlockByHash node node.getFinalizedHead
  let head : Block := ⟨headBlock.number, node.chainType⟩
  let s ← get
  let lastSynced := s.syncPoint.map SyncPoint.block
  if lastSynced = some head then pure ()
  else match getLastBlock head lastSynced with
    | .error e => fail ("Out-of-sync error: " ++ e)
    | .ok lastBlock =>
      batchLoop node processBlock head (head.blockNumber - lastBlock.blockNumber) fuel 0
        (getNextStop lastBlock.blockNumber head.blockNumber) lastBlock s.syncPoint

/-! ### Running the pieces -/

theorem exec_emit (event : Event) (s : SyncState δ) :
    exec (emit event) s = (.ok (), { s with trace := s.trace ++ [event] }) := rfl

theorem exec_liftDb_ok {x : Eff δ Err Unit} {s : SyncState δ} {db : δ}
    (h : exec x s.db = (.ok (), db)) : exec (liftDb x) s = (.ok (), { s with db := db }) := by
  rw [liftDb, exec_bind_ok (exec_get s), h]
  rfl

end Logion
