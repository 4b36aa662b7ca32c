import Mathlib.Data.List.Perm.Basic
import Logion.Chain.StoredTransactions
import Logion.Sync.InTurn
import Logion.Sync.NeverStuck
import Logion.Sync.ProcessBlock
import Logion.Sync.RecordedBlocks

/-!
# AccountHistory — the transactions of an account (`transaction.controller.ts`, `transaction.model.ts`)

What `fetchTransactions` finds while the scheduler consumes the chain: runs are interrupted, calls of
the node fail, the process is restarted, and other requests write to the other tables.

* `findBy`: the query, newest transactions first.
* `extractBlockRows`, `rowsBetween`: the rows that a block gives, and those of a part of the chain.
* `records_transactions`: the processing of a block adds its rows, or a part of them.
* `account_history`: every history found in every run.
-/

namespace Logion

open Effect Fallible

/-! ### The query -/

namespace TransactionRepository

/-- The conditions of `findBy`: a receiver only sees the transactions that have succeeded. -/
def isFound (account : AccountId) (chainType : ChainType) (row : TransactionAggregateRoot) : Bool :=
  (row.block.chainType == chainType && row.fromAddress == account.address &&
    row.hiddenFrom != some .sender) ||
  (row.block.chainType == chainType && row.toAddress == some account.address && row.successful &&
    row.hiddenFrom != some .receiver)

/-- By block number and extrinsic index, both descending. -/
def newestFirst (a b : TransactionAggregateRoot) : Prop :=
  b.block.blockNumber < a.block.blockNumber ∨
    (b.block.blockNumber = a.block.blockNumber ∧ b.extrinsicIndex ≤ a.extrinsicIndex)

instance (a b : TransactionAggregateRoot) : Decidable (newestFirst a b) :=
  inferInstanceAs (Decidable (_ ∨ _))

theorem newestFirst_trans {a b c : TransactionAggregateRoot} (hab : newestFirst a b)
    (hbc : newestFirst b c) : newestFirst a c := by
  unfold newestFirst at hab hbc ⊢
  omega

theorem newestFirst_total (a b : TransactionAggregateRoot) : newestFirst a b ∨ newestFirst b a := by
  unfold newestFirst
  omega

/-- An answer of the query: the transactions of one extrinsic come in any order. -/
structure Answers (account : AccountId) (chainType : ChainType)
    (stored answer : List TransactionAggregateRoot) : Prop where
  perm : answer.Perm (stored.filter (isFound account chainType))
  sorted : answer.Pairwise newestFirst

/-- The answer that keeps the order of the table. -/
def findBy (account : AccountId) (chainType : ChainType) (stored : List TransactionAggregateRoot) :
    List TransactionAggregateRoot :=
  (stored.filter (isFound account chainType)).mergeSort fun a b => newestFirst a b

theorem findBy_answers (account : AccountId) (chainType : ChainType)
    (stored : List TransactionAggregateRoot) :
    Answers account chainType stored (findBy account chainType stored) := by
  refine ⟨List.mergeSort_perm _ _, ?_⟩
  have hsorted := @List.pairwise_mergeSort _ (fun a b => newestFirst a b)
    (fun a b c hab hbc => decide_eq_true
      (newestFirst_trans (of_decide_eq_true hab) (of_decide_eq_true hbc)))
    (fun a b => by simpa using newestFirst_total a b) (stored.filter (isFound account chainType))
  exact hsorted.imp of_decide_eq_true

end TransactionRepository

/-! ### The endpoint -/

/-- The body of `FeesView`; the amounts are numbers where the source has their decimal texts. -/
structure FeesView where
  fees : Fees
  total : ℕ
  deriving DecidableEq, Repr

def toFeesView (fees : Fees) : FeesView := ⟨fees, fees.total⟩

structure TransactionView where
  id : UUID
  fromAddress : String
  toAddress : Option String
  createdOn : Moment
  pallet : String
  method : String
  transferValue : ℕ
  tip : ℕ
  fees : FeesView
  reserved : ℤ
  total : ℤ
  successful : Bool
  error : Option TransactionError
  type : TransactionType
  deriving DecidableEq, Repr

namespace TransactionController

/-- `toView`, of what `getDescription` gives. -/
def descriptionView (description : TransactionDescription) : TransactionView where
  id := description.id
  fromAddress := description.fromAccount.address
  toAddress := description.toAccount.map (·.address)
  createdOn := description.createdOn
  pallet := description.pallet
  method := description.method
  transferValue := description.transferValue
  tip := description.tip
  fees := toFeesView description.fees
  reserved := description.reserved
  total := description.fees.total + description.tip + description.reserved +
    if description.error.isNone then description.transferValue else 0
  successful := description.error.isNone
  error := description.error
  type := description.type

/-- The view of a row with this id. -/
def toView (entry : UUID × TransactionAggregateRoot) : Except Err TransactionView := do
  let description ← (entry.2.row entry.1).getDescription
  return descriptionView description

/-- `fetchTransactions`, from what `findBy` answers. -/
def fetchTransactions (found : List (UUID × TransactionAggregateRoot)) :
    Except Err (List TransactionView) := found.mapM toView

theorem toView_returns {entry : UUID × TransactionAggregateRoot} :
    Returns (toView entry) ↔ entry.2.type ≠ .certificateFee := by
  have htype : asTransactionType (entry.2.row entry.1).type = _ := asTransactionType_text entry.2.type
  have hhidden : asParty (entry.2.row entry.1).hiddenFrom = _ := asParty_text entry.2.hiddenFrom
  rw [toView, TransactionRow.getDescription, htype, hhidden]
  split_ifs with hcertificate
  · refine iff_of_false ?_ (not_not_intro hcertificate)
    rintro ⟨_, h⟩
    cases h
  · exact iff_of_true ⟨_, rfl⟩ hcertificate

theorem fetchTransactions_returns {found : List (UUID × TransactionAggregateRoot)} :
    Returns (fetchTransactions found) ↔ ∀ row ∈ found.map Prod.snd, row.type ≠ .certificateFee := by
  simp only [fetchTransactions, Keyed.mapM_returns, toView_returns, List.forall_mem_map]

/-- No certificate fee among the rows that the account sees. -/
def Readable (account : AccountId) (chainType : ChainType) (rows : List TransactionAggregateRoot) :
    Prop :=
  ∀ row ∈ rows, TransactionRepository.isFound account chainType row = true → row.type ≠ .certificateFee

end TransactionController
/-! ### The rows of the chain -/

section

variable [Vault] (api : ChainApi)

/-- The rows that a block of the node gives. -/
def extractBlockRows (block : SignedBlockExtended) : Except Err (List TransactionAggregateRoot) := do
  let extrinsics ← getBlockExtrinsics api block
  extractRows extrinsics

/-- The rows of a block; a block that cannot be processed has none. -/
def rowsOf (block : SignedBlockExtended) : List TransactionAggregateRoot :=
  (extractBlockRows api block).toOption.getD []

variable (chain : Chain) (extended : ℕ → SignedBlockExtended)

/-- The rows of block `n`; an empty block is passed over. -/
def rowsAt (n : ℕ) : List TransactionAggregateRoot :=
  if isEmptyBlock (chain.block n) then [] else rowsOf api (extended n)

/-- The rows of the blocks in `(a, b]`. -/
def rowsBetween (a b : ℕ) : List TransactionAggregateRoot :=
  (blocksAfter a b).flatMap (rowsAt api chain extended)

variable {api chain extended} {a b : ℕ}

theorem rowsBetween_self (a : ℕ) : rowsBetween api chain extended a a = [] := by
  rw [rowsBetween, blocksAfter_self]
  rfl

variable (api chain extended) in
theorem rowsBetween_succ (hab : a ≤ b) : rowsBetween api chain extended a (b + 1) =
    rowsBetween api chain extended a b ++ rowsAt api chain extended (b + 1) := by
  rw [rowsBetween, blocksAfter_append hab (Nat.le_succ b), List.flatMap_append,
    blocksAfter_cons (Nat.lt_succ_self b), blocksAfter_self]
  simp [rowsBetween]

theorem prefix_rowsBetween {c : ℕ} (hbc : b ≤ c) :
    rowsBetween api chain extended a b <+: rowsBetween api chain extended a c := by
  rcases Nat.le_total a b with hab | hba
  · rw [rowsBetween, rowsBetween, blocksAfter_append hab hbc, List.flatMap_append]
    exact List.prefix_append _ _
  · have hnone : blocksAfter a b = [] := by rw [blocksAfter, Nat.sub_eq_zero_of_le hba]; rfl
    rw [rowsBetween, hnone]
    exact List.nil_prefix

variable (api) in
/-- Processing a block adds its rows, or none of them when it throws. -/
theorem processBlock_transactions [LegalOfficers] (block : SignedBlockExtended) (s : Store) :
    ∃ rows, (exec (processBlock api block) s).2.db.transactions = s.db.transactions ++ rows ∧
      (rows = [] ∨ extractBlockRows api block = .ok rows) ∧
      (Completes (processBlock api block) s → extractBlockRows api block = .ok rows) := by
  rw [processBlock, extractBlockRows]
  cases hget : getBlockExtrinsics api block with
  | error e =>
    refine ⟨[], ?_, .inl rfl, ?_⟩
    · rw [exec_bind_error (exec_liftExcept_error e), List.append_nil]
    · rintro ⟨_, s', h⟩
      rw [exec_bind_error (exec_liftExcept_error e)] at h
      cases h
  | ok extrinsics =>
    obtain ⟨rows, hrows⟩ := processExtrinsics_transactions extrinsics s
    refine ⟨rows, ?_⟩
    rw [Completes, exec_bind_ok (exec_liftExcept_ok extrinsics)]
    exact hrows

end

/-! ### The table of the transactions -/

section

variable [Vault] (api : ChainApi)

/-- What a block leaves in the table when it is not processed to its end: its first rows. -/
def CutRows (block : SignedBlockExtended) (s s' : Store) : Prop :=
  ∃ rows, rows <+: rowsOf api block ∧ s'.db.transactions = s.db.transactions ++ rows

/-- The other requests do not write transactions. -/
def KeepsTransactions (s s' : Store) : Prop := s'.db.transactions = s.db.transactions

/-- The nodes answer for a block with the same extended block, if they answer. -/
def AnswersWith (chain : Chain) (nodes : ℕ → Node SignedBlockExtended)
    (extended : ℕ → SignedBlockExtended) : Prop :=
  ∀ k n block, (nodes k).getExtendedBlock (chain.block n).hash = some block → block = extended n

/-- The table after the blocks up to `n`, of which the rows `base` were there after block `p`: the rows
of a block may also be there, in whole or in part, from an attempt to process it that has failed. -/
structure TransactionsUpTo (chain : Chain) (extended : ℕ → SignedBlockExtended) (disturbed : Prop)
    (base : List TransactionAggregateRoot) (p h n : ℕ) (s : Store) : Prop where
  complete : (base ++ rowsBetween api chain extended p n).Sublist s.db.transactions
  sound : ∀ row ∈ s.db.transactions, row ∈ base ∨ row ∈ rowsBetween api chain extended p h
  once : ¬ disturbed → s.db.transactions = base ++ rowsBetween api chain extended p n

variable {api} {chain : Chain} {type : ChainType} {nodes : ℕ → Node SignedBlockExtended}
  {extended : ℕ → SignedBlockExtended} {disturbed : Prop} {base : List TransactionAggregateRoot}
  {p h h' q n : ℕ} {s s' : Store}

theorem Fetched.rowsAt {block : SignedBlockExtended} (hanswers : AnswersWith chain nodes extended)
    (hfetched : Fetched chain nodes n block) : rowsAt api chain extended n = rowsOf api block := by
  obtain ⟨hempty, k, -, hblock⟩ := hfetched
  rw [Logion.rowsAt, hempty, hanswers k n block hblock, if_neg Bool.false_ne_true]

theorem TransactionsUpTo.back (hs : TransactionsUpTo api chain extended disturbed base p h n s)
    (hdisturbed : disturbed) (hqn : q ≤ n) :
    TransactionsUpTo api chain extended disturbed base p h q s := by
  refine ⟨?_, hs.sound, fun hnot => absurd hdisturbed hnot⟩
  have hpre : rowsBetween api chain extended p q <+: rowsBetween api chain extended p n :=
    prefix_rowsBetween hqn
  exact (hpre.sublist.append_left base).trans hs.complete

/-- The rows of the next block, all of them. -/
theorem TransactionsUpTo.next (hs : TransactionsUpTo api chain extended disturbed base p h n s)
    (hpn : p ≤ n) (hnh : n < h)
    (hrows : s'.db.transactions = s.db.transactions ++ rowsAt api chain extended (n + 1)) :
    TransactionsUpTo api chain extended disturbed base p h (n + 1) s' := by
  have hsucc := rowsBetween_succ api chain extended hpn
  refine ⟨?_, fun row hrow => ?_, fun hnot => ?_⟩
  · rw [hrows, hsucc, ← List.append_assoc]
    exact hs.complete.append (List.Sublist.refl _)
  · rw [hrows, List.mem_append] at hrow
    rcases hrow with hrow | hrow
    · exact hs.sound row hrow
    · refine .inr ((prefix_rowsBetween hnh).subset ?_)
      rw [hsucc, List.mem_append]
      exact .inr hrow
  · rw [hrows, hs.once hnot, hsucc, List.append_assoc]

/-- Some rows of the next block. -/
theorem TransactionsUpTo.cut (hs : TransactionsUpTo api chain extended disturbed base p h n s)
    (hdisturbed : disturbed) (hpn : p ≤ n) (hnh : n < h) {rows : List TransactionAggregateRoot}
    (hpre : rows <+: rowsAt api chain extended (n + 1))
    (hrows : s'.db.transactions = s.db.transactions ++ rows) :
    TransactionsUpTo api chain extended disturbed base p h n s' := by
  have hsucc := rowsBetween_succ api chain extended hpn
  refine ⟨?_, fun row hrow => ?_, fun hnot => absurd hdisturbed hnot⟩
  · rw [hrows]
    exact hs.complete.trans (List.sublist_append_left _ _)
  · rw [hrows, List.mem_append] at hrow
    rcases hrow with hrow | hrow
    · exact hs.sound row hrow
    · refine .inr ((prefix_rowsBetween hnh).subset ?_)
      rw [hsucc, List.mem_append]
      exact .inr (hpre.subset hrow)

/-- **The processing of a block keeps the table.** -/
theorem records_transactions [LegalOfficers] (hanswers : AnswersWith chain nodes extended) :
    Records chain nodes (processBlock api) (CutRows api) KeepsTransactions disturbed p
      (TransactionsUpTo api chain extended disturbed base p) where
  grows hs hh := by
    refine ⟨hs.complete, fun row hrow => ?_, hs.once⟩
    exact (hs.sound row hrow).imp_right fun hmem => (prefix_rowsBetween hh).subset hmem
  passes hpn hnh hempty hs := by
    refine hs.next hpn hnh ?_
    rw [rowsAt, if_pos hempty, List.append_nil]
  processes {h n block s s'} hpn hnh hfetched hexec hs := by
    obtain ⟨rows, hrows, -, hcompletes⟩ := processBlock_transactions api block s
    refine hs.next hpn hnh ?_
    rw [hexec] at hrows
    rw [hrows, hfetched.rowsAt hanswers, rowsOf, hcompletes ⟨(), s', hexec⟩]
    rfl
  throws {block e s s'} hexec := by
    obtain ⟨rows, hrows, hnone, -⟩ := processBlock_transactions api block s
    rw [hexec] at hrows
    refine ⟨rows, ?_, hrows⟩
    rcases hnone with rfl | hall
    · exact List.nil_prefix
    · rw [rowsOf, hall]
      exact List.prefix_refl _
  cut hdisturbed hpn hnh hfetched hcut hs := by
    obtain ⟨rows, hpre, hrows⟩ := hcut
    exact hs.cut hdisturbed hpn hnh ((hfetched.rowsAt hanswers).symm ▸ hpre) hrows
  back hdisturbed _ hqn hs := hs.back hdisturbed hqn
  written hwritten hs := by
    rw [KeepsTransactions] at hwritten
    exact ⟨hwritten ▸ hs.complete, hwritten ▸ hs.sound, fun hnot => hwritten.trans (hs.once hnot)⟩

/-! ### The history of an account -/

open TransactionRepository TransactionController

variable (api chain extended disturbed) in
/-- An answer of `findBy` when the blocks after `p` and up to `n` have been processed, `base` was there
before, and the finalized head is `h`. -/
structure HistoryUpTo (base : List TransactionAggregateRoot) (p h n : ℕ) (account : AccountId)
    (answer : List TransactionAggregateRoot) : Prop where
  sorted : answer.Pairwise newestFirst
  complete : ((base ++ rowsBetween api chain extended p n).filter
    (isFound account api.chainType)).Subperm answer
  sound : ∀ row ∈ answer, isFound account api.chainType row = true ∧
    (row ∈ base ∨ row ∈ rowsBetween api chain extended p h)
  once : ¬ disturbed → answer.Perm
    ((base ++ rowsBetween api chain extended p n).filter (isFound account api.chainType))

theorem TransactionsUpTo.history (hs : TransactionsUpTo api chain extended disturbed base p h n s)
    {account : AccountId} {answer : List TransactionAggregateRoot}
    (hanswer : Answers account api.chainType s.db.transactions answer) :
    HistoryUpTo api chain extended disturbed base p h n account answer where
  sorted := hanswer.sorted
  complete := (hs.complete.filter _).subperm.trans hanswer.perm.symm.subperm
  sound row hrow := by
    obtain ⟨hmem, hfound⟩ := List.mem_filter.mp (hanswer.perm.subset hrow)
    exact ⟨hfound, hs.sound row hmem⟩
  once hnot := by
    rw [← hs.once hnot]
    exact hanswer.perm

/-! ### Every run -/

section

variable [LegalOfficers] (hnodes : OneChain chain type nodes)
  (hanswers : AnswersWith chain nodes extended) (hp : p ≤ h) {s : SyncState Store}
  (hs : s.syncPoint = some ⟨⟨p, type⟩⟩) (htrace : s.trace = []) {os : List (Scheduler.Op Store)}
  (hos : Along (Scheduler.step nodes (processBlock api)) (Scheduler.Permitted nodes
    (processBlock api) (CutRows api) KeepsTransactions disturbed) (Scheduler.start h s) os)

include hnodes hanswers hp hs htrace hos

theorem transactions_run :
    let σ := run (Scheduler.step nodes (processBlock api)) (Scheduler.start h s) os
    ∃ q n : ℕ, σ.store.syncPoint = some ⟨⟨q, type⟩⟩ ∧ p ≤ q ∧ q ≤ n ∧ n ≤ σ.head ∧
      (σ.runs = [] → n = q) ∧ TransactionsUpTo api chain extended disturbed s.db.db.transactions p
        σ.head n σ.store.db := by
  have hstart : TransactionsUpTo api chain extended disturbed s.db.db.transactions p h p s.db := by
    refine ⟨?_, fun row hrow => .inl hrow, fun _ => ?_⟩
    · rw [rowsBetween_self, List.append_nil]
    · rw [rowsBetween_self, List.append_nil]
  exact Scheduler.records_run (records_transactions hanswers) hnodes hp hs htrace hstart hos

/-- **The history of an account, in every run**: it has the visible rows of all the blocks up to the
sync point and beyond it, newest first, and no other row; each one once, unless something failed or the
process was restarted. -/
theorem account_history {σ : SchedulerState Store SignedBlockExtended}
    (hσ : run (Scheduler.step nodes (processBlock api)) (Scheduler.start h s) os = σ) :
    ∃ q n : ℕ, σ.store.syncPoint = some ⟨⟨q, type⟩⟩ ∧ p ≤ q ∧ q ≤ n ∧ n ≤ σ.head ∧
      (σ.runs = [] → n = q) ∧ ∀ account answer,
        Answers account api.chainType σ.store.db.db.transactions answer →
        HistoryUpTo api chain extended disturbed s.db.db.transactions p σ.head n account answer := by
  subst hσ
  obtain ⟨q, n, hq, hpq, hqn, hnh, hrest, hrows⟩ :=
    transactions_run hnodes hanswers hp hs htrace hos
  exact ⟨q, n, hq, hpq, hqn, hnh, hrest, fun account answer hanswer => hrows.history hanswer⟩

/-- **When an account can list its transactions**, in every run: never again once a certificate fee that
it sees has been recorded, and always as long as no block gives one. -/
theorem history_available {σ : SchedulerState Store SignedBlockExtended}
    (hσ : run (Scheduler.step nodes (processBlock api)) (Scheduler.start h s) os = σ) :
    ∃ q n : ℕ, σ.store.syncPoint = some ⟨⟨q, type⟩⟩ ∧ p ≤ q ∧ q ≤ n ∧ n ≤ σ.head ∧
      ∀ account (found : List (UUID × TransactionAggregateRoot)),
        Answers account api.chainType σ.store.db.db.transactions (found.map Prod.snd) →
        (Returns (fetchTransactions found) →
          Readable account api.chainType
            (s.db.db.transactions ++ rowsBetween api chain extended p n)) ∧
        (Readable account api.chainType
            (s.db.db.transactions ++ rowsBetween api chain extended p σ.head) →
          Returns (fetchTransactions found)) := by
  subst hσ
  obtain ⟨q, n, hq, hpq, hqn, hnh, -, hrows⟩ := transactions_run hnodes hanswers hp hs htrace hos
  refine ⟨q, n, hq, hpq, hqn, hnh, fun account found hanswer => ?_⟩
  have hhistory := hrows.history hanswer
  rw [fetchTransactions_returns]
  constructor
  · intro hreads row hrow hfound
    exact hreads row (hhistory.complete.subset (List.mem_filter.mpr ⟨hrow, hfound⟩))
  · intro hreadable row hrow
    obtain ⟨hfound, hmem⟩ := hhistory.sound row hrow
    exact hreadable row (List.mem_append.mpr hmem) hfound

end

end

/-! ### A chain with a transaction in each block -/

open TransactionRepository TransactionController

/-- A closing in each block; `bob` pays a certificate fee in the second one. -/
def historyBlock (n : ℕ) : SignedBlockExtended :=
  { closingBlock (if n = 2 then [.certificateFeeWithdrawn "bob" 7] else []) with number := n }

def historyNode (head : ℕ) : Node SignedBlockExtended where
  chainType := .solo
  getFinalizedHead := unaryHash head
  getBlockHash n := unaryHash n.toNat
  getBlock hash := some (unaryChain.block hash.length)
  getExtendedBlock hash := some (historyBlock hash.length)

theorem historyNode_oneChain : OneChain unaryChain .solo historyNode where
  nodeAt h := {
    finalized := rfl
    hashes := fun n _ => rfl
    blocks := fun n _ => by
      show some (unaryChain.block (unaryHash n).length) = _
      rw [length_unaryHash] }
  chainType _ := rfl

theorem historyNode_answers : AnswersWith unaryChain historyNode historyBlock := by
  rintro k n block hblock
  have hhash : some (historyBlock (unaryHash n).length) = some block := hblock
  rw [length_unaryHash] at hhash
  exact (Option.some.inj hhash).symm

def emptyTables : SyncState Store := ⟨some ⟨⟨0, .solo⟩⟩, ⟨{}, []⟩, []⟩

/-- Two blocks, and a third one that is finalized meanwhile. -/
def calmOps : List (Scheduler.Op Store) :=
  [.tick, .request ⟨{}, []⟩] ++ List.replicate 9 (.resume 0) ++ [.tick, .finalize 1] ++
    List.replicate 2 (.resume 0)

abbrev afterHistoryOps (os : List (Scheduler.Op Store)) : SchedulerState Store SignedBlockExtended :=
  run (Scheduler.step historyNode (@processBlock noLegalOfficers noVault plainApi))
    (Scheduler.start 2 emptyTables) os

/-- The first block is processed. -/
def firstBlockOps : List (Scheduler.Op Store) := [.tick] ++ List.replicate 8 (.resume 0)

/-- Then the process restarts before the sync point is stored, and the block is processed again. -/
def restartedOps : List (Scheduler.Op Store) :=
  firstBlockOps ++ [.restart (afterHistoryOps firstBlockOps).store.db, .tick] ++
    List.replicate 11 (.resume 0)

instance (s s' : Store) : Decidable (KeepsTransactions s s') := inferInstanceAs (Decidable (_ = _))

/-- Ticks and runs that go on are permitted when something may fail. -/
theorem along_runs [Vault] [LegalOfficers] {api : ChainApi}
    {nodes : ℕ → Node SignedBlockExtended} {os : List (Scheduler.Op Store)}
    (hos : ∀ o ∈ os, o = .tick ∨ o = .resume 0) (σ : SchedulerState Store SignedBlockExtended) :
    Along (Scheduler.step nodes (processBlock api)) (Scheduler.Permitted nodes (processBlock api)
      (CutRows api) KeepsTransactions True) σ os := by
  refine along_iff.mpr fun pre o post hsplit => ?_
  have hmem : o ∈ os := by rw [hsplit]; simp
  rcases hos o hmem with rfl | rfl
  · trivial
  · exact fun _ _ => .inl trivial

section

attribute [local instance] noVault noLegalOfficers

theorem calmOps_permitted : Along (Scheduler.step historyNode (processBlock plainApi))
    (Scheduler.Permitted historyNode (processBlock plainApi) (CutRows plainApi) KeepsTransactions False)
    (Scheduler.start 2 emptyTables) calmOps := by
  decide +kernel

theorem restartedOps_permitted : Along (Scheduler.step historyNode (processBlock plainApi))
    (Scheduler.Permitted historyNode (processBlock plainApi) (CutRows plainApi) KeepsTransactions True)
    (Scheduler.start 2 emptyTables) restartedOps := by
  refine along_append.mpr ⟨along_append.mpr ⟨along_runs (by simp [firstBlockOps]) _, ?_⟩,
    along_runs (by simp) _⟩
  exact And.intro (And.intro trivial (Or.inl rfl)) (And.intro trivial trivial)

theorem account_history_closings :
    (∃ q n : ℕ, (afterHistoryOps calmOps).store.syncPoint = some ⟨⟨q, .solo⟩⟩ ∧ 0 ≤ q ∧ q ≤ n ∧
      n ≤ (afterHistoryOps calmOps).head ∧ ((afterHistoryOps calmOps).runs = [] → n = q) ∧
      ∀ account answer, Answers account plainApi.chainType
          (afterHistoryOps calmOps).store.db.db.transactions answer →
        HistoryUpTo plainApi unaryChain historyBlock False emptyTables.db.db.transactions 0
          (afterHistoryOps calmOps).head n account answer) ∧
    ∃ q n : ℕ, (afterHistoryOps restartedOps).store.syncPoint = some ⟨⟨q, .solo⟩⟩ ∧ 0 ≤ q ∧ q ≤ n ∧
      n ≤ (afterHistoryOps restartedOps).head ∧ ((afterHistoryOps restartedOps).runs = [] → n = q) ∧
      ∀ account answer, Answers account plainApi.chainType
          (afterHistoryOps restartedOps).store.db.db.transactions answer →
        HistoryUpTo plainApi unaryChain historyBlock True emptyTables.db.db.transactions 0
          (afterHistoryOps restartedOps).head n account answer :=
  ⟨account_history historyNode_oneChain historyNode_answers (Nat.zero_le 2) rfl rfl
      calmOps_permitted rfl,
    account_history historyNode_oneChain historyNode_answers (Nat.zero_le 2) rfl rfl
      restartedOps_permitted rfl⟩

theorem history_available_closings :
    ∃ q n : ℕ, (afterHistoryOps calmOps).store.syncPoint = some ⟨⟨q, .solo⟩⟩ ∧ 0 ≤ q ∧ q ≤ n ∧
      n ≤ (afterHistoryOps calmOps).head ∧ ∀ account (found : List (UUID × TransactionAggregateRoot)),
        Answers account plainApi.chainType (afterHistoryOps calmOps).store.db.db.transactions
          (found.map Prod.snd) →
        (Returns (fetchTransactions found) → Readable account plainApi.chainType
          (emptyTables.db.db.transactions ++ rowsBetween plainApi unaryChain historyBlock 0 n)) ∧
        (Readable account plainApi.chainType (emptyTables.db.db.transactions ++
          rowsBetween plainApi unaryChain historyBlock 0 (afterHistoryOps calmOps).head) →
            Returns (fetchTransactions found)) :=
  history_available historyNode_oneChain historyNode_answers (Nat.zero_le 2) rfl rfl calmOps_permitted
    rfl

end

end Logion
