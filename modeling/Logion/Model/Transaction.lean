import Logion.Lib.Keyed
import Logion.Model.Basic

/-!
# Transaction — transactions as extracted and as stored (`transaction.vo.ts`, `transaction.model.ts`)

The amounts are numbers where the source keeps the decimal text of one.  The random id of a stored
transaction is left out: inserting a transaction never replaces another one.
-/

namespace Logion

/-- `TransactionType`. -/
inductive TransactionType
  | extrinsic
  | vaultOut
  | legalFee
  | storageFee
  | certificateFee
  | otherFees
  | valueFee
  | reserve
  | collectionItemFee
  | tokensRecordFee
  deriving DecidableEq, Repr

/-- `Party`. -/
inductive Party
  | sender
  | receiver
  deriving DecidableEq, Repr

/-- `Fees` of the node API. -/
structure Fees where
  inclusionFee : ℕ
  storageFee : Option ℕ := none
  legalFee : Option ℕ := none
  certificateFee : Option ℕ := none
  valueFee : Option ℕ := none
  collectionItemFee : Option ℕ := none
  tokensRecordFee : Option ℕ := none
  deriving DecidableEq, Repr

/-- `Fees.zero()`. -/
def Fees.zero : Fees := { inclusionFee := 0 }

/-- `EmbeddableFees.onlyInclusion`. -/
def Fees.onlyInclusion (fees : Fees) : Fees := { inclusionFee := fees.inclusionFee }

structure TransactionError where
  pallet : String
  name : String
  details : String
  deriving DecidableEq, Repr

/-- `Transaction` of `transaction.vo.ts`. -/
structure Transaction where
  extrinsicIndex : ℕ
  fromAddress : String
  toAddress : Option String := none
  transferValue : ℕ := 0
  tip : ℕ := 0
  fees : Fees := .zero
  reserved : ℤ := 0
  pallet : String
  method : String
  error : Option TransactionError := none
  type : TransactionType
  hiddenFrom : Option Party := none
  deriving DecidableEq, Repr

/-- `TransactionAggregateRoot`, without its id. -/
structure TransactionAggregateRoot where
  block : Block
  extrinsicIndex : ℕ
  fromAddress : String
  toAddress : Option String
  transferValue : ℕ
  tip : ℕ
  fees : Fees
  reserved : ℤ
  pallet : String
  method : String
  createdOn : Moment
  successful : Bool
  error : Option TransactionError
  type : TransactionType
  hiddenFrom : Option Party
  deriving DecidableEq, Repr

/-- `TransactionFactory.newTransaction`: a transaction with an error has failed, and keeps only its
inclusion fee. -/
def newTransaction (block : Block) (createdOn : Moment) (t : Transaction) :
    TransactionAggregateRoot where
  block := block
  extrinsicIndex := t.extrinsicIndex
  fromAddress := t.fromAddress
  toAddress := t.toAddress
  transferValue := t.transferValue
  tip := t.tip
  fees := if t.error.isNone then t.fees else t.fees.onlyInclusion
  reserved := t.reserved
  pallet := t.pallet
  method := t.method
  createdOn := createdOn
  successful := t.error.isNone
  error := t.error
  type := t.type
  hiddenFrom := t.hiddenFrom

end Logion
