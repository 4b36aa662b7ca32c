import Logion.Chain.FeeConservation

/-!
# StoredTransactions — transactions as columns (`transaction.model.ts`, `fees.ts`)

`TransactionFactory.newTransaction` writes a description into the columns of the table `transaction`,
and `getDescription` reads them back: types and parties as texts, the error as three columns, the
amounts of the fees in columns that may be null.  Block, date and amounts are kept as values, the
addresses as canonical ones.

* `getDescription_newTransaction`: what is read back.
* `readBack_iff`: it is what was written exactly when `asTransactionType` knows the type and the error
  has no empty text.
-/

namespace Logion

open Fallible

/-! ### Types and parties as texts -/

def TransactionType.text : TransactionType → String
  | extrinsic => "EXTRINSIC"
  | vaultOut => "VAULT_OUT"
  | legalFee => "LEGAL_FEE"
  | storageFee => "STORAGE_FEE"
  | certificateFee => "CERTIFICATE_FEE"
  | otherFees => "OTHER_FEES"
  | valueFee => "VALUE_FEE"
  | reserve => "RESERVE"
  | collectionItemFee => "COLLECTION_ITEM_FEE"
  | tokensRecordFee => "TOKENS_RECORD_FEE"

def asTransactionType (type : String) : Except Err TransactionType :=
  match type with
  | "EXTRINSIC" => .ok .extrinsic
  | "LEGAL_FEE" => .ok .legalFee
  | "VAULT_OUT" => .ok .vaultOut
  | "STORAGE_FEE" => .ok .storageFee
  | "OTHER_FEES" => .ok .otherFees
  | "VALUE_FEE" => .ok .valueFee
  | "RESERVE" => .ok .reserve
  | "COLLECTION_ITEM_FEE" => .ok .collectionItemFee
  | "TOKENS_RECORD_FEE" => .ok .tokensRecordFee
  | type => .error (.error ("Unexpected value " ++ type))

def Party.text : Party → String
  | sender => "FROM"
  | receiver => "TO"

def asParty : Option String → Except Err (Option Party)
  | none => .ok none
  | some "FROM" => .ok (some .sender)
  | some "TO" => .ok (some .receiver)
  | some party => .error (.error ("Unexpected value " ++ party))

/-! ### Fees -/

/-- `toLgnt`: an amount of zero is falsy. -/
def toLgnt : Option ℕ → Option ℕ
  | some 0 => none
  | value => value

/-- `EmbeddableFees`. -/
structure EmbeddableFees where
  inclusionFee : Option ℕ := none
  storageFee : Option ℕ := none
  legalFee : Option ℕ := none
  certificateFee : Option ℕ := none
  valueFee : Option ℕ := none
  collectionItemFee : Option ℕ := none
  tokensRecordFee : Option ℕ := none
  deriving DecidableEq, Repr

namespace EmbeddableFees

def allFees (fees : Fees) : EmbeddableFees where
  inclusionFee := some fees.inclusionFee
  storageFee := fees.storageFee
  legalFee := fees.legalFee
  certificateFee := fees.certificateFee
  valueFee := fees.valueFee
  collectionItemFee := fees.collectionItemFee
  tokensRecordFee := fees.tokensRecordFee

def onlyInclusion (fees : Fees) : EmbeddableFees where
  inclusionFee := some fees.inclusionFee

def getDescription (fees : EmbeddableFees) : Fees where
  inclusionFee := (toLgnt fees.inclusionFee).getD 0
  storageFee := toLgnt fees.storageFee
  legalFee := toLgnt fees.legalFee
  certificateFee := toLgnt fees.certificateFee
  valueFee := toLgnt fees.valueFee
  collectionItemFee := toLgnt fees.collectionItemFee
  tokensRecordFee := toLgnt fees.tokensRecordFee

end EmbeddableFees

/-! ### Descriptions and columns -/

/-- `TransactionDescription`. -/
structure TransactionDescription where
  id : UUID
  block : Block
  extrinsicIndex : ℕ
  fromAccount : AccountId
  toAccount : Option AccountId
  transferValue : ℕ
  tip : ℕ
  fees : Fees
  reserved : ℤ
  pallet : String
  method : String
  createdOn : Moment
  error : Option TransactionError
  type : TransactionType
  hiddenFrom : Option Party
  deriving DecidableEq, Repr

/-- The columns of the table `transaction`. -/
structure TransactionRow where
  id : UUID
  block : Block
  extrinsicIndex : ℕ
  fromAddress : String
  toAddress : Option String
  transferValue : ℕ
  tip : ℕ
  fees : EmbeddableFees
  reserved : ℤ
  pallet : String
  method : String
  createdOn : Moment
  successful : Bool
  errorSection : Option String
  errorName : Option String
  errorDetails : Option String
  type : String
  hiddenFrom : Option String
  deriving DecidableEq, Repr

/-- The description that `TransactionSynchronizer.toEntity` makes of an extracted transaction; an empty
address is none. -/
def Transaction.toDescription (t : Transaction) (id : UUID) (block : Block) (createdOn : Moment) :
    TransactionDescription where
  id := id
  block := block
  extrinsicIndex := t.extrinsicIndex
  fromAccount := .polkadot t.fromAddress
  toAccount := (nonEmpty t.toAddress).map .polkadot
  transferValue := t.transferValue
  tip := t.tip
  fees := t.fees
  reserved := t.reserved
  pallet := t.pallet
  method := t.method
  createdOn := createdOn
  error := t.error
  type := t.type
  hiddenFrom := t.hiddenFrom

/-- `TransactionFactory.newTransaction`, column by column. -/
def TransactionFactory.newTransaction (description : TransactionDescription) : TransactionRow where
  id := description.id
  block := description.block
  extrinsicIndex := description.extrinsicIndex
  fromAddress := description.fromAccount.address
  toAddress := description.toAccount.map (·.address)
  transferValue := description.transferValue
  tip := description.tip
  fees := if description.error.isNone then .allFees description.fees
    else .onlyInclusion description.fees
  reserved := description.reserved
  pallet := description.pallet
  method := description.method
  createdOn := description.createdOn
  successful := description.error.isNone
  errorSection := description.error.map (·.pallet)
  errorName := description.error.map (·.name)
  errorDetails := description.error.map (·.details)
  type := description.type.text
  hiddenFrom := description.hiddenFrom.map Party.text

namespace TransactionRow

/-- The error, when none of its texts is missing or empty. -/
def error (row : TransactionRow) : Option TransactionError :=
  match row.errorSection, row.errorName, row.errorDetails with
  | some pallet, some name, some details =>
    if pallet ≠ "" ∧ name ≠ "" ∧ details ≠ "" then some ⟨pallet, name, details⟩ else none
  | _, _, _ => none

def getDescription (row : TransactionRow) : Except Err TransactionDescription := do
  let type ← asTransactionType row.type
  let hiddenFrom ← asParty row.hiddenFrom
  return {
    id := row.id
    block := row.block
    extrinsicIndex := row.extrinsicIndex
    fromAccount := .polkadot row.fromAddress
    toAccount := (nonEmpty row.toAddress).map .polkadot
    transferValue := row.transferValue
    tip := row.tip
    fees := row.fees.getDescription
    reserved := row.reserved
    pallet := row.pallet
    method := row.method
    createdOn := row.createdOn
    error := row.error
    type := type
    hiddenFrom := hiddenFrom }

end TransactionRow

/-! ### The round trip -/

/-- Absent fees for those of zero. -/
def Fees.withoutZeros (fees : Fees) : Fees where
  inclusionFee := fees.inclusionFee
  storageFee := toLgnt fees.storageFee
  legalFee := toLgnt fees.legalFee
  certificateFee := toLgnt fees.certificateFee
  valueFee := toLgnt fees.valueFee
  collectionItemFee := toLgnt fees.collectionItemFee
  tokensRecordFee := toLgnt fees.tokensRecordFee

namespace TransactionDescription

def withoutZeros (d : TransactionDescription) : TransactionDescription :=
  { d with fees := d.fees.withoutZeros }

/-- A failed transaction keeps only its inclusion fee. -/
def kept (d : TransactionDescription) : TransactionDescription :=
  { d with fees := if d.error.isNone then d.fees else d.fees.onlyInclusion }

/-- What is read back is what was written, absent and zero fees being the same. -/
def RoundTrips (d : TransactionDescription) : Prop :=
  ∃ d', (TransactionFactory.newTransaction d).getDescription = .ok d' ∧
    d'.withoutZeros = d.kept.withoutZeros

end TransactionDescription

/-- The columns of a transaction of the database. -/
def TransactionAggregateRoot.row (t : TransactionAggregateRoot) (id : UUID) : TransactionRow where
  id := id
  block := t.block
  extrinsicIndex := t.extrinsicIndex
  fromAddress := t.fromAddress
  toAddress := t.toAddress
  transferValue := t.transferValue
  tip := t.tip
  fees := if t.successful then .allFees t.fees else .onlyInclusion t.fees
  reserved := t.reserved
  pallet := t.pallet
  method := t.method
  createdOn := t.createdOn
  successful := t.successful
  errorSection := t.error.map (·.pallet)
  errorName := t.error.map (·.name)
  errorDetails := t.error.map (·.details)
  type := t.type.text
  hiddenFrom := t.hiddenFrom.map Party.text

variable {t : Transaction} {id : UUID} {block : Block} {createdOn : Moment}

theorem map_address (address : Option String) :
    (address.map AccountId.polkadot).map (·.address) = address := by
  cases address <;> rfl

theorem nonEmpty_nonEmpty (text : Option String) : nonEmpty (nonEmpty text) = nonEmpty text := by
  unfold nonEmpty
  split_ifs <;> simp_all

theorem asParty_text (party : Option Party) : asParty (party.map Party.text) = .ok party := by
  rcases party with _ | _ | _ <;> rfl

/-- `CERTIFICATE_FEE` is the one type that is not read back. -/
theorem asTransactionType_text (type : TransactionType) : asTransactionType type.text =
    if type = .certificateFee then .error (.error "Unexpected value CERTIFICATE_FEE")
    else .ok type := by
  cases type <;> rfl

theorem toLgnt_toLgnt (fee : Option ℕ) : toLgnt (toLgnt fee) = toLgnt fee := by
  rcases fee with _ | _ | fee <;> rfl

/-- Fees are read back up to absent ones. -/
theorem getDescription_allFees (fees : Fees) :
    (EmbeddableFees.allFees fees).getDescription = fees.withoutZeros := by
  obtain ⟨inclusion⟩ := fees
  cases inclusion <;> rfl

theorem getDescription_onlyInclusion (fees : Fees) :
    (EmbeddableFees.onlyInclusion fees).getDescription = fees.onlyInclusion := by
  obtain ⟨inclusion⟩ := fees
  cases inclusion <;> rfl

theorem withoutZeros_withoutZeros (fees : Fees) : fees.withoutZeros.withoutZeros = fees.withoutZeros := by
  simp [Fees.withoutZeros, toLgnt_toLgnt]

/-- The error is read back when none of its texts is empty. -/
theorem error_newTransaction (d : TransactionDescription) :
    (TransactionFactory.newTransaction d).error = d.error ↔
      ∀ error, d.error = some error → error.pallet ≠ "" ∧ error.name ≠ "" ∧ error.details ≠ "" := by
  unfold TransactionRow.error TransactionFactory.newTransaction
  cases d.error with
  | none => simp
  | some error =>
    by_cases hfull : error.pallet ≠ "" ∧ error.name ≠ "" ∧ error.details ≠ ""
    · simp [hfull]
    · simp only [Option.map_some, if_neg hfull, reduceCtorEq, false_iff, not_forall]
      exact ⟨error, rfl, hfull⟩

/-- **What is read back.** -/
theorem getDescription_newTransaction (htype : t.type ≠ .certificateFee) :
    (TransactionFactory.newTransaction (t.toDescription id block createdOn)).getDescription =
      .ok { (t.toDescription id block createdOn).kept.withoutZeros with
        error := (TransactionFactory.newTransaction (t.toDescription id block createdOn)).error } := by
  have htypeText : asTransactionType
      (TransactionFactory.newTransaction (t.toDescription id block createdOn)).type = .ok t.type :=
    (asTransactionType_text t.type).trans (if_neg htype)
  have hhidden : asParty
      (TransactionFactory.newTransaction (t.toDescription id block createdOn)).hiddenFrom =
        .ok t.hiddenFrom := asParty_text t.hiddenFrom
  have hfees : (TransactionFactory.newTransaction
      (t.toDescription id block createdOn)).fees.getDescription =
        (t.toDescription id block createdOn).kept.fees.withoutZeros := by
    unfold TransactionFactory.newTransaction TransactionDescription.kept Transaction.toDescription
    cases t.error with
    | none => exact getDescription_allFees t.fees
    | some error => exact getDescription_onlyInclusion t.fees
  have hto : (nonEmpty (TransactionFactory.newTransaction
      (t.toDescription id block createdOn)).toAddress).map AccountId.polkadot =
        (t.toDescription id block createdOn).toAccount := by
    simp only [TransactionFactory.newTransaction, Transaction.toDescription, map_address,
      nonEmpty_nonEmpty]
  rw [TransactionRow.getDescription, htypeText, hhidden, ok_bind, ok_bind, hfees, hto]
  rfl

/-- **A transaction is read back as it was written** exactly when its type is not `CERTIFICATE_FEE` and
its error, if it has one, has no empty text. -/
theorem readBack_iff (t : Transaction) (id : UUID) (block : Block) (createdOn : Moment) :
    (t.toDescription id block createdOn).RoundTrips ↔ t.type ≠ .certificateFee ∧
      ∀ error, t.error = some error → error.pallet ≠ "" ∧ error.name ≠ "" ∧ error.details ≠ "" := by
  set d := t.toDescription id block createdOn with hd
  rw [show t.error = d.error from rfl, ← error_newTransaction]
  constructor
  · rintro ⟨d', hread, hsame⟩
    have htype : t.type ≠ .certificateFee := by
      intro hcertificate
      have hthrows : asTransactionType (TransactionFactory.newTransaction d).type =
          .error (.error "Unexpected value CERTIFICATE_FEE") :=
        (asTransactionType_text t.type).trans (if_pos hcertificate)
      rw [TransactionRow.getDescription, hthrows] at hread
      cases hread
    rw [hd, getDescription_newTransaction htype, ← hd] at hread
    cases hread
    exact ⟨htype, congrArg TransactionDescription.error hsame⟩
  · rintro ⟨htype, herror⟩
    refine ⟨_, getDescription_newTransaction htype, ?_⟩
    rw [← hd, herror]
    simp only [TransactionDescription.withoutZeros, withoutZeros_withoutZeros]
    rfl

/-- A node whose errors have no documentation. -/
def undocumentedApi : ChainApi where
  chainType := .solo
  findMetaError _ := some ⟨"balances", "InsufficientBalance", ""⟩
  queryInfo _ := 1

/-- A certificate fee that another account than the signer pays gives a transaction that cannot be read;
an error without documentation is lost. -/
theorem transactions_notReadBack :
    (∃ t ∈ @transactionsOf noVault plainApi (closingBlock [.certificateFeeWithdrawn "bob" 7]) 1,
      (TransactionFactory.newTransaction (t.toDescription "id" ⟨1, .solo⟩ 5000)).getDescription =
          .error (.error "Unexpected value CERTIFICATE_FEE") ∧
        ¬ (t.toDescription "id" ⟨1, .solo⟩ 5000).RoundTrips) ∧
    ∃ t ∈ @transactionsOf noVault undocumentedApi { closingBlock [] with
        extrinsics := [{ extrinsic := setTimestamp },
          { extrinsic := closeExtrinsic, dispatchError := some (.module ⟨5, [2, 0, 0, 0]⟩) }] } 1,
      t.error = some ⟨"balances", "InsufficientBalance", ""⟩ ∧
        (TransactionFactory.newTransaction (t.toDescription "id" ⟨1, .solo⟩ 5000)).error = none ∧
        ¬ (t.toDescription "id" ⟨1, .solo⟩ 5000).RoundTrips := by
  refine ⟨⟨_, List.mem_cons_of_mem _ List.mem_cons_self, rfl, ?_⟩,
    ⟨_, List.mem_cons_self, rfl, rfl, ?_⟩⟩
  · rintro ⟨d', hread, -⟩
    cases hread
  · rintro ⟨d', hread, hsame⟩
    cases hread
    cases congrArg TransactionDescription.error hsame

end Logion
