import Logion.Chain.ExtrinsicsBuilder
import Logion.Model.Transaction

/-!
# TransactionExtractor — the transactions of a block (`transaction.extractor.ts`)

Every signed extrinsic gives one `extrinsic` transaction with the fees paid by its signer, and further
transactions for the fees paid by others and the balances reserved for them.  `extract` may throw, on
an address that is not an account id or in `error()`; nothing is stored before all the extrinsics of
the block are extracted.

* `extractTransactions_ok`: what an extrinsic gives, as far as its failure is concerned.
* `extractTransactions_returns`: when the extraction does not throw.
-/

namespace Logion

open Fallible Keyed

/-- `Vault.getVaultAccountId` of the node API is a parameter of the model. -/
class Vault where
  getVaultAccountId : AccountId → List AccountId → AccountId

/-- An instance for runs without vault transactions. -/
@[reducible] def noVault : Vault where
  getVaultAccountId account _ := account

/-! ### Data of an extrinsic (`extrinsic.data.extractor.ts`) -/

/-- `getTimestamp`: milliseconds, cut to seconds. -/
def getTimestamp (now : ℕ) : Moment := now / 1000 * 1000

/-- The timestamp of an extrinsic of the pallet `timestamp`. -/
def timestampOf (e : JsonExtrinsic) : Option Moment :=
  match e.call with
  | .timestamp now => some (getTimestamp now)
  | _ => none

/-- `getBlockTimestamp`: the one of the first extrinsic of the pallet `timestamp`. -/
def getBlockTimestamp (block : BlockExtrinsics) : Option Moment :=
  block.extrinsics.findSome? timestampOf

/-- `Adapters.asString(address.Id)`. -/
def MultiAddress.asString : MultiAddress → Except Err String
  | id address => .ok address
  | other => .error (.error "Not a string")

/-- `getDest` and `getAccount`: undefined when there is no such argument. -/
def getAddress : Option MultiAddress → Except Err (Option String)
  | none => .ok none
  | some address => some <$> address.asString

/-! ### Extraction -/

inductive ExtrinsicType
  | timestamp
  | transfer
  | genericTransaction
  | transferFromRecovered
  | transferFromVault
  deriving DecidableEq, Repr

def determineType (e : JsonExtrinsic) : ExtrinsicType :=
  match e.call with
  | .timestamp _ => .timestamp
  | .balances .. => .transfer
  | .asRecovered _ call => if call.isBalances then .transferFromRecovered else .genericTransaction
  | .approveCall _ call => if call.isBalances then .transferFromVault else .genericTransaction
  | _ => .genericTransaction

/-- The amount of the first `balances.Transfer` event. -/
def transferValue (e : JsonExtrinsic) : ℕ :=
  match (findEventsData e JsonEvent.transfer?).head? with
  | some (some amount) => amount
  | _ => 0

/-- `error`. -/
def transactionError (e : JsonExtrinsic) : Except Err (Option TransactionError) := do
  let error ← e.error
  return error.map fun error => ⟨error.pallet, error.name, error.details⟩

def feesPaidBySigner (e : JsonExtrinsic) (fee : Option Fee) : Option ℕ :=
  match fee with
  | some fee => if some fee.withdrawnFrom = e.signer then some fee.fee else none
  | none => none

def transactionFees (e : JsonExtrinsic) : Fees where
  inclusionFee := e.partialFee.getD 0
  storageFee := feesPaidBySigner e e.storageFee
  legalFee := feesPaidBySigner e (e.legalFee.map (·.toFee))
  certificateFee := feesPaidBySigner e e.certificateFee
  valueFee := feesPaidBySigner e e.valueFee
  collectionItemFee := feesPaidBySigner e (e.collectionItemFee.map (·.toFee))

/-- A JavaScript object from accounts to amounts, in the order of insertion. -/
abbrev ReservedMap := List (String × ℤ)

/-- `map[account] || 0n`. -/
def ReservedMap.get (map : ReservedMap) (account : String) : ℤ :=
  ((lookup Prod.fst account map).map Prod.snd).getD 0

/-- `map[account] = (map[account] || 0n) + amount`. -/
def ReservedMap.add (map : ReservedMap) (account : String) (amount : ℤ) : ReservedMap :=
  if (lookup Prod.fst account map).isSome then
    modifyFirst Prod.fst account (fun entry => (entry.1, entry.2 + amount)) map
  else map ++ [(account, amount)]

def ReservedMap.delete (map : ReservedMap) (account : String) : ReservedMap :=
  eraseFirst Prod.fst account map

def reservedMap (e : JsonExtrinsic) : ReservedMap :=
  let map := (findEventsData e JsonEvent.reserved?).foldl
    (fun (map : ReservedMap) data => map.add data.1 data.2) []
  (findEventsData e JsonEvent.unreserved?).foldl
    (fun (map : ReservedMap) data => map.add data.1 (-data.2)) map

/-- A fee paid by another account than the signer. -/
def paidByOther (signer : String) (fee : Option Fee) (toTransaction : Fee → Transaction) :
    List Transaction :=
  match fee with
  | some fee => if fee.withdrawnFrom ≠ signer then [toTransaction fee] else []
  | none => []

/-- The transactions that come after the `extrinsic` one: the fees paid by others, and what is left of
the reserved balances. -/
def feeTransactions (e : JsonExtrinsic) (signer : String) (index : ℕ) (reservedMap : ReservedMap) :
    List Transaction :=
  let base (fromAddress : String) (type : TransactionType) : Transaction := {
    extrinsicIndex := index, fromAddress, pallet := e.call.pallet, method := e.call.method, type }
  let storage := paidByOther signer e.storageFee fun fee => { base fee.withdrawnFrom .storageFee with
    fees := { inclusionFee := 0, storageFee := some fee.fee } }
  let certificate := paidByOther signer e.certificateFee fun fee =>
    { base fee.withdrawnFrom .certificateFee with
      fees := { inclusionFee := 0, certificateFee := some fee.fee } }
  let legal := paidByOther signer (e.legalFee.map (·.toFee)) fun fee =>
    { base fee.withdrawnFrom .legalFee with
      transferValue := fee.fee, toAddress := e.legalFee.bind (·.beneficiary) }
  let value := paidByOther signer e.valueFee fun fee => { base fee.withdrawnFrom .valueFee with
    reserved := reservedMap.get fee.withdrawnFrom, transferValue := fee.fee }
  let reservedMap := match e.valueFee with
    | some fee =>
      if fee.withdrawnFrom ≠ signer then reservedMap.delete fee.withdrawnFrom else reservedMap
    | none => reservedMap
  let collectionItem := match e.collectionItemFee with
    | some fee =>
      if fee.beneficiary.isSome then
        [{ base fee.withdrawnFrom .collectionItemFee with
          transferValue := fee.received, toAddress := fee.beneficiary, hiddenFrom := some .sender }]
      else []
    | none => []
  let tokensRecord := match e.tokensRecordFee with
    | some fee =>
      [{ base fee.withdrawnFrom .tokensRecordFee with
          fees := { inclusionFee := 0, tokensRecordFee := some fee.fee } },
        { base fee.withdrawnFrom .tokensRecordFee with
          transferValue := fee.received, toAddress := fee.beneficiary, hiddenFrom := some .sender }]
    | none => []
  let reserve := reservedMap.map fun entry => { base entry.1 .reserve with reserved := entry.2 }
  storage ++ certificate ++ legal ++ value ++ collectionItem ++ tokensRecord ++ reserve

/-- The vault's own transaction, when a successful call was approved. -/
def vaultTransactions [Vault] (e : JsonExtrinsic) (signer : String) (index : ℕ)
    (otherSignatories : List String) (call : Call) : Except Err (List Transaction) := do
  let error ← transactionError e
  if error.isNone then do
    let vault := Vault.getVaultAccountId (.polkadot signer) (otherSignatories.map .polkadot)
    let vaultTransferTo ← getAddress call.dest
    return [{
      extrinsicIndex := index
      pallet := "balances"
      method := "transfer"
      fromAddress := vault.address
      transferValue := transferValue e
      toAddress := vaultTransferTo
      type := .vaultOut }]
  else return []

/-- Where the transferred value comes from, how much it is and where it goes. -/
structure TransferParties where
  fromAddress : String
  transferValue : ℕ := 0
  toAddress : Option String := none

def transferParties (e : JsonExtrinsic) (signer : String) : Except Err TransferParties :=
  match determineType e, e.call with
  | .transfer, call => do
    let toAddress ← getAddress call.dest
    return ⟨signer, transferValue e, toAddress⟩
  | .transferFromRecovered, .asRecovered account call => do
    let account ← getAddress account
    let toAddress ← getAddress call.dest
    return ⟨account.getD signer, transferValue e, toAddress⟩
  | _, _ => return { fromAddress := signer }

def extractTransactions [Vault] (e : JsonExtrinsic) (signer : String) (index : ℕ) :
    Except Err (List Transaction) := do
  let parties ← transferParties e signer
  let vault ← (match determineType e, e.call with
    | .transferFromVault, .approveCall otherSignatories call =>
      vaultTransactions e signer index otherSignatories call
    | _, _ => pure [])
  let map := reservedMap e
  let error ← transactionError e
  let extrinsic : Transaction := {
    extrinsicIndex := index
    pallet := e.call.pallet
    method := e.call.method
    tip := e.tip.getD 0
    fees := transactionFees e
    reserved := map.get signer
    fromAddress := parties.fromAddress
    transferValue := parties.transferValue
    toAddress := parties.toAddress
    error := error
    type := .extrinsic }
  return vault ++ extrinsic :: feeTransactions e signer index (map.delete signer)

/-- What one extrinsic of a block gives: nothing for a timestamp or an unsigned extrinsic. -/
def extractFrom [Vault] (e : JsonExtrinsic) (index : ℕ) : Except Err (List Transaction) :=
  if determineType e = .timestamp then return []
  else match e.signer with
    | some signer => extractTransactions e signer index
    | none => return []

/-- `BlockWithTransactions`. -/
structure BlockWithTransactions where
  block : Block
  timestamp : Option Moment
  transactions : List Transaction

/-- `BlockWithTransactionsBuilder.timestamp`, set again by each timestamp extrinsic. -/
def lastTimestamp (extrinsics : List JsonExtrinsic) : Option Moment :=
  extrinsics.foldl (fun timestamp e => (timestampOf e).or timestamp) none

def extractBlockWithTransactions [Vault] (block : BlockExtrinsics) :
    Except Err (Option BlockWithTransactions) :=
  if block.extrinsics.length ≤ 1 then return none
  else do
    let transactions ← block.extrinsics.zipIdx.mapM fun (e, index) => extractFrom e index
    if transactions.flatten.isEmpty then return none
    else return some {
      block := ⟨block.number, block.chain⟩
      timestamp := lastTimestamp block.extrinsics
      transactions := transactions.flatten }

/-! ### What an extrinsic gives -/

variable {e : JsonExtrinsic} {signer : String} {index : ℕ}

theorem paidByOther_mem {fee : Option Fee} {toTransaction : Fee → Transaction} {t : Transaction}
    (h : t ∈ paidByOther signer fee toTransaction) : ∃ fee, t = toTransaction fee := by
  unfold paidByOther at h
  split at h
  · split_ifs at h
    · exact ⟨_, List.mem_singleton.mp h⟩
    · cases h
  · cases h

/-- The transactions that come after the `extrinsic` one carry no error. -/
theorem feeTransactions_mem {map : ReservedMap} {t : Transaction}
    (h : t ∈ feeTransactions e signer index map) :
    t.extrinsicIndex = index ∧ t.type ≠ .extrinsic ∧ t.error = none := by
  unfold feeTransactions at h
  simp only [List.mem_append] at h
  rcases h with (((((h | h) | h) | h) | h) | h) | h
  · obtain ⟨fee, rfl⟩ := paidByOther_mem h
    simp
  · obtain ⟨fee, rfl⟩ := paidByOther_mem h
    simp
  · obtain ⟨fee, rfl⟩ := paidByOther_mem h
    simp
  · obtain ⟨fee, rfl⟩ := paidByOther_mem h
    simp
  · split at h
    · split_ifs at h
      · rw [List.mem_singleton.mp h]
        simp
      · cases h
    · cases h
  · split at h
    · rcases List.mem_cons.mp h with rfl | h
      · simp
      · rw [List.mem_singleton.mp h]
        simp
    · cases h
  · obtain ⟨entry, -, rfl⟩ := List.mem_map.mp h
    simp

/-- The addresses that the extraction reads are account ids. -/
def Call.addressesUnderstood : Call → Bool
  | .balances _ dest => dest ≠ some .other
  | .asRecovered account call =>
    !call.isBalances || (account ≠ some .other && call.dest ≠ some .other)
  | _ => true

theorem getAddress_returns {address : Option MultiAddress} :
    Returns (getAddress address) ↔ address ≠ some .other := by
  rcases address with _ | address | _
  · simp [getAddress]
  · exact iff_of_true ⟨some address, rfl⟩ (by simp)
  · refine iff_of_false ?_ (by simp)
    rintro ⟨a, h⟩
    cases h

theorem transferParties_returns (signer : String) :
    Returns (transferParties e signer) ↔ e.call.addressesUnderstood = true := by
  unfold transferParties determineType
  cases hcall : e.call with
  | balances method dest =>
    refine returns_map.trans (getAddress_returns.trans ?_)
    simp [Call.addressesUnderstood, Call.dest]
  | asRecovered account call =>
    dsimp only
    cases hb : call.isBalances with
    | true =>
      rw [if_pos rfl]
      have hboth : Returns (getAddress account) ∧ Returns (getAddress call.dest) ↔
          (Call.asRecovered account call).addressesUnderstood = true := by
        rw [getAddress_returns, getAddress_returns]
        simp [Call.addressesUnderstood, hb]
      refine Iff.trans ?_ hboth
      dsimp only
      rw [returns_bind]
      constructor
      · rintro ⟨a, ha, h⟩
        exact ⟨⟨a, ha⟩, returns_map.mp h⟩
      · rintro ⟨⟨a, ha⟩, h⟩
        exact ⟨a, ha, returns_map.mpr h⟩
    | false =>
      simp [Call.addressesUnderstood, hb]
  | approveCall otherSignatories call =>
    dsimp only
    split_ifs <;> simp [Call.addressesUnderstood]
  | _ => simp [Call.addressesUnderstood]

variable [Vault]

theorem vaultTransactions_mem {otherSignatories : List String} {call : Call} {ts : List Transaction}
    (h : vaultTransactions e signer index otherSignatories call = .ok ts) :
    ∀ t ∈ ts, t.extrinsicIndex = index ∧ t.type ≠ .extrinsic ∧ t.error = none := by
  obtain ⟨error, -, h⟩ := bind_eq_ok.mp h
  split_ifs at h
  · obtain ⟨toAddress, -, h⟩ := bind_eq_ok.mp h
    cases h
    simp
  · cases h
    simp

/-- **The transactions of a signed extrinsic**: exactly one has the type `extrinsic`; it carries the
error of the extrinsic, the others carry none. -/
theorem extractTransactions_ok {ts : List Transaction}
    (h : extractTransactions e signer index = .ok ts) :
    ∃ error pre t post, e.error = .ok error ∧ ts = pre ++ t :: post ∧ t.type = .extrinsic ∧
      t.extrinsicIndex = index ∧ t.error.isSome = error.isSome ∧
      ∀ t' ∈ pre ++ post, t'.extrinsicIndex = index ∧ t'.type ≠ .extrinsic ∧ t'.error = none := by
  obtain ⟨parties, -, h⟩ := bind_eq_ok.mp h
  obtain ⟨vault, hvault, h⟩ := bind_eq_ok.mp h
  obtain ⟨error, herror, h⟩ := bind_eq_ok.mp h
  cases h
  obtain ⟨error', herror', herror⟩ := bind_eq_ok.mp herror
  cases herror
  have hv : ∀ t ∈ vault, t.extrinsicIndex = index ∧ t.type ≠ .extrinsic ∧ t.error = none := by
    split at hvault
    · exact vaultTransactions_mem hvault
    · cases hvault
      simp
  refine ⟨error', vault, _, _, herror', rfl, rfl, rfl, by simp, fun t' ht' => ?_⟩
  rcases List.mem_append.mp ht' with ht' | ht'
  · exact hv t' ht'
  · exact feeTransactions_mem ht'

/-- **When the extraction of an extrinsic with an error does not throw.** -/
theorem extractTransactions_returns {error : ExtrinsicError} (he : e.error = .ok (some error)) :
    Returns (extractTransactions e signer index) ↔ e.call.addressesUnderstood = true := by
  have herror : transactionError e = .ok (some ⟨error.pallet, error.name, error.details⟩) := by
    rw [transactionError, he]
    rfl
  have hvault : ∀ otherSignatories call,
      vaultTransactions e signer index otherSignatories call = .ok [] := by
    intro otherSignatories call
    rw [vaultTransactions, herror]
    rfl
  rw [← transferParties_returns signer]
  unfold extractTransactions
  rw [returns_bind]
  constructor
  · rintro ⟨parties, h, -⟩
    exact ⟨parties, h⟩
  · rintro ⟨parties, h⟩
    refine ⟨parties, h, returns_bind.mpr ⟨[], ?_, returns_bind.mpr ⟨_, herror, returns_ok _⟩⟩⟩
    split
    · exact hvault _ _
    · rfl

/-- Whether the extraction throws does not depend on the index. -/
theorem extractTransactions_outcome (e : JsonExtrinsic) (signer : String) (j k : ℕ) :
    outcome (extractTransactions e signer j) = outcome (extractTransactions e signer k) := by
  have hvault : ∀ otherSignatories call,
      outcome (vaultTransactions e signer j otherSignatories call) =
        outcome (vaultTransactions e signer k otherSignatories call) := by
    intro otherSignatories call
    refine outcome_bind_congr_right fun error => ?_
    split_ifs
    · exact outcome_bind_congr_right fun _ => rfl
    · rfl
  refine outcome_bind_congr_right fun parties => ?_
  refine outcome_bind_congr ?_ fun _ _ => outcome_bind_congr_right fun _ => rfl
  split
  · exact hvault _ _
  · rfl

theorem extractFrom_outcome (e : JsonExtrinsic) (j k : ℕ) :
    outcome (extractFrom e j) = outcome (extractFrom e k) := by
  unfold extractFrom
  split_ifs
  · rfl
  · cases e.signer with
    | none => rfl
    | some signer => exact extractTransactions_outcome e signer j k

/-- Every transaction that an extrinsic gives has its index. -/
theorem extractFrom_index {ts : List Transaction} (h : extractFrom e index = .ok ts) :
    ∀ t ∈ ts, t.extrinsicIndex = index := by
  unfold extractFrom at h
  split_ifs at h
  · cases h
    simp
  · cases hsigner : e.signer with
    | none =>
      rw [hsigner] at h
      cases h
      simp
    | some signer =>
      rw [hsigner] at h
      obtain ⟨error, pre, t, post, -, rfl, -, ht, -, hrest⟩ := extractTransactions_ok h
      intro t' ht'
      rcases List.mem_append.mp ht' with h' | h'
      · exact (hrest t' (List.mem_append_left _ h')).1
      · rcases List.mem_cons.mp h' with rfl | h'
        · exact ht
        · exact (hrest t' (List.mem_append_right _ h')).1

/-- The transaction of type `extrinsic` of an extrinsic carries its error. -/
theorem extractFrom_error {e : JsonExtrinsic} {index : ℕ} {ts : List Transaction} {t : Transaction}
    (hts : extractFrom e index = .ok ts) (ht : t ∈ ts) (htype : t.type = .extrinsic) :
    ∃ signer error, e.error = .ok error ∧ t.error.isSome = error.isSome ∧
      determineType e ≠ .timestamp ∧ Returns (extractTransactions e signer index) := by
  unfold extractFrom at hts
  split_ifs at hts with htime
  · cases hts
    cases ht
  · cases hsigner : e.signer with
    | none =>
      rw [hsigner] at hts
      cases hts
      cases ht
    | some signer =>
      rw [hsigner] at hts
      obtain ⟨error, pre, t₀, post, he, rfl, -, -, ht₀, hrest⟩ := extractTransactions_ok hts
      refine ⟨signer, error, he, ?_, htime, _, hts⟩
      rcases List.mem_append.mp ht with h | h
      · exact absurd htype (hrest t (List.mem_append_left _ h)).2.1
      · rcases List.mem_cons.mp h with rfl | h
        · exact ht₀
        · exact absurd htype (hrest t (List.mem_append_right _ h)).2.1

omit [Vault] in
theorem determineType_eq_timestamp {e : JsonExtrinsic} :
    determineType e = .timestamp ↔ ∃ now, e.call = .timestamp now := by
  unfold determineType
  cases hcall : e.call with
  | timestamp now => exact iff_of_true rfl ⟨now, rfl⟩
  | asRecovered | approveCall =>
    dsimp only
    split_ifs <;> simp
  | _ => simp

end Logion
