import Logion.Chain.ExtrinsicIndices
import Mathlib.Algebra.Ring.Nat

/-!
# FeeConservation — what an extrinsic costs, and what its transactions charge

An account is charged, by a transaction that comes from it and is not hidden from it, all the fees of
the transaction, and the value of a legal or value fee.  The builder keeps the last withdrawal of each
kind; the extractor puts the fees paid by the signer on the `extrinsic` transaction, which comes from
the recovered account if there is one, and gives a transaction to the fees paid by others, except that
of a collection item.

* `chargedTo_extractTransactions`: what the transactions of an extrinsic charge.
* `feeOf_built`: the fees that the builder keeps.
* `feesConserved_iff`: the charges are the withdrawals and the inclusion fee exactly when none of the
  above loses or displaces an amount.
-/

namespace Logion

open Compaction Fallible

/-! ### Withdrawals -/

/-- The fees withdrawn by the pallet `logionLoc`. -/
inductive FeeKind
  | storage
  | legal
  | certificate
  | value
  | collectionItem
  | tokensRecord
  deriving DecidableEq, Repr

def FeeKind.all : List FeeKind := [storage, legal, certificate, value, collectionItem, tokensRecord]

/-- What a `...FeeWithdrawn` event withdraws. -/
def JsonEvent.withdrawal : JsonEvent → Option (FeeKind × Fee)
  | storageFeeWithdrawn withdrawnFrom fee => some (.storage, ⟨fee, withdrawnFrom⟩)
  | legalFeeWithdrawn withdrawnFrom _ fee => some (.legal, ⟨fee, withdrawnFrom⟩)
  | certificateFeeWithdrawn withdrawnFrom fee => some (.certificate, ⟨fee, withdrawnFrom⟩)
  | valueFeeWithdrawn withdrawnFrom fee => some (.value, ⟨fee, withdrawnFrom⟩)
  | collectionItemFeeWithdrawn withdrawnFrom fee _ _ => some (.collectionItem, ⟨fee, withdrawnFrom⟩)
  | tokensRecordFeeWithdrawn withdrawnFrom fee _ _ => some (.tokensRecord, ⟨fee, withdrawnFrom⟩)
  | _ => none

/-- The part of a fee that the account pays. -/
def Fee.paidBy (account : String) (fee : Fee) : ℕ :=
  if fee.withdrawnFrom = account then fee.fee else 0

/-- The sum of the amounts withdrawn from an account. -/
def withdrawnFrom (account : String) (events : List JsonEvent) : ℕ :=
  ((events.filterMap JsonEvent.withdrawal).map fun w => w.2.paidBy account).sum

/-- The withdrawals of one kind. -/
def withdrawals (kind : FeeKind) (events : List JsonEvent) : List Fee :=
  ((events.filterMap JsonEvent.withdrawal).filter fun w => w.1 = kind).map Prod.snd

/-! ### Charges -/

/-- All components. -/
def Fees.total (fees : Fees) : ℕ :=
  fees.inclusionFee + fees.storageFee.getD 0 + fees.legalFee.getD 0 + fees.certificateFee.getD 0 +
    fees.valueFee.getD 0 + fees.collectionItemFee.getD 0 + fees.tokensRecordFee.getD 0

/-- What a transaction charges to an account. -/
def Transaction.charges (account : String) (t : Transaction) : ℕ :=
  if t.fromAddress = account ∧ t.hiddenFrom ≠ some .sender then
    t.fees.total + if t.type = .legalFee ∨ t.type = .valueFee then t.transferValue else 0
  else 0

def chargedTo (account : String) (ts : List Transaction) : ℕ := (ts.map (·.charges account)).sum

/-- What is charged to an account for the extrinsic `i`: nothing if no transaction is extracted from the
block. -/
def chargedFor [Vault] (api : ChainApi) (block : SignedBlockExtended) (i : ℕ) (account : String) : ℕ :=
  match blockTransactions api block with
  | .ok (some _) => chargedTo account (transactionsOf api block i)
  | _ => 0

/-- The fee that the node computes for an extrinsic. -/
def partialFeeOf (api : ChainApi) (block : SignedBlockExtended) (extrinsic : Extrinsic) : ℕ :=
  if block.isGenesisBlock then 0 else api.queryInfo extrinsic

/-- The charges for the extrinsic `i`, with the given signer, are what was withdrawn and the inclusion
fee. -/
def FeesConserved [Vault] (api : ChainApi) (block : SignedBlockExtended) (i : ℕ)
    (extrinsic : Extrinsic) (signer : String) : Prop :=
  ∀ account, chargedFor api block i account = withdrawnFrom account (eventsOf block.events i) +
    if account = signer then partialFeeOf api block extrinsic else 0

/-! ### The condition -/

/-- The account whose balance is transferred by a recovery. -/
def Call.recoveredAccount : Call → Option String
  | .asRecovered (some (.id account)) call => if call.isBalances then some account else none
  | _ => none

/-- No fee of an extrinsic that gives transactions is lost or displaced: of each kind the last
withdrawal alone has an amount, the last fee of a collection item is the signer's, and if the
`extrinsic` transaction comes from another account than the signer it has no fee. -/
structure FeesFollowed (call : Call) (signer : String) (inclusion : ℕ) (events : List JsonEvent) :
    Prop where
  lastOnly : ∀ kind, ∀ fee ∈ (withdrawals kind events).dropLast, fee.fee = 0
  collectionItem : ∀ fee, (withdrawals .collectionItem events).getLast? = some fee →
    fee.withdrawnFrom = signer ∨ fee.fee = 0
  payer : call.recoveredAccount.getD signer = signer ∨ inclusion = 0 ∧
    ∀ kind ≠ .tokensRecord, ∀ fee, (withdrawals kind events).getLast? = some fee →
      fee.withdrawnFrom = signer → fee.fee = 0

/-- The extrinsic costs nothing. -/
structure Gratis (inclusion : ℕ) (events : List JsonEvent) : Prop where
  inclusion : inclusion = 0
  withdrawals : ∀ kind, ∀ fee ∈ withdrawals kind events, fee.fee = 0

/-- The extrinsic `i` of the block gives transactions. -/
structure GivesTransactions (api : ChainApi) (block : SignedBlockExtended) (i : ℕ)
    (extrinsic : Extrinsic) : Prop where
  extracted : Extracted api block
  built : block.Built i
  gives : extrinsic.Gives

/-- An extrinsic that gives transactions loses no fee, and one that gives none costs nothing. -/
structure FeesAccounted (api : ChainApi) (block : SignedBlockExtended) (i : ℕ)
    (extrinsic : Extrinsic) (signer : String) : Prop where
  followed : GivesTransactions api block i extrinsic → FeesFollowed extrinsic.method signer
    (partialFeeOf api block extrinsic) (eventsOf block.events i)
  gratis : ¬ GivesTransactions api block i extrinsic →
    Gratis (partialFeeOf api block extrinsic) (eventsOf block.events i)

/-! ### Sums of withdrawals -/

variable {account signer : String} {events : List JsonEvent} {event : JsonEvent} {kind : FeeKind}

theorem withdrawals_append (kind : FeeKind) (xs ys : List JsonEvent) :
    withdrawals kind (xs ++ ys) = withdrawals kind xs ++ withdrawals kind ys := by
  simp [withdrawals]

/-- The part of some fees that the account pays. -/
def paidBy (account : String) (fees : List Fee) : ℕ := (fees.map (Fee.paidBy account)).sum

theorem paidBy_append (xs ys : List Fee) :
    paidBy account (xs ++ ys) = paidBy account xs + paidBy account ys := by
  simp [paidBy]

theorem paidBy_eq_zero {fees : List Fee} :
    (∀ account, paidBy account fees = 0) ↔ ∀ fee ∈ fees, fee.fee = 0 := by
  unfold paidBy
  simp only [List.sum_eq_zero_iff_forall_eq_nat, List.forall_mem_map]
  constructor
  · intro h fee hfee
    simpa [Fee.paidBy] using h fee.withdrawnFrom fee hfee
  · intro h account fee hfee
    rw [Fee.paidBy, h fee hfee, ite_self]

/-- The withdrawals, kind by kind. -/
theorem withdrawnFrom_eq (account : String) (events : List JsonEvent) :
    withdrawnFrom account events =
      (FeeKind.all.map fun kind => paidBy account (withdrawals kind events)).sum := by
  unfold withdrawnFrom withdrawals paidBy
  induction events.filterMap JsonEvent.withdrawal with
  | nil => rfl
  | cons w ws ih =>
    obtain ⟨kind, fee⟩ := w
    rw [List.map_cons, List.sum_cons, ih]
    cases kind <;> simp [FeeKind.all] <;> omega

/-- The last withdrawal of a kind, and those before it. -/
theorem paidBy_withdrawals (account : String) (kind : FeeKind) (events : List JsonEvent) :
    paidBy account (withdrawals kind events) = paidBy account (withdrawals kind events).dropLast +
      ((withdrawals kind events).getLast?.map (Fee.paidBy account)).getD 0 := by
  rcases List.eq_nil_or_concat (withdrawals kind events) with h | ⟨fees, fee, h⟩
  · rw [h]
    rfl
  · rw [h, List.concat_eq_append, paidBy_append, List.dropLast_concat, List.getLast?_concat]
    simp [paidBy]

/-! ### The fees that the builder keeps -/

def JsonExtrinsic.feeOf (e : JsonExtrinsic) : FeeKind → Option Fee
  | .storage => e.storageFee
  | .legal => e.legalFee.map (·.toFee)
  | .certificate => e.certificateFee
  | .value => e.valueFee
  | .collectionItem => e.collectionItemFee.map (·.toFee)
  | .tokensRecord => e.tokensRecordFee.map (·.toFee)

theorem feeOf_addEvent (b : ExtrinsicBuilder) (event : JsonEvent) (kind : FeeKind) :
    (b.addEvent event).build.feeOf kind =
      ((withdrawals kind [event]).getLast?).or (b.build.feeOf kind) := by
  cases event <;> cases kind <;> rfl

/-- The builder keeps the last withdrawal of each kind. -/
theorem feeOf_foldl (b : ExtrinsicBuilder) (events : List JsonEvent) (kind : FeeKind) :
    (events.foldl ExtrinsicBuilder.addEvent b).build.feeOf kind =
      ((withdrawals kind events).getLast?).or (b.build.feeOf kind) := by
  induction events generalizing b with
  | nil => rfl
  | cons event events ih =>
    have hsplit : withdrawals kind (event :: events) =
        withdrawals kind [event] ++ withdrawals kind events := withdrawals_append kind [event] events
    rw [List.foldl_cons, ih, feeOf_addEvent, hsplit, List.getLast?_append, Option.or_assoc]

/-- **The fees of a built extrinsic.** -/
theorem feeOf_built {api : ChainApi} {block : SignedBlockExtended} {tx : TxWithEvent} {i : ℕ}
    {e : JsonExtrinsic} (htx : block.extrinsics[i]? = some tx)
    (he : (builtExtrinsics api block)[i]? = some (some e)) :
    (∀ kind, e.feeOf kind = (withdrawals kind (eventsOf block.events i)).getLast?) ∧
      e.partialFee.getD 0 = partialFeeOf api block tx.extrinsic := by
  rw [builtExtrinsics, List.getElem?_map, buildersAfter, List.getElem?_mapIdx, htx] at he
  obtain ⟨b, hb, rfl⟩ := Option.map_eq_some_iff.mp (Option.some.inj he)
  replace hb : builderAfter api block tx (eventsOf block.events i) = some b := hb
  obtain ⟨hevents, hsudo, -⟩ := builderAfter_ok hb
  rw [builderAfter, if_neg hevents, createBuilder, if_neg (by simp [hsudo])] at hb
  obtain ⟨b₀, hb₀, rfl⟩ := Option.map_eq_some_iff.mp hb
  obtain rfl := Option.some.inj hb₀
  refine ⟨fun kind => ?_, ?_⟩
  · rw [feeOf_foldl]
    cases kind <;> exact Option.or_none
  · rw [ExtrinsicBuilder.build, (foldl_addEvent _ _).2.2.2.1, partialFeeOf]
    dsimp only
    generalize (if block.isGenesisBlock then 0 else api.queryInfo tx.extrinsic) = fee
    by_cases hzero : fee = 0 <;> simp [hzero]

/-! ### The charges of the transactions -/

variable {e : JsonExtrinsic} {index : ℕ}

/-- What the signer pays of a fee that the builder kept. -/
def paidBySigner (signer : String) (fee : Option Fee) : ℕ := (fee.map (Fee.paidBy signer)).getD 0

/-- What another account than the signer pays of it. -/
def paidByAnother (signer account : String) (fee : Option Fee) : ℕ :=
  if account = signer then 0 else (fee.map (Fee.paidBy account)).getD 0

theorem chargedTo_append (xs ys : List Transaction) :
    chargedTo account (xs ++ ys) = chargedTo account xs + chargedTo account ys := by
  simp [chargedTo]

theorem chargedTo_cons (t : Transaction) (ts : List Transaction) :
    chargedTo account (t :: ts) = t.charges account + chargedTo account ts := by
  simp [chargedTo]

@[simp] theorem chargedTo_nil : chargedTo account [] = 0 := rfl

theorem chargedTo_eq_zero {ts : List Transaction} (h : ∀ t ∈ ts, t.charges account = 0) :
    chargedTo account ts = 0 := by
  unfold chargedTo
  rw [List.sum_eq_zero_iff_forall_eq_nat, List.forall_mem_map]
  exact h

/-- A transaction that charges the fee to the account that pays it. -/
theorem chargedTo_paidByOther {fee : Option Fee} {toTransaction : Fee → Transaction}
    (h : ∀ f, (toTransaction f).charges account = f.paidBy account) :
    chargedTo account (paidByOther signer fee toTransaction) = paidByAnother signer account fee := by
  cases fee with
  | none => simp [paidByOther, paidByAnother]
  | some fee =>
    by_cases hsigner : fee.withdrawnFrom = signer
    · by_cases haccount : account = signer
      · simp [paidByOther, paidByAnother, hsigner, haccount]
      · simp [paidByOther, paidByAnother, hsigner, Fee.paidBy, Ne.symm haccount]
    · rw [paidByOther, if_pos hsigner, chargedTo_cons, h, chargedTo_nil, Nat.add_zero, paidByAnother]
      by_cases haccount : account = signer
      · rw [if_pos haccount, Fee.paidBy, if_neg (haccount ▸ hsigner)]
      · rw [if_neg haccount]
        rfl

/-- A transaction hidden from its sender charges nothing. -/
theorem charges_hidden {t : Transaction} (h : t.hiddenFrom = some .sender) : t.charges account = 0 := by
  rw [Transaction.charges, if_neg (by simp [h])]

/-- The transactions after the `extrinsic` one. -/
theorem chargedTo_feeTransactions (map : ReservedMap) :
    chargedTo account (feeTransactions e signer index map) =
      paidByAnother signer account (e.feeOf .storage) +
        paidByAnother signer account (e.feeOf .certificate) +
        paidByAnother signer account (e.feeOf .legal) +
        paidByAnother signer account (e.feeOf .value) +
        ((e.feeOf .tokensRecord).map (Fee.paidBy account)).getD 0 := by
  unfold feeTransactions
  simp only [chargedTo_append]
  rw [chargedTo_paidByOther, chargedTo_paidByOther, chargedTo_paidByOther, chargedTo_paidByOther]
  · -- What is left of the reserved balances carries no fee.
    have hreserve : ∀ m : ReservedMap, chargedTo account (m.map fun entry => {
        extrinsicIndex := index, fromAddress := entry.1, pallet := e.call.pallet
        method := e.call.method, type := .reserve, reserved := entry.2 }) = 0 := by
      refine fun m => chargedTo_eq_zero fun t ht => ?_
      obtain ⟨entry, -, rfl⟩ := List.mem_map.mp ht
      simp [Transaction.charges, Fees.total, Fees.zero]
    rw [hreserve, Nat.add_zero, Nat.add_assoc]
    congr 1
    refine (congrArg₂ (· + ·) (chargedTo_eq_zero fun t ht => ?_) ?_).trans (Nat.zero_add _)
    · -- The fee of a collection item is only shown to its beneficiary.
      split at ht
      · split_ifs at ht
        · rw [List.mem_singleton.mp ht]
          exact charges_hidden rfl
        · cases ht
      · cases ht
    · cases htokens : e.tokensRecordFee with
      | none => simp [JsonExtrinsic.feeOf, htokens]
      | some fee =>
        simp [JsonExtrinsic.feeOf, htokens, chargedTo_cons, Transaction.charges, Fees.total,
          Fee.paidBy]
  all_goals
    intro f
    simp [Transaction.charges, Fees.total, Fees.zero, Fee.paidBy]

/-- All that the signer pays: the inclusion fee, and its own fees except that of a tokens record. -/
def signersFees (e : JsonExtrinsic) (signer : String) : ℕ :=
  e.partialFee.getD 0 + paidBySigner signer (e.feeOf .storage) +
    paidBySigner signer (e.feeOf .legal) + paidBySigner signer (e.feeOf .certificate) +
    paidBySigner signer (e.feeOf .value) + paidBySigner signer (e.feeOf .collectionItem)

theorem feesPaidBySigner_eq (hsigner : e.signer = some signer) (fee : Option Fee) :
    (feesPaidBySigner e fee).getD 0 = paidBySigner signer fee := by
  cases fee with
  | none => rfl
  | some fee =>
    rw [feesPaidBySigner, hsigner]
    by_cases h : fee.withdrawnFrom = signer <;> simp [paidBySigner, Fee.paidBy, h]

theorem transactionFees_total (hsigner : e.signer = some signer) :
    (transactionFees e).total = signersFees e signer := by
  simp only [Fees.total, transactionFees, feesPaidBySigner_eq hsigner, signersFees,
    JsonExtrinsic.feeOf]
  rfl

/-- The `extrinsic` transaction comes from the recovered account, if there is one. -/
theorem transferParties_from {parties : TransferParties}
    (h : transferParties e signer = .ok parties) :
    parties.fromAddress = e.call.recoveredAccount.getD signer := by
  unfold transferParties determineType at h
  cases hcall : e.call with
  | balances method dest =>
    rw [hcall] at h
    obtain ⟨toAddress, -, h⟩ := bind_eq_ok.mp h
    cases h
    rfl
  | asRecovered account call =>
    rw [hcall] at h
    by_cases hbalances : call.isBalances = true
    · simp only [hbalances, if_true] at h
      obtain ⟨address, haddress, h⟩ := bind_eq_ok.mp h
      obtain ⟨toAddress, -, h⟩ := bind_eq_ok.mp h
      cases h
      rcases account with _ | account | _
      · cases haddress
        rfl
      · cases haddress
        simp [Call.recoveredAccount, hbalances]
      · cases haddress
    · simp only [hbalances] at h
      cases h
      rcases account with _ | account | _ <;> simp [Call.recoveredAccount, hbalances]
  | approveCall otherSignatories call =>
    rw [hcall] at h
    by_cases hbalances : call.isBalances = true
    · simp only [hbalances, if_true] at h
      cases h
      rfl
    · simp only [hbalances] at h
      cases h
      rfl
  | _ =>
    rw [hcall] at h
    cases h
    rfl

section

variable [Vault]

/-- The vault's own transaction charges nothing. -/
theorem chargedTo_vaultTransactions {otherSignatories : List String} {call : Call}
    {ts : List Transaction} (h : vaultTransactions e signer index otherSignatories call = .ok ts) :
    chargedTo account ts = 0 := by
  obtain ⟨error, -, h⟩ := bind_eq_ok.mp h
  split_ifs at h
  · obtain ⟨toAddress, -, h⟩ := bind_eq_ok.mp h
    cases h
    simp [chargedTo_cons, Transaction.charges, Fees.total, Fees.zero]
  · cases h
    rfl

/-- **What the transactions of an extrinsic charge.** -/
theorem chargedTo_extractTransactions {ts : List Transaction} (hsigner : e.signer = some signer)
    (h : extractTransactions e signer index = .ok ts) : chargedTo account ts =
      (if account = e.call.recoveredAccount.getD signer then signersFees e signer else 0) +
        (paidByAnother signer account (e.feeOf .storage) +
          paidByAnother signer account (e.feeOf .certificate) +
          paidByAnother signer account (e.feeOf .legal) +
          paidByAnother signer account (e.feeOf .value) +
          ((e.feeOf .tokensRecord).map (Fee.paidBy account)).getD 0) := by
  obtain ⟨parties, hparties, h⟩ := bind_eq_ok.mp h
  obtain ⟨vault, hvault, h⟩ := bind_eq_ok.mp h
  obtain ⟨error, -, h⟩ := bind_eq_ok.mp h
  cases h
  have hzero : chargedTo account vault = 0 := by
    split at hvault
    · exact chargedTo_vaultTransactions hvault
    · cases hvault
      rfl
  rw [chargedTo_append, hzero, Nat.zero_add, chargedTo_cons, chargedTo_feeTransactions,
    ← transferParties_from hparties]
  congr 1
  simp only [Transaction.charges, transactionFees_total hsigner, eq_comm (a := account)]
  simp

/-! ### Conservation -/

variable (account) in
/-- What the charges miss: the fee of a collection item that another account than the signer pays. -/
theorem charges_balance (hsigner : e.signer = some signer) {ts : List Transaction}
    (h : extractTransactions e signer index = .ok ts) :
    chargedTo account ts + paidByAnother signer account (e.feeOf .collectionItem) +
        (if account = signer then signersFees e signer else 0) =
      (FeeKind.all.map fun kind => ((e.feeOf kind).map (Fee.paidBy account)).getD 0).sum +
        (if account = e.call.recoveredAccount.getD signer then signersFees e signer else 0) +
        if account = signer then e.partialFee.getD 0 else 0 := by
  rw [chargedTo_extractTransactions hsigner h]
  simp only [FeeKind.all, List.map_cons, List.map_nil, List.sum_cons, List.sum_nil]
  by_cases haccount : account = signer
  · subst haccount
    simp only [paidByAnother, signersFees, paidBySigner, if_true]
    omega
  · simp only [paidByAnother, haccount, if_false]
    omega

section

omit [Vault]

theorem FeeKind.mem_all (kind : FeeKind) : kind ∈ FeeKind.all := by
  cases kind <;> decide

/-- The withdrawals before the last one of their kind have no amount. -/
theorem lastOnly_iff : (∀ account, (FeeKind.all.map fun kind =>
      paidBy account (withdrawals kind events).dropLast).sum = 0) ↔
    ∀ kind, ∀ fee ∈ (withdrawals kind events).dropLast, fee.fee = 0 := by
  simp only [List.sum_eq_zero_iff_forall_eq_nat, List.forall_mem_map]
  constructor
  · exact fun h kind => paidBy_eq_zero.mp fun account => h account kind (FeeKind.mem_all kind)
  · exact fun h account kind _ => paidBy_eq_zero.mpr (h kind) account

theorem paidBySigner_eq_zero {fee : Option Fee} : paidBySigner signer fee = 0 ↔
    ∀ f, fee = some f → f.withdrawnFrom = signer → f.fee = 0 := by
  cases fee with
  | none => simp [paidBySigner]
  | some fee => simp [paidBySigner, Fee.paidBy]

theorem paidByAnother_eq_zero {fee : Option Fee} : (∀ account, paidByAnother signer account fee = 0) ↔
    ∀ f, fee = some f → f.withdrawnFrom = signer ∨ f.fee = 0 := by
  cases fee with
  | none => simp [paidByAnother]
  | some fee =>
    constructor
    · rintro h f hf
      obtain rfl := Option.some.inj hf
      refine or_iff_not_imp_left.mpr fun hne => ?_
      simpa [paidByAnother, hne, Fee.paidBy] using h fee.withdrawnFrom
    · intro h account
      unfold paidByAnother
      split_ifs with haccount
      · rfl
      · rw [Option.map_some, Option.getD_some, Fee.paidBy]
        split_ifs with hpays
        · exact (h fee rfl).resolve_left fun hs => haccount (hpays.symm.trans hs)
        · rfl

theorem signersFees_eq_zero : signersFees e signer = 0 ↔ e.partialFee.getD 0 = 0 ∧
    ∀ kind ≠ .tokensRecord, ∀ fee, e.feeOf kind = some fee → fee.withdrawnFrom = signer →
      fee.fee = 0 := by
  have hsum : signersFees e signer = 0 ↔ e.partialFee.getD 0 = 0 ∧
      ∀ kind ≠ .tokensRecord, paidBySigner signer (e.feeOf kind) = 0 := by
    unfold signersFees
    constructor
    · intro h
      refine ⟨by omega, fun kind hkind => ?_⟩
      cases kind <;> first | omega | exact absurd rfl hkind
    · rintro ⟨h0, h⟩
      rw [h0, h _ (by decide), h _ (by decide), h _ (by decide), h _ (by decide), h _ (by decide)]
  rw [hsum]
  refine and_congr_right fun _ => forall₂_congr fun kind _ => paidBySigner_eq_zero

variable (account) in
/-- The withdrawals are the earlier ones and the fees that the builder kept. -/
theorem withdrawnFrom_eq_add (hfees : ∀ kind, e.feeOf kind = (withdrawals kind events).getLast?) :
    withdrawnFrom account events =
      (FeeKind.all.map fun kind => paidBy account (withdrawals kind events).dropLast).sum +
        (FeeKind.all.map fun kind => ((e.feeOf kind).map (Fee.paidBy account)).getD 0).sum := by
  rw [withdrawnFrom_eq]
  simp only [FeeKind.all, List.map_cons, List.map_nil, List.sum_cons, List.sum_nil, hfees]
  simp only [paidBy_withdrawals account _ events]
  omega

end

/-- The charges of an extrinsic that gives transactions. -/
theorem conserved_iff_followed (hsigner : e.signer = some signer) {ts : List Transaction}
    (h : extractTransactions e signer index = .ok ts)
    (hfees : ∀ kind, e.feeOf kind = (withdrawals kind events).getLast?) :
    (∀ account, chargedTo account ts = withdrawnFrom account events +
      if account = signer then e.partialFee.getD 0 else 0) ↔
      FeesFollowed e.call signer (e.partialFee.getD 0) events := by
  set payer := e.call.recoveredAccount.getD signer with hpayer
  set earlier : String → ℕ := fun account => (FeeKind.all.map fun kind =>
    paidBy account (withdrawals kind events).dropLast).sum with hearlier
  set item : String → ℕ := fun account =>
    paidByAnother signer account (e.feeOf .collectionItem) with hitem
  have hbalance : ∀ account, (chargedTo account ts = withdrawnFrom account events +
      if account = signer then e.partialFee.getD 0 else 0) ↔
      earlier account + item account + (if account = signer then signersFees e signer else 0) =
        if account = payer then signersFees e signer else 0 := by
    intro account
    have hcharges := charges_balance account hsigner h
    have hwithdrawn := withdrawnFrom_eq_add account hfees
    rw [← hpayer] at hcharges
    simp only [hearlier, hitem]
    omega
  have hfollowed : FeesFollowed e.call signer (e.partialFee.getD 0) events ↔
      (∀ account, earlier account = 0) ∧ (∀ account, item account = 0) ∧
        (payer = signer ∨ signersFees e signer = 0) := by
    rw [lastOnly_iff, paidByAnother_eq_zero, signersFees_eq_zero, hfees .collectionItem]
    simp only [hfees]
    exact ⟨fun h => ⟨h.lastOnly, h.collectionItem, h.payer⟩, fun ⟨h1, h2, h3⟩ => ⟨h1, h2, h3⟩⟩
  rw [hfollowed, forall_congr' hbalance]
  constructor
  · intro hall
    -- At the signer the two sides say whether its fees are on its own account.
    have hpays : payer = signer ∨ signersFees e signer = 0 := by
      refine or_iff_not_imp_left.mpr fun hne => ?_
      have hsigner := hall signer
      rw [if_pos rfl, if_neg (Ne.symm hne)] at hsigner
      omega
    have hzero : ∀ account, earlier account + item account = 0 := by
      intro account
      have haccount := hall account
      rcases hpays with hsame | hnone
      · rw [hsame] at haccount
        omega
      · simp only [hnone, ite_self] at haccount
        exact haccount
    exact ⟨fun account => by have := hzero account; omega,
      fun account => by have := hzero account; omega, hpays⟩
  · rintro ⟨hlast, hcollection, hpays⟩ account
    rw [hlast, hcollection]
    rcases hpays with hsame | hnone
    · rw [hsame]
      omega
    · simp [hnone]

omit [Vault] in
/-- An extrinsic for which nothing is charged. -/
theorem conserved_iff_gratis {inclusion : ℕ} :
    (∀ account, 0 = withdrawnFrom account events + if account = signer then inclusion else 0) ↔
      Gratis inclusion events := by
  have hkinds : (∀ account, withdrawnFrom account events = 0) ↔
      ∀ kind, ∀ fee ∈ withdrawals kind events, fee.fee = 0 := by
    simp only [withdrawnFrom_eq, List.sum_eq_zero_iff_forall_eq_nat, List.forall_mem_map]
    exact ⟨fun h kind => paidBy_eq_zero.mp fun account => h account kind kind.mem_all,
      fun h account kind _ => paidBy_eq_zero.mpr (h kind) account⟩
  constructor
  · intro h
    have hsigner := h signer
    rw [if_pos rfl] at hsigner
    exact ⟨by omega, hkinds.mp fun account => by have := h account; omega⟩
  · rintro ⟨rfl, h⟩ account
    rw [hkinds.mpr h account, ite_self]

section

variable {api : ChainApi} {block : SignedBlockExtended} {i : ℕ} {tx : TxWithEvent}

theorem chargedFor_of_gives (hin : block.InRange) (htx : block.extrinsics[i]? = some tx)
    (hsigner : tx.extrinsic.signer = some signer)
    (hgives : GivesTransactions api block i tx.extrinsic) :
    ∃ e index ts, (builtExtrinsics api block)[i]? = some (some e) ∧
      extractTransactions e signer index = .ok ts ∧
      ∀ account, chargedFor api block i account = chargedTo account ts := by
  obtain ⟨result, hresult⟩ := (extracted_iff hin).mpr hgives.extracted
  obtain ⟨e, he⟩ := (built_iff api).mp hgives.built
  obtain ⟨ts, hts⟩ := (extractFrom_built_returns (rank (builtExtrinsics api block) i)
    he htx).mpr (hgives.extracted.extractable i tx htx hgives.built)
  have hextract := hts
  rcases extractFrom_built (rank (builtExtrinsics api block) i) he htx with
    ⟨-, s, hs, heq⟩ | ⟨hnot, -⟩
  · obtain rfl : s = signer := Option.some.inj (hs.symm.trans hsigner)
    rw [heq] at hextract
    refine ⟨e, _, ts, he, hextract, fun account => ?_⟩
    rw [chargedFor, hresult, transactionsOf_built he, hts]
    rfl
  · exact absurd hgives.gives hnot

theorem chargedFor_of_not_gives (hin : block.InRange) (htx : block.extrinsics[i]? = some tx)
    (hnot : ¬ GivesTransactions api block i tx.extrinsic) (account : String) :
    chargedFor api block i account = 0 := by
  unfold chargedFor
  split
  · rename_i result hresult
    have hextracted := (extracted_iff hin).mp ⟨result, hresult⟩
    by_cases hbuilt : block.Built i
    · obtain ⟨e, he⟩ := (built_iff api).mp hbuilt
      rcases extractFrom_built (rank (builtExtrinsics api block) i) he htx with
        ⟨hgives, -⟩ | ⟨-, heq⟩
      · exact absurd ⟨hextracted, hbuilt, hgives⟩ hnot
      · rw [transactionsOf_built he, heq]
        rfl
    · rw [transactionsOf_not_built hbuilt]
      rfl
  · rfl

/-- **The fees of an extrinsic are conserved,** when it gives transactions, exactly if none is lost or
displaced, and when it gives none, exactly if it costs nothing. -/
theorem feesConserved_iff (hin : block.InRange) (htx : block.extrinsics[i]? = some tx)
    (hsigner : tx.extrinsic.signer = some signer) :
    FeesConserved api block i tx.extrinsic signer ↔
      FeesAccounted api block i tx.extrinsic signer := by
  unfold FeesConserved
  by_cases hgives : GivesTransactions api block i tx.extrinsic
  · obtain ⟨e, index, ts, he, hts, hcharged⟩ := chargedFor_of_gives hin htx hsigner hgives
    obtain ⟨hcall, hsigner', -⟩ := (built_ok he).2 tx htx
    obtain ⟨hfees, hinclusion⟩ := feeOf_built htx he
    have hiff := conserved_iff_followed (hsigner'.trans hsigner) hts hfees
    simp only [hcharged]
    rw [hinclusion, hcall] at hiff
    exact hiff.trans ⟨fun h => ⟨fun _ => h, fun hnot => absurd hgives hnot⟩, fun h => h.followed hgives⟩
  · simp only [chargedFor_of_not_gives hin htx hgives]
    exact conserved_iff_gratis.trans
      ⟨fun h => ⟨fun h' => absurd h' hgives, fun _ => h⟩, fun h => h.gratis hgives⟩

end

end

/-! ### Fees of a closing -/

/-- A block with the closing of a LOC, signed by `alice`, and the events of the closing. -/
def closingBlock (events : List JsonEvent) : SignedBlockExtended where
  number := 1
  extrinsics := [{ extrinsic := setTimestamp }, { extrinsic := closeExtrinsic }]
  events := ⟨.applyExtrinsic 0, .other "system" "ExtrinsicSuccess"⟩ ::
    ⟨.applyExtrinsic 1, .other "system" "ExtrinsicSuccess"⟩ ::
    events.map fun event => ⟨.applyExtrinsic 1, event⟩

theorem closingBlock_inRange (events : List JsonEvent) : (closingBlock events).InRange := by
  intro record hrecord i hi
  have hlength : (closingBlock events).extrinsics.length = 2 := rfl
  have hle : i ≤ 1 := by
    rcases List.mem_cons.mp hrecord with rfl | hrecord
    · cases hi
      exact Nat.zero_le 1
    · rcases List.mem_cons.mp hrecord with rfl | hrecord
      · cases hi
        exact le_refl 1
      · obtain ⟨event, -, rfl⟩ := List.mem_map.mp hrecord
        cases hi
        exact le_refl 1
  omega

/-- One storage fee of the signer, and one certificate fee of another account. -/
theorem feesConserved_iff_closing : @FeesConserved noVault plainApi
    (closingBlock [.storageFeeWithdrawn "alice" 5, .certificateFeeWithdrawn "bob" 7]) 1
    closeExtrinsic "alice" := by
  refine (@feesConserved_iff "alice" noVault plainApi _ 1 _ (closingBlock_inRange _) rfl rfl).mpr
    ⟨fun _ => ⟨?_, ?_, .inl rfl⟩, fun hnot => absurd ⟨?_, ?_, ?_⟩ hnot⟩
  · intro kind fee hfee
    cases kind <;> cases hfee
  · intro fee hfee
    cases hfee
  · refine (@extracted_iff plainApi _ noVault (closingBlock_inRange _)).mp ⟨_, rfl⟩
  · exact ⟨_, rfl, rfl, List.cons_ne_nil _ _⟩
  · exact ⟨rfl, fun now hnow => by cases hnow⟩

/-- Two storage fees of the signer, of which the last one alone is charged; a collection item fee of
another account, which is not charged. -/
theorem fees_notConserved :
    (@chargedFor noVault plainApi
        (closingBlock [.storageFeeWithdrawn "alice" 5, .storageFeeWithdrawn "alice" 7]) 1 "alice" = 8 ∧
      ¬ @FeesConserved noVault plainApi
        (closingBlock [.storageFeeWithdrawn "alice" 5, .storageFeeWithdrawn "alice" 7]) 1
        closeExtrinsic "alice") ∧
    (@chargedFor noVault plainApi
        (closingBlock [.collectionItemFeeWithdrawn "bob" 5 (some "alice") 3]) 1 "bob" = 0 ∧
      ¬ @FeesConserved noVault plainApi
        (closingBlock [.collectionItemFeeWithdrawn "bob" 5 (some "alice") 3]) 1
        closeExtrinsic "alice") := by
  refine ⟨⟨rfl, fun h => ?_⟩, rfl, fun h => ?_⟩
  · exact absurd (h "alice") (by decide)
  · exact absurd (h "bob") (by decide)

end Logion
