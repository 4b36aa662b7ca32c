import Logion.Chain.TransactionExtractor
import Logion.Lib.Compaction

/-!
# ExtrinsicIndices — which extrinsic an extracted transaction comes from

The builder leaves out the extrinsics without an event and the `sudo` ones, and the extractor numbers
those that are left.  `transactionsOf` are the transactions that the extractor gives for one extrinsic
of the block, whatever index they carry.

* `blockTransactions_transactions`: the transactions of a block, extrinsic by extrinsic.
* `extracted_iff`: when a block has transactions.
* `indicesFaithful_iff`: the index is the position in the block exactly when nothing is left out before
  an extrinsic that gives transactions.
-/

namespace Logion

open Compaction Fallible

/-- From a derived block to its transactions: the builder, then the extractor. -/
def blockTransactions [Vault] (api : ChainApi) (block : SignedBlockExtended) :
    Except Err (Option BlockWithTransactions) := do
  let extrinsics ← getBlockExtrinsics api block
  extractBlockWithTransactions extrinsics

/-- What the builder makes of each extrinsic of the block. -/
def builtExtrinsics (api : ChainApi) (block : SignedBlockExtended) : List (Option JsonExtrinsic) :=
  (buildersAfter api block block.events).map (Option.map ExtrinsicBuilder.build)

/-- The transactions extracted from the call, the signer and the events of the extrinsic `i` of the
block. -/
def transactionsOf [Vault] (api : ChainApi) (block : SignedBlockExtended) (i : ℕ) :
    List Transaction :=
  part extractFrom (builtExtrinsics api block) i

/-- The builder makes something of the extrinsic `i`. -/
def SignedBlockExtended.Built (block : SignedBlockExtended) (i : ℕ) : Prop :=
  ∃ tx, block.extrinsics[i]? = some tx ∧ tx.extrinsic.method.isSudo = false ∧
    eventsOf block.events i ≠ []

/-- The extractor looks for transactions in this extrinsic. -/
structure Extrinsic.Gives (e : Extrinsic) : Prop where
  signed : e.signer.isSome
  notTimestamp : ∀ now, e.method ≠ .timestamp now

/-- The destination of the transfer that is approved, if the call approves one. -/
def Call.vaultDestUnderstood : Call → Bool
  | .approveCall _ call => !call.isBalances || call.dest ≠ some .other
  | _ => true

/-- The extractor does not throw on this extrinsic. -/
structure Extractable (api : ChainApi) (tx : TxWithEvent) : Prop where
  understood : tx.extrinsic.method.addressesUnderstood = true
  errorKnown : Returns (errorOf api tx)
  vaultDest : errorOf api tx = .ok none → tx.extrinsic.method.vaultDestUnderstood = true

/-- The block has transactions: the extractor does not give up on it, nor throws. -/
structure Extracted (api : ChainApi) (block : SignedBlockExtended) : Prop where
  twoBuilt : ∃ i j, i < j ∧ block.Built i ∧ block.Built j
  gives : ∃ i tx, block.extrinsics[i]? = some tx ∧ block.Built i ∧ tx.extrinsic.Gives
  extractable : ∀ i tx, block.extrinsics[i]? = some tx → block.Built i → tx.extrinsic.Gives →
    Extractable api tx

/-! ### The built extrinsics -/

variable {api : ChainApi} {block : SignedBlockExtended} {tx : TxWithEvent} {e : JsonExtrinsic}
  {signer : String} {i index : ℕ}

theorem extrinsicsOf_eq (api : ChainApi) (block : SignedBlockExtended) :
    extrinsicsOf api block = (builtExtrinsics api block).filterMap id := by
  unfold extrinsicsOf builtExtrinsics
  rw [List.filterMap_map, ← List.filterMap_eq_map, List.filterMap_filterMap]
  refine List.filterMap_congr fun o _ => ?_
  cases o <;> rfl

variable (api) in
theorem length_builtExtrinsics : (builtExtrinsics api block).length = block.extrinsics.length := by
  simp [builtExtrinsics, buildersAfter]

/-- What is built of an extrinsic has its call, its signer and its error. -/
theorem built_ok (h : (builtExtrinsics api block)[i]? = some (some e)) :
    block.Built i ∧ ∀ tx, block.extrinsics[i]? = some tx →
      e.call = tx.extrinsic.method ∧ e.signer = tx.extrinsic.signer ∧ e.error = errorOf api tx := by
  unfold builtExtrinsics at h
  rw [List.getElem?_map] at h
  obtain ⟨o, ho, h⟩ := Option.map_eq_some_iff.mp h
  obtain ⟨b, rfl, rfl⟩ := Option.map_eq_some_iff.mp h
  obtain ⟨tx, htx⟩ : ∃ tx, block.extrinsics[i]? = some tx := by
    rw [buildersAfter, List.getElem?_mapIdx] at ho
    obtain ⟨tx, htx, -⟩ := Option.map_eq_some_iff.mp ho
    exact ⟨tx, htx⟩
  refine ⟨⟨tx, htx, ?_⟩, fun tx htx => builder_ok htx ho⟩
  rw [buildersAfter, List.getElem?_mapIdx, htx, Option.map_some] at ho
  obtain ⟨hevents, hsudo, -⟩ := builderAfter_ok (Option.some.inj ho)
  exact ⟨hsudo, hevents⟩

theorem built_iff (api : ChainApi) : block.Built i ↔
    ∃ e, (builtExtrinsics api block)[i]? = some (some e) := by
  constructor
  · rintro ⟨tx, htx, hsudo, hevents⟩
    obtain ⟨b, hb⟩ : ∃ b, (buildersAfter api block block.events)[i]? = some (some b) :=
      builder_of htx hsudo hevents
    exact ⟨b.build, by rw [builtExtrinsics, List.getElem?_map, hb]; rfl⟩
  · rintro ⟨e, he⟩
    exact (built_ok he).1

/-! ### When the extraction does not throw -/

section

variable [Vault]

theorem vaultTransactions_returns {otherSignatories : List String} {call : Call} :
    Returns (vaultTransactions e signer index otherSignatories call) ↔
      Returns e.error ∧ (e.error = .ok none → call.dest ≠ some .other) := by
  unfold vaultTransactions transactionError
  cases e.error with
  | error err => simp
  | ok error =>
    cases error with
    | none =>
      refine Iff.trans ?_ (and_iff_right (returns_ok _)).symm
      refine (returns_map (x := getAddress call.dest)).trans (getAddress_returns.trans ?_)
      simp
    | some error => simp

variable (e signer index) in
/-- The vault's transaction is looked for when the approved call is a transfer. -/
theorem vaultStep_returns : Returns (match determineType e, e.call with
    | .transferFromVault, .approveCall otherSignatories call =>
      vaultTransactions e signer index otherSignatories call
    | _, _ => pure [] : Except Err (List Transaction)) ∧ Returns e.error ↔
    Returns e.error ∧ (e.error = .ok none → e.call.vaultDestUnderstood = true) := by
  unfold determineType
  cases hcall : e.call with
  | approveCall otherSignatories call =>
    by_cases hbalances : call.isBalances = true
    · simp only [hbalances, if_true, vaultTransactions_returns]
      rw [and_iff_left_of_imp And.left]
      simp [Call.vaultDestUnderstood, hbalances]
    · simp [Call.vaultDestUnderstood, hbalances]
  | asRecovered account call =>
    by_cases hbalances : call.isBalances = true <;> simp [Call.vaultDestUnderstood, hbalances]
  | _ => simp [Call.vaultDestUnderstood]

theorem extractTransactions_returns_iff : Returns (extractTransactions e signer index) ↔
    e.call.addressesUnderstood = true ∧ Returns e.error ∧
      (e.error = .ok none → e.call.vaultDestUnderstood = true) := by
  have herror : Returns (transactionError e) ↔ Returns e.error := returns_map
  rw [← transferParties_returns signer, ← vaultStep_returns e signer index]
  unfold extractTransactions
  rw [returns_bind]
  constructor
  · rintro ⟨parties, hparties, h⟩
    obtain ⟨vault, hvault, h⟩ := returns_bind.mp h
    obtain ⟨error, he, -⟩ := returns_bind.mp h
    exact ⟨⟨parties, hparties⟩, ⟨vault, hvault⟩, herror.mp ⟨error, he⟩⟩
  · rintro ⟨⟨parties, hparties⟩, ⟨vault, hvault⟩, he⟩
    obtain ⟨error, he⟩ := herror.mpr he
    exact ⟨parties, hparties, returns_bind.mpr ⟨vault, hvault,
      returns_bind.mpr ⟨error, he, returns_ok _⟩⟩⟩

/-- The extractor passes over an extrinsic that it does not look into. -/
theorem extractFrom_of_not_gives (h : ∀ signer, e.signer = some signer → ∃ now, e.call = .timestamp now) :
    extractFrom e index = .ok [] := by
  unfold extractFrom
  by_cases htime : determineType e = .timestamp
  · rw [if_pos htime]
    rfl
  · rw [if_neg htime]
    cases hsigner : e.signer with
    | none => rfl
    | some signer => exact absurd (determineType_eq_timestamp.mpr (h signer hsigner)) htime

theorem extractFrom_of_gives (hsigner : e.signer = some signer)
    (htime : ∀ now, e.call ≠ .timestamp now) :
    extractFrom e index = extractTransactions e signer index := by
  have hne : determineType e ≠ .timestamp := by
    intro h
    obtain ⟨now, hnow⟩ := determineType_eq_timestamp.mp h
    exact htime now hnow
  rw [extractFrom, if_neg hne, hsigner]

variable (index) in
/-- What the extractor does for an extrinsic of the block that is built. -/
theorem extractFrom_built (he : (builtExtrinsics api block)[i]? = some (some e))
    (htx : block.extrinsics[i]? = some tx) :
    (tx.extrinsic.Gives ∧ ∃ signer, tx.extrinsic.signer = some signer ∧
      extractFrom e index = extractTransactions e signer index) ∨
    (¬ tx.extrinsic.Gives ∧ extractFrom e index = .ok []) := by
  obtain ⟨hcall, hsigner, -⟩ := (built_ok he).2 tx htx
  by_cases hgives : tx.extrinsic.Gives
  · obtain ⟨signer, hs⟩ := Option.isSome_iff_exists.mp hgives.signed
    refine .inl ⟨hgives, signer, hs, extractFrom_of_gives (hsigner.trans hs) ?_⟩
    exact fun now hnow => hgives.notTimestamp now (hcall.symm.trans hnow)
  · refine .inr ⟨hgives, extractFrom_of_not_gives fun signer hs => ?_⟩
    by_contra hnot
    push Not at hnot
    refine hgives ⟨?_, fun now hnow => hnot now (hcall.trans hnow)⟩
    rw [← hsigner, hs]
    rfl

variable (index) in
theorem extractFrom_built_returns (he : (builtExtrinsics api block)[i]? = some (some e))
    (htx : block.extrinsics[i]? = some tx) :
    Returns (extractFrom e index) ↔ (tx.extrinsic.Gives → Extractable api tx) := by
  obtain ⟨hcall, -, herror⟩ := (built_ok he).2 tx htx
  rcases extractFrom_built index he htx with ⟨hgives, signer, -, heq⟩ | ⟨hgives, heq⟩
  · rw [heq, extractTransactions_returns_iff, hcall, herror]
    exact ⟨fun ⟨h1, h2, h3⟩ _ => ⟨h1, h2, h3⟩, fun h =>
      ⟨(h hgives).understood, (h hgives).errorKnown, (h hgives).vaultDest⟩⟩
  · rw [heq]
    exact iff_of_true (returns_ok _) fun h => absurd h hgives

/-! ### The transactions of a block -/

/-- The loop of the extractor. -/
theorem blockTransactions_eq (hin : block.InRange) : blockTransactions api block =
    if (extrinsicsOf api block).length ≤ 1 then .ok none
    else do
      let transactions ← ((builtExtrinsics api block).filterMap id).zipIdx.mapM
        fun p => extractFrom p.1 p.2
      if transactions.flatten.isEmpty then return none
      else return some {
        block := ⟨block.number, api.chainType⟩
        timestamp := lastTimestamp (extrinsicsOf api block)
        transactions := transactions.flatten } := by
  have hget : getBlockExtrinsics api block =
      .ok ⟨block.number, api.chainType, extrinsicsOf api block⟩ := by
    rw [getBlockExtrinsics, build_eq hin]
    rfl
  rw [blockTransactions, hget, ok_bind, extractBlockWithTransactions, ← extrinsicsOf_eq]
  rfl

/-- **The transactions of a block,** extrinsic by extrinsic. -/
theorem blockTransactions_transactions (hin : block.InRange) {result : BlockWithTransactions}
    (h : blockTransactions api block = .ok (some result)) :
    result.transactions =
      (List.range block.extrinsics.length).flatMap (transactionsOf api block) := by
  rw [blockTransactions_eq hin] at h
  split_ifs at h with hone
  · cases h
  obtain ⟨parts, hparts, h⟩ := bind_eq_ok.mp h
  split_ifs at h with hempty
  · cases h
  cases h
  rw [← length_builtExtrinsics api]
  exact flatten_mapM_zipIdx hparts

theorem transactionsOf_built {e : JsonExtrinsic}
    (he : (builtExtrinsics api block)[i]? = some (some e)) : transactionsOf api block i =
      (extractFrom e (rank (builtExtrinsics api block) i)).toOption.getD [] :=
  part_of_some he

theorem transactionsOf_not_built (h : ¬ block.Built i) : transactionsOf api block i = [] := by
  unfold transactionsOf part
  split
  · rename_i e he
    exact absurd ((built_iff api).mpr ⟨e, he⟩) h
  · rfl

/-- The index that the transactions of an extrinsic carry. -/
theorem transactionsOf_index {t : Transaction} (ht : t ∈ transactionsOf api block i) :
    t.extrinsicIndex = rank (builtExtrinsics api block) i := by
  by_cases hbuilt : block.Built i
  · obtain ⟨e, he⟩ := (built_iff api).mp hbuilt
    rw [transactionsOf_built he] at ht
    cases hts : extractFrom e (rank (builtExtrinsics api block) i) with
    | error err =>
      rw [hts] at ht
      cases ht
    | ok ts =>
      rw [hts] at ht
      exact extractFrom_index hts t ht
  · rw [transactionsOf_not_built hbuilt] at ht
    cases ht

/-- An extrinsic that the extractor looks into gives a transaction, and another one none. -/
theorem transactionsOf_ne_nil (he : (builtExtrinsics api block)[i]? = some (some e))
    (htx : block.extrinsics[i]? = some tx)
    (hextract : Returns (extractFrom e (rank (builtExtrinsics api block) i))) :
    transactionsOf api block i ≠ [] ↔ tx.extrinsic.Gives := by
  obtain ⟨ts, hts⟩ := hextract
  rw [transactionsOf_built he, hts]
  rcases extractFrom_built _ he htx with ⟨hgives, signer, -, heq⟩ | ⟨hgives, heq⟩
  · rw [heq] at hts
    obtain ⟨error, pre, t, post, -, rfl, -⟩ := extractTransactions_ok hts
    refine iff_of_true ?_ hgives
    simp [Except.toOption]
  · rw [heq] at hts
    cases hts
    exact iff_of_false (fun h => h rfl) hgives

/-- **When a block has transactions.** -/
theorem extracted_iff (hin : block.InRange) :
    (∃ result, blockTransactions api block = .ok (some result)) ↔ Extracted api block := by
  set bs := builtExtrinsics api block with hbs
  have htwo : 1 < (extrinsicsOf api block).length ↔
      ∃ i j, i < j ∧ block.Built i ∧ block.Built j := by
    rw [extrinsicsOf_eq, one_lt_length_iff]
    constructor
    · rintro ⟨i, j, a, b, hij, ha, hb⟩
      exact ⟨i, j, hij, (built_iff api).mpr ⟨a, ha⟩, (built_iff api).mpr ⟨b, hb⟩⟩
    · rintro ⟨i, j, hij, hi, hj⟩
      obtain ⟨a, ha⟩ := (built_iff api).mp hi
      obtain ⟨b, hb⟩ := (built_iff api).mp hj
      exact ⟨i, j, a, b, hij, ha, hb⟩
  have hreturns : Returns ((bs.filterMap id).zipIdx.mapM fun p => extractFrom p.1 p.2) ↔
      ∀ i tx, block.extrinsics[i]? = some tx → block.Built i → tx.extrinsic.Gives →
        Extractable api tx := by
    rw [mapM_zipIdx_returns fun e j k => by
      rw [← outcome_eq_ok, extractFrom_outcome e j k, outcome_eq_ok]]
    constructor
    · intro h i tx htx hbuilt hgives
      obtain ⟨e, he⟩ := (built_iff api).mp hbuilt
      exact (extractFrom_built_returns _ he htx).mp (h i e he) hgives
    · intro h i e he
      obtain ⟨tx, htx, -⟩ := (built_ok he).1
      exact (extractFrom_built_returns _ he htx).mpr (h i tx htx (built_ok he).1)
  have hgives : ∀ parts, (bs.filterMap id).zipIdx.mapM (fun p => extractFrom p.1 p.2) = .ok parts →
      (parts.flatten ≠ [] ↔
        ∃ i tx, block.extrinsics[i]? = some tx ∧ block.Built i ∧ tx.extrinsic.Gives) := by
    intro parts hparts
    have hall := hreturns.mp ⟨parts, hparts⟩
    have hgive : ∀ i e tx, bs[i]? = some (some e) → block.extrinsics[i]? = some tx →
        (transactionsOf api block i ≠ [] ↔ tx.extrinsic.Gives) := fun i e tx he htx =>
      transactionsOf_ne_nil he htx
        ((extractFrom_built_returns _ he htx).mpr (hall i tx htx (built_ok he).1))
    rw [flatten_mapM_zipIdx hparts, Ne, List.flatMap_eq_nil_iff]
    push Not
    constructor
    · rintro ⟨i, -, hne⟩
      by_cases hbuilt : block.Built i
      · obtain ⟨e, he⟩ := (built_iff api).mp hbuilt
        obtain ⟨tx, htx, -⟩ := hbuilt
        exact ⟨i, tx, htx, (built_ok he).1, (hgive i e tx he htx).mp hne⟩
      · exact absurd (transactionsOf_not_built hbuilt) hne
    · rintro ⟨i, tx, htx, hbuilt, h⟩
      obtain ⟨e, he⟩ := (built_iff api).mp hbuilt
      obtain ⟨hlt, -⟩ := List.getElem?_eq_some_iff.mp he
      exact ⟨i, List.mem_range.mpr hlt, (hgive i e tx he htx).mpr h⟩
  rw [blockTransactions_eq hin]
  constructor
  · rintro ⟨result, h⟩
    split_ifs at h with hone
    · cases h
    obtain ⟨parts, hparts, h⟩ := bind_eq_ok.mp h
    split_ifs at h with hempty
    · cases h
    have hne : parts.flatten ≠ [] := by simpa using hempty
    exact ⟨htwo.mp (by omega), (hgives parts hparts).mp hne, hreturns.mp ⟨parts, hparts⟩⟩
  · intro h
    have hone := htwo.mpr h.twoBuilt
    obtain ⟨parts, hparts⟩ := hreturns.mpr h.extractable
    have hne := (hgives parts hparts).mpr h.gives
    rw [if_neg (by omega), hparts, ok_bind, if_neg (by simpa using hne)]
    exact ⟨_, rfl⟩

/-! ### Faithful indices -/

/-- The transactions extracted from a block are those of its extrinsics, and carry their positions. -/
def IndicesFaithful (api : ChainApi) (block : SignedBlockExtended) : Prop :=
  ∀ result, blockTransactions api block = .ok (some result) →
    result.transactions = (List.range block.extrinsics.length).flatMap (transactionsOf api block) ∧
      ∀ i, ∀ t ∈ transactionsOf api block i, t.extrinsicIndex = i

/-- Nothing is left out before an extrinsic that gives transactions. -/
def SignedBlockExtended.NothingLeftOut (block : SignedBlockExtended) : Prop :=
  ∀ i tx, block.extrinsics[i]? = some tx → block.Built i → tx.extrinsic.Gives →
    ∀ j < i, block.Built j

/-- **The index of a transaction is the position of its extrinsic** in every block with transactions in
which nothing is left out before an extrinsic that gives some, and in no other. -/
theorem indicesFaithful_iff (hin : block.InRange) :
    IndicesFaithful api block ↔ (Extracted api block → block.NothingLeftOut) := by
  constructor
  · intro h hextracted i tx htx hbuilt hgives
    obtain ⟨result, hresult⟩ := (extracted_iff hin).mpr hextracted
    obtain ⟨-, hindex⟩ := h result hresult
    obtain ⟨e, he⟩ := (built_iff api).mp hbuilt
    have hreturns := (extractFrom_built_returns (rank (builtExtrinsics api block) i)
      he htx).mpr (hextracted.extractable i tx htx hbuilt)
    obtain ⟨t, ht⟩ := List.exists_mem_of_ne_nil _ ((transactionsOf_ne_nil he htx hreturns).mpr hgives)
    have hrank : rank (builtExtrinsics api block) i = i :=
      (transactionsOf_index ht).symm.trans (hindex i t ht)
    obtain ⟨hlt, -⟩ := List.getElem?_eq_some_iff.mp he
    exact fun j hj => (built_iff api).mpr ((rank_eq_self_iff hlt.le).mp hrank j hj)
  · intro h result hresult
    refine ⟨blockTransactions_transactions hin hresult, fun i t ht => ?_⟩
    have hextracted := (extracted_iff hin).mp ⟨result, hresult⟩
    by_cases hbuilt : block.Built i
    · obtain ⟨e, he⟩ := (built_iff api).mp hbuilt
      obtain ⟨tx, htx, -⟩ := id hbuilt
      have hreturns := (extractFrom_built_returns (rank (builtExtrinsics api block) i)
        he htx).mpr (hextracted.extractable i tx htx hbuilt)
      have hgives := (transactionsOf_ne_nil he htx hreturns).mp (List.ne_nil_of_mem ht)
      obtain ⟨hlt, -⟩ := List.getElem?_eq_some_iff.mp he
      rw [transactionsOf_index ht, rank_eq_self_iff hlt.le]
      exact fun j hj => (built_iff api).mp (h hextracted i tx htx hbuilt hgives j hj)
    · rw [transactionsOf_not_built hbuilt] at ht
      cases ht

end

/-! ### A block with a `sudo` extrinsic -/

/-- A block whose extrinsics all succeed, with one event each. -/
def successfulBlock (extrinsics : List Extrinsic) : SignedBlockExtended where
  number := 1
  extrinsics := extrinsics.map fun extrinsic => { extrinsic }
  events := (List.range extrinsics.length).map fun i =>
    ⟨.applyExtrinsic i, .other "system" "ExtrinsicSuccess"⟩

theorem successfulBlock_inRange (extrinsics : List Extrinsic) :
    (successfulBlock extrinsics).InRange := by
  intro record hrecord i hi
  obtain ⟨j, hj, rfl⟩ := List.mem_map.mp hrecord
  obtain rfl := Phase.applyExtrinsic.inj hi
  simpa [successfulBlock] using hj

/-- A node without metadata of errors. -/
def plainApi : ChainApi where
  chainType := .solo
  findMetaError _ := none
  queryInfo _ := 1

def setTimestamp : Extrinsic := { method := .timestamp 5000, signer := none }

def closeExtrinsic : Extrinsic := { method := .logionLoc (.close "loc"), signer := some "alice" }

theorem indicesFaithful_iff_close :
    @IndicesFaithful noVault plainApi (successfulBlock [setTimestamp, closeExtrinsic]) := by
  refine (@indicesFaithful_iff plainApi _ noVault (successfulBlock_inRange _)).mpr fun _ => ?_
  intro i tx htx _ hgives j hj
  rcases i with _ | _ | i
  · omega
  · obtain rfl : j = 0 := by omega
    exact ⟨_, rfl, rfl, List.cons_ne_nil _ _⟩
  · cases htx

/-- After a `sudo` extrinsic at position 1, the closing at position 2 gives a transaction of index
1. -/
theorem index_shifted_bySudo :
    let block := successfulBlock [setTimestamp,
      { method := .sudoCall "sudo", signer := some "root" }, closeExtrinsic]
    block.InRange ∧ (@blockTransactions noVault plainApi block).toOption.isSome ∧
      (@transactionsOf noVault plainApi block 2).map Transaction.extrinsicIndex = [1] ∧
      ¬ @IndicesFaithful noVault plainApi block := by
  have hindices : (@transactionsOf noVault plainApi (successfulBlock [setTimestamp,
      { method := .sudoCall "sudo", signer := some "root" }, closeExtrinsic]) 2).map
      Transaction.extrinsicIndex = [1] := rfl
  refine ⟨successfulBlock_inRange _, rfl, hindices, fun h => ?_⟩
  obtain ⟨-, hfaithful⟩ := h _ rfl
  obtain ⟨t, ht, hindex⟩ := List.mem_map.mp (hindices ▸ List.mem_singleton_self 1)
  have htwo : t.extrinsicIndex = 2 := hfaithful 2 t ht
  omega

end Logion
