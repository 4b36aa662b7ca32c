import Logion.Sync.NeverStuck
import Logion.Sync.ProcessBlock

/-!
# FailedExtrinsics — what becomes of an extrinsic that failed on chain

`SignedBlockExtended.without` removes an extrinsic and its events from a block.  A failed extrinsic is
treated as such when the block is processed, the transaction stored for it has failed, and everything
but the transactions is as if the extrinsic were absent.

* `extrinsicsOf_split`: the extrinsics of a block, with and without one of them.
* `processExtrinsics_without`: leaving out an extrinsic that is skipped.
* `treatedAsFailed_of`, `failureSeen_of`: the two directions of the exact condition.
* `treatedAsFailed_iff`: the contract, for every extrinsic of a block.
-/

namespace Logion

open Effect Fallible Keyed

/-! ### Removing an extrinsic from a block -/

/-- A record once the extrinsic `i` is removed. -/
def EventRecord.without (i : ℕ) (record : EventRecord) : Option EventRecord :=
  match record.phase with
  | .other => some record
  | .applyExtrinsic j =>
    if j = i then none
    else some { record with phase := .applyExtrinsic (if j < i then j else j - 1) }

/-- The block without the extrinsic `i`. -/
def SignedBlockExtended.without (block : SignedBlockExtended) (i : ℕ) : SignedBlockExtended :=
  { block with
    extrinsics := block.extrinsics.eraseIdx i
    events := block.events.filterMap (EventRecord.without i) }

/-- What holds of a derived block: a record belongs to an extrinsic of the block, and a dispatch error
comes from an event of its extrinsic. -/
structure Derived (block : SignedBlockExtended) : Prop where
  inRange : block.InRange
  failedHasEvent : ∀ i tx, block.extrinsics[i]? = some tx → tx.dispatchError.isSome →
    eventsOf block.events i ≠ []

variable {api : ChainApi} {block : SignedBlockExtended} {tx : TxWithEvent} {i : ℕ}

theorem eventsOf_without (records : List EventRecord) (i j : ℕ) :
    eventsOf (records.filterMap (EventRecord.without i)) j =
      eventsOf records (if j < i then j else j + 1) := by
  unfold eventsOf
  rw [List.filterMap_filterMap]
  refine List.filterMap_congr fun record _ => ?_
  obtain ⟨phase, event⟩ := record
  cases phase with
  | other => simp [EventRecord.without, EventRecord.eventOf]
  | applyExtrinsic n =>
    simp only [EventRecord.without, EventRecord.eventOf, Phase.applyExtrinsic.injEq]
    by_cases hn : n = i
    · subst hn
      rw [if_pos rfl, if_neg (by split_ifs <;> omega)]
      rfl
    · rw [if_neg hn]
      simp only [Option.bind_some, EventRecord.eventOf, Phase.applyExtrinsic.injEq]
      refine if_congr ?_ rfl rfl
      split_ifs <;> omega

theorem without_inRange (hin : block.InRange) (hi : i < block.extrinsics.length) :
    (block.without i).InRange := by
  intro record hrecord j hj
  obtain ⟨⟨phase, event⟩, hmem, hw⟩ := List.mem_filterMap.mp hrecord
  have hlen : (block.without i).extrinsics.length = block.extrinsics.length - 1 := by
    simp [SignedBlockExtended.without, List.length_eraseIdx, hi]
  rw [hlen]
  cases phase with
  | other =>
    cases hw
    cases hj
  | applyExtrinsic n =>
    have hn := hin _ hmem n rfl
    simp only [EventRecord.without] at hw
    split_ifs at hw with h1 h2
    · cases hw
      cases hj
      omega
    · cases hw
      cases hj
      omega

theorem buildersAfter_without :
    buildersAfter api (block.without i) (block.without i).events =
      (buildersAfter api block block.events).eraseIdx i := by
  have hbuilder : ∀ tx events,
      builderAfter api (block.without i) tx events = builderAfter api block tx events :=
    fun _ _ => rfl
  refine List.ext_getElem? fun j => ?_
  rw [List.getElem?_eraseIdx]
  unfold buildersAfter
  rw [List.getElem?_mapIdx]
  simp only [hbuilder]
  rw [show (block.without i).extrinsics = block.extrinsics.eraseIdx i from rfl,
    show (block.without i).events = block.events.filterMap (EventRecord.without i) from rfl,
    List.getElem?_eraseIdx, eventsOf_without]
  split_ifs <;> rw [List.getElem?_mapIdx]

/-! ### The extrinsics of a block, with and without one of them -/

theorem extrinsicsOf_split {b : ExtrinsicBuilder}
    (hb : (buildersAfter api block block.events)[i]? = some (some b)) :
    ∃ pre post, extrinsicsOf api block = pre ++ b.build :: post ∧
      extrinsicsOf api (block.without i) = pre ++ post ∧ pre.length = builtIndex api block i := by
  set bs := buildersAfter api block block.events with hbs
  obtain ⟨hlt, hget⟩ := List.getElem?_eq_some_iff.mp hb
  refine ⟨((bs.take i).filterMap id).map ExtrinsicBuilder.build,
    ((bs.drop (i + 1)).filterMap id).map ExtrinsicBuilder.build, ?_, ?_, ?_⟩
  · have hsplit : bs = bs.take i ++ some b :: bs.drop (i + 1) := by
      rw [← hget, ← List.drop_eq_getElem_cons hlt, List.take_append_drop]
    rw [extrinsicsOf, ← hbs]
    conv_lhs => rw [hsplit]
    simp
  · rw [extrinsicsOf, buildersAfter_without, ← hbs, List.eraseIdx_eq_take_drop_succ]
    simp
  · simp [builtIndex, ← hbs]

/-! ### Being treated as failed -/

variable [LegalOfficers] [Vault] {s : Store}

/-- The rows that the processing of the block adds. -/
def newRows (api : ChainApi) (block : SignedBlockExtended) (s : Store) :
    List TransactionAggregateRoot :=
  (exec (processBlock api block) s).2.db.transactions.drop s.db.transactions.length

/-- The row of type `extrinsic` of the extrinsic `i` of the block. -/
def IsRowOf (api : ChainApi) (block : SignedBlockExtended) (i : ℕ)
    (row : TransactionAggregateRoot) : Prop :=
  row.type = .extrinsic ∧ row.extrinsicIndex = builtIndex api block i

/-- **The extrinsic `i` is treated as failed**: it is recorded as such, and the rest goes as in the
block without it, exceptions included. -/
structure TreatedAsFailed (api : ChainApi) (block : SignedBlockExtended) (i : ℕ) (s : Store) :
    Prop where
  recorded : Completes (processBlock api block) s →
    ∃ row ∈ newRows api block s, IsRowOf api block i row
  failed : ∀ row ∈ newRows api block s, IsRowOf api block i row → row.successful = false
  sameResult : (exec (processBlock api block) s).1 = (exec (processBlock api (block.without i)) s).1
  sameCore : SameCore (exec (processBlock api block) s).2
    (exec (processBlock api (block.without i)) s).2

/-- The failure is one that the code sees: a module error that the metadata explains, of an extrinsic
that the rest of the code accepts. -/
structure FailureSeen (api : ChainApi) (tx : TxWithEvent) : Prop where
  moduleError : ∃ m error, tx.dispatchError = some (.module m) ∧
    api.findMetaError (toErrorServiceModule m) = some error
  supported : ∀ calls, tx.extrinsic.method ≠ .batch calls ∧ tx.extrinsic.method ≠ .forceBatch calls
  notTimestamp : ∀ now, tx.extrinsic.method ≠ .timestamp now
  understood : tx.extrinsic.method.addressesUnderstood = true

/-- The extrinsic `j` is treated as a success: its row has not failed, and neither the synchronizers
nor the unwrapping of batches skip it. -/
structure TreatedAsSuccess (api : ChainApi) (block : SignedBlockExtended) (j : ℕ) (s : Store)
    (b : ExtrinsicBuilder) : Prop where
  successful : ∀ row ∈ newRows api block s, IsRowOf api block j row → row.successful = true
  synchronized : ∀ update, unlessError b.build update = update
  unwrapped : ∀ calls, b.build.call = .batchAll calls →
    unwrapExtrinsic b.build = .ok (b.build :: calls.map (unwrapCall b.build))

section

omit [LegalOfficers] [Vault]

theorem errorOf_ok {error : ExtrinsicError} : errorOf api tx = .ok (some error) ↔
    ∃ m, tx.dispatchError = some (.module m) ∧
      api.findMetaError (toErrorServiceModule m) = some error := by
  unfold errorOf
  split
  · rename_i m hm
    rw [hm]
    constructor
    · intro h
      obtain ⟨found, hfound, h⟩ := bind_eq_ok.mp h
      cases h
      refine ⟨m, rfl, ?_⟩
      unfold findErrorWithApi at hfound
      split at hfound
      · rename_i hmeta
        cases hfound
        exact hmeta
      · cases hfound
    · rintro ⟨_, ⟨⟩, h⟩
      rw [findErrorWithApi, h]
      rfl
  · rename_i hm
    refine iff_of_false (by simp) ?_
    rintro ⟨m, h, -⟩
    exact hm m h

end

/-- The rows of one extrinsic, and only its own, have its index. -/
theorem isRowOf_mem (hin : block.InRange) {b : ExtrinsicBuilder}
    (hb : (buildersAfter api block block.events)[i]? = some (some b))
    {row : TransactionAggregateRoot} (hrow : row ∈ newRows api block s)
    (hof : IsRowOf api block i row) :
    ∃ ts t, extractFrom b.build (builtIndex api block i) = .ok ts ∧ t ∈ ts ∧ t.type = .extrinsic ∧
      row.successful = t.error.isNone := by
  obtain ⟨pre, post, hsplit, -, hlen⟩ := extrinsicsOf_split hb
  obtain ⟨rows, hrows, hextracted, -⟩ := processExtrinsics_transactions
    ⟨block.number, api.chainType, extrinsicsOf api block⟩ s
  rw [newRows, exec_processBlock hin, hrows, List.drop_left] at hrow
  rcases hextracted with rfl | hextracted
  · cases hrow
  · obtain ⟨k, e, ts, t, he, hts, ht, rfl⟩ := (extractRows_mem hextracted).mp hrow
    have hindex : k = builtIndex api block i := (extractFrom_index hts t ht).symm.trans hof.2
    have hself : b.build = e := by
      dsimp only at he
      rw [hsplit, hindex, ← hlen] at he
      simpa using he
    subst hself hindex
    exact ⟨ts, t, hts, ht, hof.1, rfl⟩

/-- **Leaving out an extrinsic that is skipped.** -/
theorem processExtrinsics_without {pre : List JsonExtrinsic} (post : List JsonExtrinsic)
    {e : JsonExtrinsic}
    {error : ExtrinsicError} (he : e.error = .ok (some error)) (htime : timestampOf e = none)
    (hextract : Returns (extractFrom e pre.length)) (hunwrap : unwrapExtrinsic e = .ok [e])
    (number : ℤ) (chain : ChainType) (s : Store) :
    (exec (processExtrinsics ⟨number, chain, pre ++ e :: post⟩) s).1 =
        (exec (processExtrinsics ⟨number, chain, pre ++ post⟩) s).1 ∧
      SameCore (exec (processExtrinsics ⟨number, chain, pre ++ e :: post⟩) s).2
        (exec (processExtrinsics ⟨number, chain, pre ++ post⟩) s).2 := by
  have htimestamp : getBlockTimestamp ⟨number, chain, pre ++ e :: post⟩ =
      getBlockTimestamp ⟨number, chain, pre ++ post⟩ := by
    simp [getBlockTimestamp, List.findSome?_append, htime]
  have hrows : outcome (extractRows ⟨number, chain, pre ++ e :: post⟩) =
      outcome (extractRows ⟨number, chain, pre ++ post⟩) := extractRows_outcome hextract number chain
  have hone : unwrapExtrinsics [e] = .ok [e] := by
    simp [unwrapExtrinsics, hunwrap]
  rw [exec_processExtrinsics, exec_processExtrinsics, htimestamp]
  cases getBlockTimestamp ⟨number, chain, pre ++ post⟩ with
  | none => exact ⟨rfl, rfl⟩
  | some timestamp =>
    dsimp only
    cases habsent : extractRows ⟨number, chain, pre ++ post⟩ with
    | error e' =>
      rw [habsent, outcome_error, outcome_eq_error] at hrows
      rw [hrows]
      exact ⟨rfl, rfl⟩
    | ok rows =>
      rw [habsent, outcome_ok, outcome_eq_ok] at hrows
      obtain ⟨rows', hrows⟩ := hrows
      have hcore := addAll_sameCore s rows' rows
      rw [hrows, List.append_cons, unwrapExtrinsics_append, unwrapExtrinsics_append,
        unwrapExtrinsics_append, hone]
      dsimp only
      cases unwrapExtrinsics pre with
      | error e' => exact ⟨rfl, hcore⟩
      | ok pre' =>
        cases unwrapExtrinsics post with
        | error e' => exact ⟨rfl, hcore⟩
        | ok post' =>
          simp only [ok_bind, pure_eq_ok, List.append_assoc, List.singleton_append]
          rw [exec_forEach_skip fun s => synchronize_skips he timestamp s]
          exact (OnCore.forEach (onCore_synchronize timestamp) (pre' ++ post')).agree _ _ hcore

section

omit [LegalOfficers] [Vault]

theorem timestampOf_eq_none {e : JsonExtrinsic} (h : ∀ now, e.call ≠ .timestamp now) :
    timestampOf e = none := by
  unfold timestampOf
  split
  · rename_i now hnow
    exact absurd hnow (h now)
  · rfl

/-- A failed extrinsic is kept as it is, unless it is a batch that is not supported. -/
theorem unwrapExtrinsic_failed {e : JsonExtrinsic} {error : ExtrinsicError}
    (he : e.error = .ok (some error))
    (h : ∀ calls, e.call ≠ .batch calls ∧ e.call ≠ .forceBatch calls) :
    unwrapExtrinsic e = .ok [e] := by
  unfold unwrapExtrinsic
  split
  · rw [he]
    rfl
  · rename_i calls hbatch
    exact absurd hbatch (h calls).1
  · rename_i calls hbatch
    exact absurd hbatch (h calls).2
  · rfl

end

/-- An extrinsic whose transactions are extracted has its row once the block is processed. -/
theorem recorded_of (hin : block.InRange) {b : ExtrinsicBuilder} {signer : String}
    (hb : (buildersAfter api block block.events)[i]? = some (some b))
    (hextract : ∀ index, extractFrom b.build index = extractTransactions b.build signer index)
    (hreturns : Returns (extractTransactions b.build signer (builtIndex api block i)))
    (hcompletes : Completes (processBlock api block) s) :
    ∃ row ∈ newRows api block s, IsRowOf api block i row := by
  obtain ⟨pre, post, hsplit, -, hlen⟩ := extrinsicsOf_split hb
  have hpresent : exec (processBlock api block) s =
      exec (processExtrinsics ⟨block.number, api.chainType, pre ++ b.build :: post⟩) s := by
    rw [exec_processBlock hin, hsplit]
  obtain ⟨rows, hrows, -, hextracted⟩ := processExtrinsics_transactions
    ⟨block.number, api.chainType, pre ++ b.build :: post⟩ s
  have hextracted := hextracted (by unfold Completes at hcompletes ⊢; rwa [hpresent] at hcompletes)
  obtain ⟨ts, hts⟩ := hreturns
  obtain ⟨error, before, t, after, -, hparts, htype, hindex, -, -⟩ := extractTransactions_ok hts
  refine ⟨newTransaction ⟨block.number, api.chainType⟩ ((lastTimestamp
    (pre ++ b.build :: post)).getD 0) t, ?_, htype, hindex⟩
  rw [newRows, hpresent, hrows, List.drop_left]
  refine (extractRows_mem hextracted).mpr ⟨pre.length, b.build, ts, t, by simp, ?_, ?_, rfl⟩
  · rw [hlen, hextract, hts]
  · rw [hparts]
    simp

/-- A failure that the code sees is treated as one. -/
theorem treatedAsFailed_of (hblock : Derived block) {signer : String}
    (htx : block.extrinsics[i]? = some tx) (hsigner : tx.extrinsic.signer = some signer)
    (hsudo : tx.extrinsic.method.isSudo = false) (hseen : FailureSeen api tx) :
    TreatedAsFailed api block i s := by
  obtain ⟨m, error, hm, hmeta⟩ := hseen.moduleError
  have hevents := hblock.failedHasEvent i tx htx (by rw [hm]; rfl)
  obtain ⟨b, hb⟩ : ∃ b, (buildersAfter api block block.events)[i]? = some (some b) :=
    builder_of htx hsudo hevents
  obtain ⟨hcall, hbsigner, hberror⟩ := builder_ok htx hb
  obtain ⟨hlt, -⟩ := List.getElem?_eq_some_iff.mp htx
  obtain ⟨pre, post, hsplit, hwithout, hlen⟩ := extrinsicsOf_split hb
  -- what the extrinsic gives at each stage
  have he : b.build.error = .ok (some error) := by
    rw [hberror]
    exact errorOf_ok.mpr ⟨m, hm, hmeta⟩
  have htype : determineType b.build ≠ .timestamp := by
    intro h
    obtain ⟨now, hnow⟩ := determineType_eq_timestamp.mp h
    exact hseen.notTimestamp now (hcall.symm.trans hnow)
  have htime : timestampOf b.build = none :=
    timestampOf_eq_none fun now hnow => hseen.notTimestamp now (hcall.symm.trans hnow)
  have hunwrap : unwrapExtrinsic b.build = .ok [b.build] :=
    unwrapExtrinsic_failed he fun calls =>
      ⟨fun h => (hseen.supported calls).1 (hcall.symm.trans h),
        fun h => (hseen.supported calls).2 (hcall.symm.trans h)⟩
  have hextract : ∀ index, extractFrom b.build index = extractTransactions b.build signer index := by
    intro index
    rw [extractFrom, if_neg htype, hbsigner, hsigner]
  have hreturns : ∀ index, Returns (extractTransactions b.build signer index) := by
    intro index
    rw [extractTransactions_returns he, hcall]
    exact hseen.understood
  -- and so the block goes as without it
  have hrun := processExtrinsics_without post he htime ((hextract pre.length).symm ▸ hreturns pre.length)
    hunwrap block.number api.chainType s
  have hpresent : exec (processBlock api block) s =
      exec (processExtrinsics ⟨block.number, api.chainType, pre ++ b.build :: post⟩) s := by
    rw [exec_processBlock hblock.inRange, hsplit]
  have habsent : exec (processBlock api (block.without i)) s =
      exec (processExtrinsics ⟨block.number, api.chainType, pre ++ post⟩) s := by
    rw [exec_processBlock (without_inRange hblock.inRange hlt), hwithout]
    rfl
  refine ⟨recorded_of hblock.inRange hb hextract (hreturns _), ?_, ?_, ?_⟩
  · intro row hrow hof
    obtain ⟨ts, t, hts, ht, htype', hsuccess⟩ := isRowOf_mem hblock.inRange hb hrow hof
    obtain ⟨signer', error', he', hterror, -, -⟩ := extractFrom_error hts ht htype'
    rw [he] at he'
    cases he'
    rw [hsuccess, Option.isNone_eq_false_iff, hterror]
    rfl
  · rw [hpresent, habsent]
    exact hrun.1
  · rw [hpresent, habsent]
    exact hrun.2

/-- An extrinsic that is treated as failed, in a block that is otherwise processed, has a failure that
the code sees. -/
theorem failureSeen_of (hblock : Derived block) (htx : block.extrinsics[i]? = some tx)
    (hsudo : tx.extrinsic.method.isSudo = false) (hfailed : tx.dispatchError.isSome)
    (habsent : Completes (processBlock api (block.without i)) s)
    (h : TreatedAsFailed api block i s) : FailureSeen api tx := by
  have hevents := hblock.failedHasEvent i tx htx hfailed
  obtain ⟨b, hb⟩ : ∃ b, (buildersAfter api block block.events)[i]? = some (some b) :=
    builder_of htx hsudo hevents
  obtain ⟨hcall, -, hberror⟩ := builder_ok htx hb
  obtain ⟨pre, post, hsplit, -, -⟩ := extrinsicsOf_split hb
  have hcompletes : Completes (processBlock api block) s := by
    obtain ⟨_, s', hexec⟩ := habsent
    have hresult := h.sameResult
    rw [hexec] at hresult
    exact ⟨(), (exec (processBlock api block) s).2, Prod.ext hresult rfl⟩
  obtain ⟨row, hrow, hof⟩ := h.recorded hcompletes
  obtain ⟨ts, t, hts, ht, htype, hsuccess⟩ := isRowOf_mem hblock.inRange hb hrow hof
  obtain ⟨signer, error, he, hterror, htime, hreturns⟩ := extractFrom_error hts ht htype
  obtain ⟨error, rfl⟩ : ∃ error', error = some error' := by
    rw [h.failed row hrow hof, eq_comm, Option.isNone_eq_false_iff, hterror] at hsuccess
    exact Option.isSome_iff_exists.mp hsuccess
  obtain ⟨m, hmodule⟩ := errorOf_ok.mp (hberror.symm.trans he)
  refine ⟨⟨m, error, hmodule⟩, ?_, ?_, ?_⟩
  · -- a batch that is not supported stops the whole block
    obtain ⟨_, s', hexec⟩ := hcompletes
    rw [exec_processBlock hblock.inRange, processExtrinsics_ok] at hexec
    obtain ⟨_, _, unwrapped, -, -, hunwrapped, -⟩ := hexec
    obtain ⟨parts, hparts, -⟩ := bind_eq_ok.mp hunwrapped
    have hone : Returns (unwrapExtrinsic b.build) := by
      refine mapM_returns.mp ⟨parts, hparts⟩ _ ?_
      rw [hsplit]
      simp
    intro calls
    rw [← hcall]
    constructor
    · intro hbatch
      rw [unwrapExtrinsic, show b.build.call = _ from hbatch] at hone
      exact not_returns_error _ hone
    · intro hbatch
      rw [unwrapExtrinsic, show b.build.call = _ from hbatch] at hone
      exact not_returns_error _ hone
  · intro now hnow
    exact htime (determineType_eq_timestamp.mpr ⟨now, hcall.trans hnow⟩)
  · rw [← hcall]
    exact (extractTransactions_returns he).mp hreturns

/-- An extrinsic without an error is treated as a success. -/
theorem treatedAsSuccess_of (hblock : Derived block) {b : ExtrinsicBuilder}
    (htx : block.extrinsics[i]? = some tx) (hsuccess : tx.dispatchError = none)
    (hb : (buildersAfter api block block.events)[i]? = some (some b)) :
    TreatedAsSuccess api block i s b := by
  obtain ⟨-, -, hberror⟩ := builder_ok htx hb
  have he : b.build.error = .ok none := by
    rw [hberror, errorOf, hsuccess]
  refine ⟨?_, ?_, ?_⟩
  · intro row hrow hof
    obtain ⟨ts, t, hts, ht, htype, hrowSuccess⟩ := isRowOf_mem hblock.inRange hb hrow hof
    obtain ⟨signer, error, he', hterror, -, -⟩ := extractFrom_error hts ht htype
    rw [he] at he'
    cases he'
    rw [hrowSuccess, Option.isNone_iff_eq_none, ← Option.not_isSome_iff_eq_none, hterror]
    simp
  · intro update
    rw [unlessError, he]
    rfl
  · intro calls hbatch
    rw [unwrapExtrinsic, hbatch, he]
    rfl

/-- **Failed extrinsics.**  A signed extrinsic with a dispatch error is treated as failed exactly when
the code sees the failure (for the converse the rest of the block must be one that is processed), and
an extrinsic without a dispatch error is never treated as failed. -/
theorem treatedAsFailed_iff (api : ChainApi) (block : SignedBlockExtended) (hblock : Derived block) :
    (∀ i tx, block.extrinsics[i]? = some tx → tx.extrinsic.signer.isSome →
      tx.extrinsic.method.isSudo = false → tx.dispatchError.isSome → ∀ s,
        (FailureSeen api tx → TreatedAsFailed api block i s) ∧
          (Completes (processBlock api (block.without i)) s →
            (TreatedAsFailed api block i s ↔ FailureSeen api tx))) ∧
      ∀ j tx b, block.extrinsics[j]? = some tx → tx.dispatchError = none →
        (buildersAfter api block block.events)[j]? = some (some b) → ∀ s,
          TreatedAsSuccess api block j s b := by
  refine ⟨?_, fun j tx b htx hsuccess hb s => treatedAsSuccess_of hblock htx hsuccess hb⟩
  intro i tx htx hsigner hsudo hfailed s
  obtain ⟨signer, hsigner⟩ := Option.isSome_iff_exists.mp hsigner
  have hof : FailureSeen api tx → TreatedAsFailed api block i s :=
    treatedAsFailed_of hblock htx hsigner hsudo
  exact ⟨hof, fun habsent => ⟨failureSeen_of hblock htx hsudo hfailed habsent, hof⟩⟩

section

omit [LegalOfficers] [Vault]

/-- A node whose metadata explain every module error. -/
def explainingApi : ChainApi where
  chainType := .solo
  findMetaError _ := some ⟨"logionLoc", "Unauthorized", "Unauthorized origin"⟩
  queryInfo _ := 1

/-- A block whose second extrinsic, the closing of a LOC, failed with the given error. -/
def failedClose (dispatchError : DispatchError) : SignedBlockExtended where
  number := 1
  extrinsics := [
    { extrinsic := { method := .timestamp 5000, signer := none } },
    { extrinsic := { method := .logionLoc (.close "loc"), signer := some "alice" }
      dispatchError := some dispatchError }]
  events := [
    ⟨.applyExtrinsic 0, .other "system" "ExtrinsicSuccess"⟩,
    ⟨.applyExtrinsic 1, .other "system" "ExtrinsicFailed"⟩]

theorem derived_failedClose (dispatchError : DispatchError) : Derived (failedClose dispatchError) := by
  refine ⟨?_, ?_⟩
  · intro record hrecord i hi
    simp only [failedClose, List.mem_cons, List.not_mem_nil, or_false] at hrecord
    rcases hrecord with rfl | rfl
    · cases hi
      exact Nat.zero_lt_two
    · cases hi
      exact Nat.one_lt_two
  · intro i tx htx hfailed
    rcases i with _ | _ | i
    · cases htx
      cases hfailed
    · exact List.cons_ne_nil (JsonEvent.other "system" "ExtrinsicFailed") []
    · cases htx

theorem treatedAsFailed_iff_moduleError : @TreatedAsFailed noLegalOfficers noVault explainingApi
    (failedClose (.module ⟨7, [1, 0, 0, 0]⟩)) 1 collectionStore :=
  ((@treatedAsFailed_iff noLegalOfficers noVault explainingApi
    (failedClose (.module ⟨7, [1, 0, 0, 0]⟩)) (derived_failedClose _)).1 1 _ rfl rfl rfl rfl
      collectionStore).1
    ⟨⟨_, _, rfl, rfl⟩, fun _ => ⟨nofun, nofun⟩, fun _ => nofun, rfl⟩

/-- A closing that failed with `BadOrigin` is recorded as successful, and the LOC is closed. -/
theorem badOrigin_synchronized :
    (∃ row ∈ @newRows noLegalOfficers noVault explainingApi (failedClose (.variant "BadOrigin"))
        collectionStore, IsRowOf explainingApi (failedClose (.variant "BadOrigin")) 1 row ∧
          row.successful = true) ∧
      (exec (@processBlock noLegalOfficers noVault explainingApi (failedClose (.variant "BadOrigin")))
        collectionStore).2.db.locRequests.map LocRequest.status = [.closed] ∧
      ¬ @TreatedAsFailed noLegalOfficers noVault explainingApi (failedClose (.variant "BadOrigin")) 1
        collectionStore := by
  have hrow : ∃ row ∈ @newRows noLegalOfficers noVault explainingApi
      (failedClose (.variant "BadOrigin")) collectionStore,
      IsRowOf explainingApi (failedClose (.variant "BadOrigin")) 1 row ∧ row.successful = true :=
    ⟨_, List.mem_singleton_self _, ⟨rfl, rfl⟩, rfl⟩
  refine ⟨hrow, rfl, fun h => ?_⟩
  obtain ⟨row, hmem, hof, hsuccess⟩ := hrow
  rw [@TreatedAsFailed.failed noLegalOfficers noVault _ _ _ _ h row hmem hof] at hsuccess
  cases hsuccess

end

end Logion
