import Logion.Chain.Extrinsic
import Logion.Lib.Fallible

/-!
# ExtrinsicsBuilder — from a derived block to its extrinsics (`extrinsicsbuilder.ts`)

A derived block has a list of extrinsics, each with its dispatch error if it failed, and a list of
event records, each with the phase it belongs to.  `build` goes through the records: the first record
of an extrinsic creates its builder, unless the extrinsic is a `sudo` one, and each record adds its
event.  An extrinsic without an event has no builder.

* `build_eq`: the result, extrinsic by extrinsic.
* `builderAfter_ok`: what the result for one extrinsic is.
-/

namespace Logion

open Fallible

/-! ### Derived blocks -/

/-- `DispatchErrorModule`: the error is a fixed-width integer, little-endian. -/
structure DispatchErrorModule where
  index : ℕ
  error : List UInt8
  deriving DecidableEq, Repr

/-- `DispatchError`: a module error, or another variant (`BadOrigin`, `Token`, ...) with its name. -/
inductive DispatchError
  | module (error : DispatchErrorModule)
  | variant (name : String)
  deriving DecidableEq, Repr

/-- An `Extrinsic`; it is signed when it has a signer. -/
structure Extrinsic where
  method : Call
  signer : Option String
  tip : ℕ := 0

structure TxWithEvent where
  extrinsic : Extrinsic
  dispatchError : Option DispatchError := none

inductive Phase
  | applyExtrinsic (index : ℕ)
  | other
  deriving DecidableEq, Repr

structure EventRecord where
  phase : Phase
  event : JsonEvent
  deriving DecidableEq, Repr

/-- What is read of a `SignedBlockExtended`; in the genesis block the parent hash is zero. -/
structure SignedBlockExtended where
  number : ℤ
  isGenesisBlock : Bool := false
  extrinsics : List TxWithEvent
  events : List EventRecord

structure Module where
  index : ℕ
  error : ℕ
  deriving DecidableEq, Repr

/-- What the builder asks the node: the metadata of an error, and the fee of an extrinsic. -/
structure ChainApi where
  chainType : ChainType
  findMetaError : Module → Option ExtrinsicError
  queryInfo : Extrinsic → ℕ

/-! ### Builders -/

structure ExtrinsicBuilder where
  call : Call
  signer : Option String
  tip : Option ℕ
  partialFee : ℕ
  storageFee : Option Fee := none
  legalFee : Option FeeWithBeneficiary := none
  certificateFee : Option Fee := none
  valueFee : Option Fee := none
  collectionItemFee : Option FeeWithBeneficiaryAmount := none
  tokensRecordFee : Option FeeWithBeneficiaryAmount := none
  events : List JsonEvent := []
  error : Except Err (Option ExtrinsicError)

/-- The fee is `result ? result.toString() : undefined`, so that a fee of zero is undefined. -/
def ExtrinsicBuilder.build (b : ExtrinsicBuilder) : JsonExtrinsic where
  call := b.call
  signer := b.signer
  tip := b.tip
  partialFee := if b.partialFee = 0 then none else some b.partialFee
  storageFee := b.storageFee
  legalFee := b.legalFee
  certificateFee := b.certificateFee
  valueFee := b.valueFee
  collectionItemFee := b.collectionItemFee
  tokensRecordFee := b.tokensRecordFee
  events := b.events
  error := b.error

/-- One more event: a withdrawal replaces the fee of its kind, and every event is kept. -/
def ExtrinsicBuilder.addEvent (b : ExtrinsicBuilder) (event : JsonEvent) : ExtrinsicBuilder :=
  let b := match event with
    | .storageFeeWithdrawn withdrawnFrom fee => { b with storageFee := some ⟨fee, withdrawnFrom⟩ }
    | .legalFeeWithdrawn withdrawnFrom beneficiary fee =>
      { b with legalFee := some ⟨⟨fee, withdrawnFrom⟩, beneficiary⟩ }
    | .certificateFeeWithdrawn withdrawnFrom fee =>
      { b with certificateFee := some ⟨fee, withdrawnFrom⟩ }
    | .valueFeeWithdrawn withdrawnFrom fee => { b with valueFee := some ⟨fee, withdrawnFrom⟩ }
    | .collectionItemFeeWithdrawn withdrawnFrom fee beneficiary received =>
      { b with collectionItemFee := some ⟨⟨⟨fee, withdrawnFrom⟩, beneficiary⟩, received⟩ }
    | .tokensRecordFeeWithdrawn withdrawnFrom fee beneficiary received =>
      { b with tokensRecordFee := some ⟨⟨⟨fee, withdrawnFrom⟩, beneficiary⟩, received⟩ }
    | _ => b
  { b with events := b.events ++ [event] }

def littleEndian : List UInt8 → ℕ
  | [] => 0
  | byte :: bytes => byte.toNat + 256 * littleEndian bytes

def toErrorServiceModule (dispatchError : DispatchErrorModule) : Module :=
  ⟨dispatchError.index, littleEndian dispatchError.error⟩

def findErrorWithApi (api : ChainApi) (m : Module) : Except Err ExtrinsicError :=
  match api.findMetaError m with
  | some metaError => .ok metaError
  | none => .error (.error ("Unable to locate error metadata (index: " ++ toString m.index ++
      ", error: " ++ toString m.error ++ ")"))

/-- `error()`: only a module error is looked at. -/
def errorOf (api : ChainApi) (tx : TxWithEvent) : Except Err (Option ExtrinsicError) :=
  match tx.dispatchError with
  | some (.module dispatchError) => do
    let error ← findErrorWithApi api (toErrorServiceModule dispatchError)
    return some error
  | _ => .ok none

def createBuilder (api : ChainApi) (block : SignedBlockExtended) (tx : TxWithEvent) :
    Option ExtrinsicBuilder :=
  let extrinsic := tx.extrinsic
  if extrinsic.method.isSudo then none
  else some {
    call := extrinsic.method
    signer := extrinsic.signer
    tip := if extrinsic.signer.isSome then some extrinsic.tip else none
    partialFee := if block.isGenesisBlock then 0 else api.queryInfo extrinsic
    error := errorOf api tx }

/-- The body of the loop over the event records. -/
def addRecord (api : ChainApi) (block : SignedBlockExtended)
    (builders : List (Option ExtrinsicBuilder)) (record : EventRecord) :
    Except Err (List (Option ExtrinsicBuilder)) :=
  match record.phase with
  | .other => .ok builders
  | .applyExtrinsic extrinsicIndex =>
    match builders[extrinsicIndex]?.join with
    | some builder => .ok (builders.set extrinsicIndex (some (builder.addEvent record.event)))
    | none =>
      match block.extrinsics[extrinsicIndex]? with
      | none => .error (.error "Cannot read properties of undefined")
      | some tx =>
        match createBuilder api block tx with
        | none => .ok builders
        | some builder => .ok (builders.set extrinsicIndex (some (builder.addEvent record.event)))

def buildExtrinsics (api : ChainApi) (block : SignedBlockExtended) :
    Except Err (List JsonExtrinsic) := do
  let builders ← block.events.foldlM (addRecord api block)
    (List.replicate block.extrinsics.length none)
  return (builders.filterMap id).map ExtrinsicBuilder.build

/-- `BlockExtrinsics`. -/
structure BlockExtrinsics where
  number : ℤ
  chain : ChainType
  extrinsics : List JsonExtrinsic

/-- `BlockExtrinsicsService.getBlockExtrinsics`. -/
def getBlockExtrinsics (api : ChainApi) (block : SignedBlockExtended) :
    Except Err BlockExtrinsics := do
  let extrinsics ← buildExtrinsics api block
  return ⟨block.number, api.chainType, extrinsics⟩

/-! ### The result, extrinsic by extrinsic -/

/-- The event of a record of the extrinsic with the given index. -/
def EventRecord.eventOf (index : ℕ) (record : EventRecord) : Option JsonEvent :=
  if record.phase = .applyExtrinsic index then some record.event else none

/-- The events of the extrinsic with the given index, in order. -/
def eventsOf (records : List EventRecord) (index : ℕ) : List JsonEvent :=
  records.filterMap (EventRecord.eventOf index)

/-- The builder of an extrinsic after the given events. -/
def builderAfter (api : ChainApi) (block : SignedBlockExtended) (tx : TxWithEvent)
    (events : List JsonEvent) : Option ExtrinsicBuilder :=
  if events = [] then none
  else (createBuilder api block tx).map fun b => events.foldl ExtrinsicBuilder.addEvent b

/-- Every record of an extrinsic has the index of an extrinsic of the block. -/
def SignedBlockExtended.InRange (block : SignedBlockExtended) : Prop :=
  ∀ record ∈ block.events, ∀ i, record.phase = .applyExtrinsic i → i < block.extrinsics.length

variable {api : ChainApi} {block : SignedBlockExtended} {tx : TxWithEvent}

theorem eventsOf_append (xs ys : List EventRecord) (i : ℕ) :
    eventsOf (xs ++ ys) i = eventsOf xs i ++ eventsOf ys i := List.filterMap_append

theorem eventsOf_singleton_self {record : EventRecord} {i : ℕ}
    (h : record.phase = .applyExtrinsic i) : eventsOf [record] i = [record.event] := by
  simp [eventsOf, EventRecord.eventOf, h]

theorem eventsOf_singleton_of_ne {record : EventRecord} {i : ℕ}
    (h : record.phase ≠ .applyExtrinsic i) : eventsOf [record] i = [] := by
  simp [eventsOf, EventRecord.eventOf, h]

theorem builderAfter_concat (api : ChainApi) (block : SignedBlockExtended) (tx : TxWithEvent)
    (events : List JsonEvent) (event : JsonEvent) :
    builderAfter api block tx (events ++ [event]) =
      match builderAfter api block tx events with
      | some b => some (b.addEvent event)
      | none => if events = [] then (createBuilder api block tx).map (·.addEvent event) else none := by
  unfold builderAfter
  rw [if_neg (by simp)]
  by_cases h : events = []
  · subst h
    rfl
  · rw [if_neg h, if_neg h]
    cases createBuilder api block tx with
    | none => rfl
    | some b => simp [List.foldl_append]

/-- The builders after the records of a prefix of the loop. -/
def buildersAfter (api : ChainApi) (block : SignedBlockExtended) (records : List EventRecord) :
    List (Option ExtrinsicBuilder) :=
  block.extrinsics.mapIdx fun i tx => builderAfter api block tx (eventsOf records i)

theorem addRecord_eq {records : List EventRecord} {record : EventRecord}
    (hin : ∀ i, record.phase = .applyExtrinsic i → i < block.extrinsics.length) :
    addRecord api block (buildersAfter api block records) record =
      .ok (buildersAfter api block (records ++ [record])) := by
  -- the builders of the other extrinsics do not move
  have hother : ∀ i, record.phase ≠ .applyExtrinsic i →
      eventsOf (records ++ [record]) i = eventsOf records i := by
    intro i hi
    rw [eventsOf_append, eventsOf_singleton_of_ne hi, List.append_nil]
  cases hphase : record.phase with
  | other =>
    have hsame : buildersAfter api block (records ++ [record]) = buildersAfter api block records := by
      refine List.mapIdx_eq_mapIdx_iff.mpr fun i _ => ?_
      rw [hother i (by rw [hphase]; simp)]
    rw [addRecord, hphase, hsame]
  | applyExtrinsic n =>
    have hn : n < block.extrinsics.length := hin n hphase
    have hself : eventsOf (records ++ [record]) n = eventsOf records n ++ [record.event] := by
      rw [eventsOf_append, eventsOf_singleton_self hphase]
    have hget : (buildersAfter api block records)[n]? =
        some (builderAfter api block block.extrinsics[n] (eventsOf records n)) := by
      simp [buildersAfter, List.getElem?_eq_getElem hn]
    have hset : ∀ b, b = builderAfter api block block.extrinsics[n]
          (eventsOf records n ++ [record.event]) →
        (buildersAfter api block records).set n b =
          buildersAfter api block (records ++ [record]) := by
      rintro b rfl
      refine List.ext_getElem (by simp [buildersAfter]) fun i h1 h2 => ?_
      rw [List.getElem_set]
      by_cases hi : n = i
      · subst hi
        rw [if_pos rfl]
        simp [buildersAfter, hself]
      · rw [if_neg hi]
        have hne : record.phase ≠ .applyExtrinsic i := by
          rw [hphase]
          intro h
          exact hi (Phase.applyExtrinsic.inj h)
        simp [buildersAfter, hother i hne]
    have hstep := builderAfter_concat api block block.extrinsics[n] (eventsOf records n) record.event
    rw [addRecord, hphase]
    dsimp only
    rw [hget]
    cases hb : builderAfter api block block.extrinsics[n] (eventsOf records n) with
    | some b =>
      rw [hb] at hstep
      exact congrArg Except.ok (hset _ hstep.symm)
    | none =>
      rw [hb] at hstep
      dsimp only [Option.join]
      rw [List.getElem?_eq_getElem hn]
      dsimp only
      cases hc : createBuilder api block block.extrinsics[n] with
      | none =>
        have hlen : n < (buildersAfter api block records).length := by simpa [buildersAfter] using hn
        have hval : (buildersAfter api block records)[n] = none := by
          rw [List.getElem?_eq_getElem hlen, hb] at hget
          exact Option.some.inj hget
        have hsame : (buildersAfter api block records).set n none = buildersAfter api block records := by
          simpa [hval] using List.set_getElem_self hlen
        refine congrArg Except.ok (hsame.symm.trans (hset none ?_))
        rw [hstep, hc]
        simp
      | some b =>
        have hnil : eventsOf records n = [] := by
          by_contra hne
          rw [builderAfter, if_neg hne, hc] at hb
          cases hb
        refine congrArg Except.ok (hset _ ?_)
        rw [hstep, if_pos hnil, hc]
        rfl

theorem addRecords_eq {records rest : List EventRecord}
    (hin : ∀ record ∈ rest, ∀ i, record.phase = .applyExtrinsic i → i < block.extrinsics.length) :
    rest.foldlM (addRecord api block) (buildersAfter api block records) =
      .ok (buildersAfter api block (records ++ rest)) := by
  induction rest generalizing records with
  | nil => rw [List.append_nil]; rfl
  | cons record rest ih =>
    have hrecord := hin record List.mem_cons_self
    rw [List.foldlM_cons, addRecord_eq hrecord, ok_bind,
      ih fun r hr => hin r (List.mem_cons_of_mem record hr), List.append_assoc]
    rfl

/-- The extrinsics of a block, one by one; those without events and the `sudo` ones are left out. -/
def extrinsicsOf (api : ChainApi) (block : SignedBlockExtended) : List JsonExtrinsic :=
  ((buildersAfter api block block.events).filterMap id).map ExtrinsicBuilder.build

/-- **The result of the builder.** -/
theorem build_eq (hin : block.InRange) :
    buildExtrinsics api block = .ok (extrinsicsOf api block) := by
  have hstart : List.replicate block.extrinsics.length none = buildersAfter api block [] := by
    refine List.ext_getElem (by simp [buildersAfter]) fun i h1 h2 => ?_
    simp [buildersAfter, eventsOf, builderAfter]
  rw [buildExtrinsics, hstart, addRecords_eq hin, List.nil_append]
  rfl

/-- What adding events does not touch. -/
theorem foldl_addEvent (b : ExtrinsicBuilder) (events : List JsonEvent) :
    (events.foldl ExtrinsicBuilder.addEvent b).call = b.call ∧
      (events.foldl ExtrinsicBuilder.addEvent b).signer = b.signer ∧
      (events.foldl ExtrinsicBuilder.addEvent b).tip = b.tip ∧
      (events.foldl ExtrinsicBuilder.addEvent b).partialFee = b.partialFee ∧
      (events.foldl ExtrinsicBuilder.addEvent b).error = b.error ∧
      (events.foldl ExtrinsicBuilder.addEvent b).events = b.events ++ events := by
  induction events generalizing b with
  | nil => simp
  | cons event events ih =>
    rw [List.foldl_cons]
    obtain ⟨h1, h2, h3, h4, h5, h6⟩ := ih (b.addEvent event)
    rw [h1, h2, h3, h4, h5, h6]
    cases event <;> simp [ExtrinsicBuilder.addEvent]

/-- What a builder has from its extrinsic. -/
theorem builderAfter_ok {events : List JsonEvent} {b : ExtrinsicBuilder}
    (h : builderAfter api block tx events = some b) :
    events ≠ [] ∧ tx.extrinsic.method.isSudo = false ∧ b.call = tx.extrinsic.method ∧
      b.signer = tx.extrinsic.signer ∧ b.error = errorOf api tx := by
  unfold builderAfter at h
  split_ifs at h with hevents
  obtain ⟨b₀, hb₀, rfl⟩ := Option.map_eq_some_iff.mp h
  obtain ⟨h1, h2, -, -, h5, -⟩ := foldl_addEvent b₀ events
  rw [h1, h2, h5]
  unfold createBuilder at hb₀
  by_cases hsudo : tx.extrinsic.method.isSudo = true
  · rw [if_pos hsudo] at hb₀
    cases hb₀
  · rw [if_neg hsudo] at hb₀
    cases hb₀
    exact ⟨hevents, Bool.eq_false_iff.mpr hsudo, rfl, rfl, rfl⟩

/-- An extrinsic that is not a `sudo` one and has an event has a builder. -/
theorem builderAfter_isSome {events : List JsonEvent} (hevents : events ≠ [])
    (hsudo : tx.extrinsic.method.isSudo = false) : (builderAfter api block tx events).isSome := by
  rw [builderAfter, if_neg hevents, createBuilder, if_neg (by simp [hsudo])]
  rfl

/-- The builder of an extrinsic of the block. -/
theorem builder_ok {i : ℕ} {b : ExtrinsicBuilder} (htx : block.extrinsics[i]? = some tx)
    (hb : (buildersAfter api block block.events)[i]? = some (some b)) :
    b.build.call = tx.extrinsic.method ∧ b.build.signer = tx.extrinsic.signer ∧
      b.build.error = errorOf api tx := by
  rw [buildersAfter, List.getElem?_mapIdx, htx, Option.map_some] at hb
  exact (builderAfter_ok (Option.some.inj hb)).2.2

theorem builder_of {i : ℕ} (htx : block.extrinsics[i]? = some tx)
    (hsudo : tx.extrinsic.method.isSudo = false) (hevents : eventsOf block.events i ≠ []) :
    ∃ b, (buildersAfter api block block.events)[i]? = some (some b) := by
  have hsome : (builderAfter api block tx (eventsOf block.events i)).isSome :=
    builderAfter_isSome hevents hsudo
  obtain ⟨b, hb⟩ := Option.isSome_iff_exists.mp hsome
  refine ⟨b, ?_⟩
  rw [buildersAfter, List.getElem?_mapIdx, htx, Option.map_some, hb]

/-- The position, among the extrinsics that are built, of the extrinsic `i` of the block. -/
def builtIndex (api : ChainApi) (block : SignedBlockExtended) (i : ℕ) : ℕ :=
  (((buildersAfter api block block.events).take i).filterMap id).length

end Logion
