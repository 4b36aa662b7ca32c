import Logion.Sync.Frames

/-!
# BatchEquivalence — a batch and its calls one by one

`Batch` is a successful `utility.batchAll` extrinsic together with its leaf calls, each with the events
that it emits.  Processing the batch is compared with processing its leaves as extrinsics of their own,
in a block with the same timestamp.

* `exec_block`, `exec_leavesBlock`: both blocks are a loop over calls.
* `exec_synchronize_leaf`: the two loops do the same at a leaf that is handled alike.
* `votedLoc_others`, `votedLoc_unwrapped`: where a vote is after the leaves one by one, and in the batch.
* `equivalent_of`, `handledAlike_of`: the two directions of the condition.
* `batch_equivalent_iff`: the contract, for every batch.
-/

namespace Logion

open Effect Fallible Keyed

/-! ### Leaves -/

mutual

/-- The leaf calls of a tree of batches. -/
def Call.leaves : Call → List Call
  | .batchAll calls => Call.leavesOfAll calls
  | call => [call]

def Call.leavesOfAll : List Call → List Call
  | [] => []
  | call :: calls => call.leaves ++ Call.leavesOfAll calls

end

/-- The calls that the synchronizers name. -/
def Call.synchronized : Call → Bool
  | .logionLoc (.unknown _) => false
  | .logionLoc _ => true
  | .vote (.other _) => false
  | .vote _ => true
  | .verifiedRecovery (.createRecovery _) => true
  | _ => false

/-- The events that the vote synchronizer looks for. -/
def JsonEvent.isVote : JsonEvent → Bool
  | voteCreated _ | voteUpdated _ => true
  | _ => false

/-- The vote events that a successful call emits. -/
def Call.Emits (call : Call) (events : List JsonEvent) : Prop :=
  match call with
  | .vote (.createVoteForAllLegalOfficers _) =>
    ∃ voteId, events.filter JsonEvent.isVote = [.voteCreated (some voteId)]
  | .vote .vote => ∃ data, events.filter JsonEvent.isVote = [.voteUpdated (some data)]
  | _ => events.filter JsonEvent.isVote = []

/-- A leaf call with the events that it emits, and the fee that it has as an extrinsic of its own. -/
structure Leaf where
  call : Call
  events : List JsonEvent
  fee : ℕ
  synchronized : call.synchronized = true
  emits : call.Emits events
  fee_pos : 0 < fee

/-- A successful signed extrinsic with the given call, events and fee. -/
def successful (signer : String) (call : Call) (events : List JsonEvent) (fee : ℕ) : JsonExtrinsic :=
  (events.foldl ExtrinsicBuilder.addEvent {
    call := call
    signer := some signer
    tip := some 0
    partialFee := fee
    error := .ok none }).build

/-- The leaf as an extrinsic of its own. -/
def Leaf.extrinsic (leaf : Leaf) (signer : String) : JsonExtrinsic :=
  successful signer leaf.call leaf.events leaf.fee

/-- The LOC that a leaf creates a vote for. -/
def Leaf.createdFor (leaf : Leaf) : Option UUID :=
  match leaf.call with
  | .vote (.createVoteForAllLegalOfficers locId) => some locId
  | _ => none

def Leaf.createsVote (leaf : Leaf) : Bool := leaf.createdFor.isSome

def Leaf.castsVote (leaf : Leaf) : Bool :=
  match leaf.call with
  | .vote .vote => true
  | _ => false

/-- The ids of the votes that a leaf creates. -/
def Leaf.createdVotes (leaf : Leaf) : List (Option String) :=
  leaf.events.filterMap JsonEvent.voteCreated?

/-! ### Batches -/

/-- A successful `utility.batchAll` extrinsic: its leaf calls emit its vote events, in order, and the
votes that they create are different ones. -/
structure Batch where
  signer : String
  calls : List Call
  leaves : List Leaf
  events : List JsonEvent
  fee : ℕ
  leaves_calls : leaves.map Leaf.call = (Call.batchAll calls).leaves
  leaves_events : events.filter JsonEvent.isVote =
    leaves.flatMap fun leaf => leaf.events.filter JsonEvent.isVote
  createdVotes_nodup : (leaves.flatMap Leaf.createdVotes).Nodup

/-- The inherent extrinsic of a block. -/
def timestampExtrinsic (now : ℕ) : JsonExtrinsic where
  call := .timestamp now
  signer := none

namespace Batch

def extrinsic (b : Batch) : JsonExtrinsic := successful b.signer (.batchAll b.calls) b.events b.fee

/-- A block with the batch. -/
def block (b : Batch) (number : ℤ) (chain : ChainType) (now : ℕ) : BlockExtrinsics where
  number := number
  chain := chain
  extrinsics := [timestampExtrinsic now, b.extrinsic]

/-- A block with the leaves of the batch as extrinsics of their own. -/
def leavesBlock (b : Batch) (number : ℤ) (chain : ChainType) (now : ℕ) : BlockExtrinsics where
  number := number
  chain := chain
  extrinsics := timestampExtrinsic now :: b.leaves.map fun leaf => leaf.extrinsic b.signer

end Batch

/-! ### Fee amounts -/

def withoutFee : (k : ItemKind) → ItemData k → ItemData k
  | .metadata, (data : MetadataData) => ({ data with inclusionFee := none } : MetadataData)
  | .file, (data : FileData) => ({ data with fees := none } : FileData)
  | .link, (data : LinkData) => ({ data with inclusionFee := none } : LinkData)

def Item.withoutFee {k : ItemKind} (item : Item k) : Item k :=
  { item with data := Logion.withoutFee k item.data }

def LocRequest.withoutFees (l : LocRequest) : LocRequest :=
  { l with
    metadata := l.metadata.map Item.withoutFee
    files := l.files.map Item.withoutFee
    links := l.links.map Item.withoutFee }

/-- The database without its transactions and the fee amounts of its items. -/
def Database.withoutFees (db : Database) : Database :=
  { db.core with locRequests := db.locRequests.map LocRequest.withoutFees }

/-- **The batch is equivalent to its leaves**: it is processed, and leaves what its leaves leave. -/
def Batch.Equivalent [LegalOfficers] [Vault] (b : Batch) (number : ℤ) (chain : ChainType) (now : ℕ)
    (s : Store) : Prop :=
  ∃ s', exec (processExtrinsics (b.block number chain now)) s = (.ok (), s') ∧
    s'.db.withoutFees =
      (exec (processExtrinsics (b.leavesBlock number chain now)) s).2.db.withoutFees

/-! ### When the two do the same -/

namespace Batch

/-- Every leaf is a call of the batch itself, none is in a nested one. -/
def Flat (b : Batch) : Prop := ∀ call ∈ b.calls, call.leaves = [call] ∨ call.leaves = []

/-- No leaf is nested or needs a fee, and there is one leaf at most for each kind of vote event. -/
structure HandledAlike (b : Batch) (db : Database) : Prop where
  noFee : ∀ leaf ∈ b.leaves, ¬ leaf.call.NeedsFee db
  oneCreated : (b.leaves.filter Leaf.createsVote).length ≤ 1
  oneCast : (b.leaves.filter Leaf.castsVote).length ≤ 1

end Batch

/-! ### The two blocks as loops -/

section

variable {e : JsonExtrinsic} {s : Store} {timestamp : Moment} {signer : String} {call : Call}
  {events : List JsonEvent} {fee : ℕ}

@[simp] theorem successful_call : (successful signer call events fee).call = call :=
  (foldl_addEvent _ events).1

@[simp] theorem successful_signer : (successful signer call events fee).signer = some signer :=
  (foldl_addEvent _ events).2.1

@[simp] theorem successful_error : (successful signer call events fee).error = .ok none :=
  (foldl_addEvent _ events).2.2.2.2.1

@[simp] theorem successful_events : (successful signer call events fee).events = events :=
  (foldl_addEvent _ events).2.2.2.2.2

/-- The extraction of a generic extrinsic does not throw. -/
theorem extractFrom_returns [Vault] (he : Returns e.error)
    (htype : determineType e = .timestamp ∨ determineType e = .genericTransaction) (index : ℕ) :
    Returns (extractFrom e index) := by
  obtain ⟨error, he⟩ := he
  have herror : ∃ error, transactionError e = .ok error := ⟨_, by rw [transactionError, he]; rfl⟩
  obtain ⟨error, herror⟩ := herror
  unfold extractFrom
  rcases htype with htype | htype
  · rw [if_pos htype]
    exact returns_ok _
  · rw [if_neg (by rw [htype]; simp)]
    cases e.signer with
    | none => exact returns_ok _
    | some signer =>
      have hparties : transferParties e signer = .ok { fromAddress := signer } := by
        rw [transferParties, htype]
        rfl
      dsimp only
      rw [extractTransactions, hparties, htype, herror]
      exact returns_ok _

variable [LegalOfficers]

/-- The synchronizers ignore a timestamp and a batch. -/
theorem synchronize_ignores (h : (∃ now, e.call = .timestamp now) ∨ ∃ calls, e.call = .batchAll calls) :
    exec (synchronize timestamp e) s = (.ok (), s) := by
  rw [synchronize, updateLocRequests, updateAccountRecoveryRequests, updateVotes]
  rcases h with ⟨now, h⟩ | ⟨calls, h⟩
  · rw [h]
    rfl
  · rw [h]
    rfl

variable [Vault]

/-- As far as everything but the transactions is concerned, a block whose extraction does not throw is
the loop over its unwrapped extrinsics. -/
theorem exec_processed {block : BlockExtrinsics} {unwrapped : List JsonExtrinsic}
    (ht : getBlockTimestamp block = some timestamp) (hrows : Returns (extractRows block))
    (hunwrap : unwrapExtrinsics block.extrinsics = .ok unwrapped) (s : Store) :
    (exec (processExtrinsics block) s).1 = (exec (forEach (synchronize timestamp) unwrapped) s).1 ∧
      SameCore (exec (processExtrinsics block) s).2
        (exec (forEach (synchronize timestamp) unwrapped) s).2 := by
  obtain ⟨rows, hrows⟩ := hrows
  rw [exec_processExtrinsics, ht, hrows, hunwrap]
  exact (OnCore.forEach (onCore_synchronize timestamp) unwrapped).agree _ _
    (addAll_sameCore s rows [])

omit [LegalOfficers] in
theorem extractRows_returns {block : BlockExtrinsics}
    (h : ∀ e ∈ block.extrinsics, ∀ index, Returns (extractFrom e index)) :
    Returns (extractRows block) := by
  refine returns_map.mpr (mapM_returns.mpr fun entry hentry => h _ ?_ _)
  exact (List.mem_zipIdx' hentry).2 ▸ List.getElem_mem _

end

namespace Batch

variable [LegalOfficers] [Vault] (b : Batch) (number : ℤ) (chain : ChainType) (now : ℕ) (s : Store)

/-- The loop over the calls of the batch. -/
abbrev batchLoop : DbM Unit :=
  forEach (synchronize (getTimestamp now)) (b.calls.map (unwrapCall b.extrinsic))

/-- The loop over the leaves. -/
abbrev leavesLoop : DbM Unit :=
  forEach (fun leaf => synchronize (getTimestamp now) (leaf.extrinsic b.signer)) b.leaves

theorem exec_block :
    (exec (processExtrinsics (b.block number chain now)) s).1 = (exec (b.batchLoop now) s).1 ∧
      SameCore (exec (processExtrinsics (b.block number chain now)) s).2
        (exec (b.batchLoop now) s).2 := by
  have hrows : Returns (extractRows (b.block number chain now)) := by
    refine extractRows_returns fun e he index => ?_
    simp only [block, List.mem_cons, List.not_mem_nil, or_false] at he
    rcases he with rfl | rfl
    · exact extractFrom_returns (returns_ok _) (.inl rfl) index
    · refine extractFrom_returns ?_ (.inr ?_) index
      · rw [extrinsic, successful_error]
        exact returns_ok _
      · rw [determineType, extrinsic, successful_call]
  have hunwrap : unwrapExtrinsics (b.block number chain now).extrinsics =
      .ok (timestampExtrinsic now :: b.extrinsic :: b.calls.map (unwrapCall b.extrinsic)) := by
    have hbatch : unwrapExtrinsic b.extrinsic =
        .ok (b.extrinsic :: b.calls.map (unwrapCall b.extrinsic)) := by
      have hcall : b.extrinsic.call = .batchAll b.calls := successful_call
      have herror : b.extrinsic.error = .ok none := successful_error
      rw [unwrapExtrinsic, hcall, herror]
      rfl
    have htime : unwrapExtrinsic (timestampExtrinsic now) = .ok [timestampExtrinsic now] := rfl
    simp [unwrapExtrinsics, block, hbatch, htime]
  have hcall : b.extrinsic.call = .batchAll b.calls := successful_call
  have hloop := exec_processed rfl hrows hunwrap s
  rw [exec_forEach_cons, synchronize_ignores (.inl ⟨now, rfl⟩)] at hloop
  dsimp only at hloop
  rw [exec_forEach_cons, synchronize_ignores (.inr ⟨b.calls, hcall⟩)] at hloop
  exact hloop

theorem exec_leavesBlock :
    (exec (processExtrinsics (b.leavesBlock number chain now)) s).1 =
        (exec (b.leavesLoop now) s).1 ∧
      SameCore (exec (processExtrinsics (b.leavesBlock number chain now)) s).2
        (exec (b.leavesLoop now) s).2 := by
  have hmem : ∀ e ∈ (b.leavesBlock number chain now).extrinsics, e = timestampExtrinsic now ∨
      ∃ leaf : Leaf, e = leaf.extrinsic b.signer := by
    intro e he
    simp only [leavesBlock, List.mem_cons, List.mem_map] at he
    rcases he with rfl | ⟨leaf, -, rfl⟩
    · exact .inl rfl
    · exact .inr ⟨leaf, rfl⟩
  have hgeneric : ∀ leaf : Leaf, determineType (leaf.extrinsic b.signer) = .genericTransaction ∧
      unwrapExtrinsic (leaf.extrinsic b.signer) = .ok [leaf.extrinsic b.signer] := by
    intro leaf
    have hsync := leaf.synchronized
    have hcall : (leaf.extrinsic b.signer).call = leaf.call := successful_call
    rw [determineType, unwrapExtrinsic, hcall]
    cases hleaf : leaf.call with
    | logionLoc | vote | verifiedRecovery => exact ⟨rfl, rfl⟩
    | _ =>
      rw [hleaf] at hsync
      cases hsync
  have hrows : Returns (extractRows (b.leavesBlock number chain now)) := by
    refine extractRows_returns fun e he index => ?_
    rcases hmem e he with rfl | ⟨leaf, rfl⟩
    · exact extractFrom_returns (returns_ok _) (.inl rfl) index
    · refine extractFrom_returns ?_ (.inr (hgeneric leaf).1) index
      rw [Leaf.extrinsic, successful_error]
      exact returns_ok _
  have hunwrap : unwrapExtrinsics (b.leavesBlock number chain now).extrinsics =
      .ok (b.leavesBlock number chain now).extrinsics := by
    refine unwrapExtrinsics_fixed fun e he => ?_
    rcases hmem e he with rfl | ⟨leaf, rfl⟩
    · rfl
    · exact (hgeneric leaf).2
  have hloop := exec_processed rfl hrows hunwrap s
  rw [leavesBlock, exec_forEach_cons, synchronize_ignores (.inl ⟨now, rfl⟩), forEach_map] at hloop
  exact hloop

/-- The equivalence is one of the two loops. -/
theorem equivalent_iff : b.Equivalent number chain now s ↔
    ∃ s', exec (b.batchLoop now) s = (.ok (), s') ∧
      s'.db.withoutFees = (exec (b.leavesLoop now) s).2.db.withoutFees := by
  have hfees : ∀ {s s' : Store}, SameCore s s' → s.db.withoutFees = s'.db.withoutFees := by
    intro s s' h
    have hcore : s.db.core = s'.db.core := h
    exact congrArg (fun db : Database =>
      { db with locRequests := db.locRequests.map LocRequest.withoutFees }) hcore
  obtain ⟨h1, h2⟩ := b.exec_block number chain now s
  have h4 := (b.exec_leavesBlock number chain now s).2
  unfold Equivalent
  rw [hfees h4]
  constructor
  · rintro ⟨s', h, hs'⟩
    rw [h] at h1 h2
    exact ⟨(exec (b.batchLoop now) s).2, Prod.ext h1.symm rfl, (hfees h2).symm.trans hs'⟩
  · rintro ⟨s', h, hs'⟩
    rw [h] at h1 h2
    exact ⟨(exec (processExtrinsics (b.block number chain now)) s).2, Prod.ext h1 rfl,
      (hfees h2).trans hs'⟩

end Batch

/-! ### The loop over a batch without nested leaves -/

section

variable [LegalOfficers] {e : JsonExtrinsic} {timestamp : Moment}

/-- Calls without a leaf are ignored. -/
theorem exec_forEach_leaves {calls : List Call}
    (hflat : ∀ call ∈ calls, call.leaves = [call] ∨ call.leaves = []) (s : Store) :
    exec (forEach (synchronize timestamp) (calls.map (unwrapCall e))) s =
      exec (forEach (synchronize timestamp) ((Call.leavesOfAll calls).map (unwrapCall e))) s := by
  induction calls generalizing s with
  | nil => rfl
  | cons call calls ih =>
    have ih := ih fun call' hcall' => hflat call' (List.mem_cons_of_mem call hcall')
    rw [List.map_cons, exec_forEach_cons, Call.leavesOfAll]
    rcases hflat call List.mem_cons_self with hleaves | hleaves
    · rw [hleaves, List.singleton_append, List.map_cons, exec_forEach_cons]
      simp only [ih]
    · have hbatch : ∃ calls, call = .batchAll calls := by
        cases call with
        | batchAll calls => exact ⟨calls, rfl⟩
        | _ => cases hleaves
      rw [hleaves, List.nil_append, synchronize_ignores (.inr hbatch)]
      exact ih s

end

/-! ### The vote events of a leaf and of a batch -/

theorem filterMap_isVote {α : Type} {kind : JsonEvent → Option α}
    (hkind : ∀ event, event.isVote = false → kind event = none) (events : List JsonEvent) :
    events.filterMap kind = (events.filter JsonEvent.isVote).filterMap kind := by
  rw [List.filterMap_filter]
  refine List.filterMap_congr fun event _ => ?_
  split_ifs with h
  · rfl
  · exact hkind event (by simpa using h)

theorem voteCreated?_of_not_isVote (event : JsonEvent) (h : event.isVote = false) :
    event.voteCreated? = none := by
  cases event with
  | voteCreated => cases h
  | _ => rfl

theorem voteUpdated?_of_not_isVote (event : JsonEvent) (h : event.isVote = false) :
    event.voteUpdated? = none := by
  cases event with
  | voteUpdated => cases h
  | _ => rfl

/-- The elements that contribute nothing can be left out. -/
theorem flatMap_eq_filter {α β : Type} {p : α → Bool} {f : α → List β} {as : List α}
    (h : ∀ a, p a = false → f a = []) : as.flatMap f = (as.filter p).flatMap f := by
  induction as with
  | nil => rfl
  | cons a as ih =>
    rw [List.flatMap_cons, ih, List.filter_cons]
    split_ifs with hp
    · rw [List.flatMap_cons]
    · rw [h a (by simpa using hp), List.nil_append]

namespace Leaf

variable (leaf : Leaf)

/-- The data of the ballots that a leaf casts. -/
def castBallots : List (Option VoteUpdated) := leaf.events.filterMap JsonEvent.voteUpdated?

theorem createdVotes_of_not_createsVote (h : leaf.createsVote = false) : leaf.createdVotes = [] := by
  have hemits := leaf.emits
  rw [createdVotes, filterMap_isVote voteCreated?_of_not_isVote]
  unfold createsVote createdFor at h
  unfold Call.Emits at hemits
  split at hemits
  · rename_i hcall
    rw [hcall] at h
    cases h
  · obtain ⟨data, hdata⟩ := hemits
    rw [hdata]
    rfl
  · rw [hemits]
    rfl

theorem castBallots_of_not_castsVote (h : leaf.castsVote = false) : leaf.castBallots = [] := by
  have hemits := leaf.emits
  rw [castBallots, filterMap_isVote voteUpdated?_of_not_isVote]
  unfold castsVote at h
  unfold Call.Emits at hemits
  split at hemits
  · obtain ⟨voteId, hvoteId⟩ := hemits
    rw [hvoteId]
    rfl
  · rename_i hcall
    rw [hcall] at h
    cases h
  · rw [hemits]
    rfl

theorem createdVotes_of_create {locId : UUID}
    (h : leaf.call = .vote (.createVoteForAllLegalOfficers locId)) :
    ∃ voteId, leaf.createdVotes = [some voteId] := by
  have hemits := leaf.emits
  rw [h] at hemits
  obtain ⟨voteId, hvoteId⟩ := hemits
  refine ⟨voteId, ?_⟩
  rw [createdVotes, filterMap_isVote voteCreated?_of_not_isVote, hvoteId]
  rfl

theorem createsVote_iff : leaf.createsVote = true ↔
    ∃ locId, leaf.call = .vote (.createVoteForAllLegalOfficers locId) := by
  unfold createsVote createdFor
  split
  · rename_i locId hcall
    exact iff_of_true rfl ⟨locId, hcall⟩
  · rename_i hcall
    refine iff_of_false (by simp) ?_
    rintro ⟨locId, h⟩
    exact hcall locId h

theorem castsVote_iff : leaf.castsVote = true ↔ leaf.call = .vote .vote := by
  unfold castsVote
  split
  · rename_i hcall
    exact iff_of_true rfl hcall
  · rename_i hcall
    exact iff_of_false (by simp) hcall

end Leaf

namespace Batch

variable (b : Batch)

/-- A leaf as the code unwraps it from the batch. -/
abbrev unwrapped (leaf : Leaf) : JsonExtrinsic := unwrapCall b.extrinsic leaf.call

/-- The vote data that the code finds, whichever leaf it looks at. -/
theorem findEventsData_unwrapped {α : Type} {kind : JsonEvent → Option α}
    (hkind : ∀ event, event.isVote = false → kind event = none) (leaf : Leaf) :
    findEventsData (b.unwrapped leaf) kind =
      b.leaves.flatMap fun leaf => leaf.events.filterMap kind := by
  have hevents : (b.unwrapped leaf).events = b.events := successful_events
  rw [findEventsData, hevents, filterMap_isVote hkind, b.leaves_events, List.filterMap_flatMap]
  simp only [← filterMap_isVote hkind]

theorem findCreated_unwrapped (leaf : Leaf) :
    findEventsData (b.unwrapped leaf) JsonEvent.voteCreated? =
      (b.leaves.filter Leaf.createsVote).flatMap Leaf.createdVotes := by
  rw [b.findEventsData_unwrapped voteCreated?_of_not_isVote]
  exact flatMap_eq_filter fun leaf => leaf.createdVotes_of_not_createsVote

theorem findUpdated_unwrapped (leaf : Leaf) :
    findEventsData (b.unwrapped leaf) JsonEvent.voteUpdated? =
      (b.leaves.filter Leaf.castsVote).flatMap Leaf.castBallots := by
  rw [b.findEventsData_unwrapped voteUpdated?_of_not_isVote]
  exact flatMap_eq_filter fun leaf => leaf.castBallots_of_not_castsVote

end Batch

/-- The only element of a list that is kept. -/
theorem filter_eq_singleton {α : Type} {p : α → Bool} {as : List α} {a : α} (ha : a ∈ as)
    (hp : p a = true) (h : (as.filter p).length ≤ 1) : as.filter p = [a] := by
  have hmem : a ∈ as.filter p := List.mem_filter.mpr ⟨ha, hp⟩
  rcases hfilter : as.filter p with _ | ⟨a', _ | ⟨a'', rest⟩⟩
  · rw [hfilter] at hmem
    cases hmem
  · rw [hfilter] at hmem
    rw [List.mem_singleton.mp hmem]
  · rw [hfilter] at h
    simp at h

/-! ### A leaf that is handled alike -/

namespace Batch

variable [LegalOfficers] (b : Batch) {s s' : Store}

theorem exec_batchLoop (hflat : b.Flat) (now : ℕ) (s : Store) :
    exec (b.batchLoop now) s =
      exec (forEach (fun leaf => synchronize (getTimestamp now) (b.unwrapped leaf)) b.leaves) s := by
  have hleaves : Call.leavesOfAll b.calls = b.leaves.map Leaf.call := b.leaves_calls.symm
  rw [batchLoop, exec_forEach_leaves hflat, hleaves, List.map_map, forEach_map]
  rfl

omit [LegalOfficers] in
/-- The only leaf of its kind finds the same data in the batch and on its own. -/
theorem findEventsData_only {α : Type} {kind : JsonEvent → Option α} {p : Leaf → Bool} {leaf : Leaf}
    (hfind : findEventsData (b.unwrapped leaf) kind =
      (b.leaves.filter p).flatMap fun leaf => leaf.events.filterMap kind)
    (hleaf : leaf ∈ b.leaves) (hp : p leaf = true) (hone : (b.leaves.filter p).length ≤ 1) :
    findEventsData (b.unwrapped leaf) kind = findEventsData (leaf.extrinsic b.signer) kind := by
  have hevents : (leaf.extrinsic b.signer).events = leaf.events := successful_events
  rw [hfind, filter_eq_singleton hleaf hp hone, findEventsData, hevents, List.flatMap_singleton]

/-- **A leaf that is handled alike** has the same effect in the batch and on its own. -/
theorem exec_synchronize_leaf (halike : b.HandledAlike s.db) {leaf : Leaf} (hleaf : leaf ∈ b.leaves)
    (timestamp : Moment)
    (hids : s'.db.locRequests.map LocRequest.id = s.db.locRequests.map LocRequest.id) :
    exec (synchronize timestamp (b.unwrapped leaf)) s' =
      exec (synchronize timestamp (leaf.extrinsic b.signer)) s' := by
  have hsigner : (b.unwrapped leaf).signer = (leaf.extrinsic b.signer).signer :=
    successful_signer.trans successful_signer.symm
  have hcall : (leaf.extrinsic b.signer).call = leaf.call := successful_call
  have herror : (leaf.extrinsic b.signer).error = .ok none := successful_error
  cases hleafCall : leaf.call with
  | logionLoc call =>
    rw [synchronize_logionLoc rfl hleafCall, synchronize_logionLoc herror (hcall.trans hleafCall)]
    refine updateLoc_congr hsigner fun hneeds => halike.noFee leaf hleaf ?_
    rw [hleafCall]
    cases call with
    | create => trivial
    | addMetadata | addFile | addLink => exact (findLoc_isSome_congr hids).symm.trans hneeds
    | _ => exact hneeds
  | vote call =>
    rw [synchronize_vote rfl hleafCall, synchronize_vote herror (hcall.trans hleafCall)]
    cases call with
    | createVoteForAllLegalOfficers locId =>
      have hdata : findEventsData (b.unwrapped leaf) JsonEvent.voteCreated? =
          findEventsData (leaf.extrinsic b.signer) JsonEvent.voteCreated? :=
        b.findEventsData_only (b.findCreated_unwrapped leaf) hleaf
          (leaf.createsVote_iff.mpr ⟨locId, hleafCall⟩) halike.oneCreated
      rw [handleVote, handleVote, addVote, addVote, extractVoteId, extractVoteId, hdata]
    | vote =>
      have hdata : findEventsData (b.unwrapped leaf) JsonEvent.voteUpdated? =
          findEventsData (leaf.extrinsic b.signer) JsonEvent.voteUpdated? :=
        b.findEventsData_only (b.findUpdated_unwrapped leaf) hleaf
          (leaf.castsVote_iff.mpr hleafCall) halike.oneCast
      rw [handleVote, handleVote, updateVote, updateVote, hdata]
    | other method => rfl
  | verifiedRecovery call =>
    have hunwrapped : (b.unwrapped leaf).call = leaf.call := rfl
    rw [synchronize_other (by simp [hunwrapped, hleafCall]) (by simp [hunwrapped, hleafCall]),
      synchronize_other (by simp [hcall, hleafCall]) (by simp [hcall, hleafCall])]
    have hactivate : activateRecoveries (b.unwrapped leaf) =
        activateRecoveries (leaf.extrinsic b.signer) := by
      funext legalOfficer
      rw [activateRecoveries, activateRecoveries, hsigner]
    rw [updateAccountRecoveryRequests, updateAccountRecoveryRequests, hcall, hunwrapped, hleafCall,
      hactivate]
    dsimp only
    rw [unlessError_success rfl, unlessError_success herror]
  | _ =>
    have hsync := leaf.synchronized
    rw [hleafCall] at hsync
    cases hsync

/-- The two loops are one when every leaf is handled alike. -/
theorem exec_loops (hflat : b.Flat) (halike : b.HandledAlike s.db) (now : ℕ) :
    exec (b.batchLoop now) s = exec (b.leavesLoop now) s := by
  rw [b.exec_batchLoop hflat]
  exact exec_forEach_congr (fun leaf => keeps_locIds) fun leaf hleaf s' hids =>
    b.exec_synchronize_leaf halike hleaf _ hids

end Batch

/-! ### The converse -/

/-- Two elements of a list that are kept, the first one being the first of all. -/
theorem filter_two {α : Type} {p : α → Bool} {as : List α} (h : ¬ (as.filter p).length ≤ 1) :
    ∃ pre a mid c post, as = pre ++ a :: (mid ++ c :: post) ∧ (∀ x ∈ pre, p x = false) ∧
      p a = true ∧ p c = true := by
  rcases hfilter : as.filter p with _ | ⟨a, _ | ⟨c, rest⟩⟩
  · rw [hfilter] at h
    simp at h
  · rw [hfilter] at h
    simp at h
  · obtain ⟨pre, tail, rfl, hpre, ha, htail⟩ := List.filter_eq_cons_iff.mp hfilter
    obtain ⟨mid, post, rfl, -, hc, -⟩ := List.filter_eq_cons_iff.mp htail
    exact ⟨pre, a, mid, c, post, rfl, fun x hx => by simpa using hpre x hx, ha, hc⟩

namespace Batch

variable [LegalOfficers] (b : Batch) {s s₁ s₂ : Store} {timestamp : Moment}

/-- The loop that the code makes, over the leaves of a batch without nested ones. -/
abbrev unwrappedLoop (timestamp : Moment) : DbM Unit :=
  forEach (fun leaf => synchronize timestamp (b.unwrapped leaf)) b.leaves

omit [LegalOfficers] in
theorem needsFee_congr {call : Call}
    (hids : s₁.db.locRequests.map LocRequest.id = s.db.locRequests.map LocRequest.id) :
    call.NeedsFee s₁.db ↔ call.NeedsFee s.db := by
  unfold Call.NeedsFee
  split
  · rfl
  · rw [findLoc_isSome_congr hids]
  · rw [findLoc_isSome_congr hids]
  · rw [findLoc_isSome_congr hids]
  · rfl

theorem noFee_of (h : exec (b.unwrappedLoop timestamp) s = (.ok (), s₁)) :
    ∀ leaf ∈ b.leaves, ¬ leaf.call.NeedsFee s.db := by
  intro leaf hleaf hneeds
  obtain ⟨pre, post, hsplit⟩ := List.append_of_mem hleaf
  rw [unwrappedLoop, hsplit] at h
  obtain ⟨s', s'', hpre, hself, -⟩ := forEach_ok h
  have hids := (Keeps.forEach (fun leaf => keeps_locIds (e := b.unwrapped leaf)) pre).eq hpre
  exact not_completes_of_needsFee (e := b.unwrapped leaf) rfl rfl ((needsFee_congr hids).mpr hneeds)
    ⟨(), s'', hself⟩

/-- A second `vote` casts the first ballot again, which is refused. -/
theorem oneCast_of (h : exec (b.unwrappedLoop timestamp) s = (.ok (), s₁)) :
    (b.leaves.filter Leaf.castsVote).length ≤ 1 := by
  by_contra htwo
  obtain ⟨pre, a, mid, c, post, hsplit, -, ha, hc⟩ := filter_two htwo
  rw [unwrappedLoop, hsplit] at h
  obtain ⟨s', s'', -, hfirst, hrest⟩ := forEach_ok h
  obtain ⟨t', t'', hmid, hsecond, -⟩ := forEach_ok hrest
  have hdata : ∀ leaf : Leaf, findEventsData (b.unwrapped leaf) JsonEvent.voteUpdated? =
      findEventsData (b.unwrapped a) JsonEvent.voteUpdated? := by
    intro leaf
    rw [b.findUpdated_unwrapped, b.findUpdated_unwrapped]
  have hcast : ∀ {leaf : Leaf} {t t' : Store}, leaf.castsVote = true →
      exec (synchronize timestamp (b.unwrapped leaf)) t = (.ok (), t') →
      ∃ data, (findEventsData (b.unwrapped a) JsonEvent.voteUpdated?).head? = some (some data) ∧
        t.db.updateVote data = .ok (some t'.db) := by
    intro leaf t t' hleaf hexec
    have hcall : (b.unwrapped leaf).call = .vote .vote := leaf.castsVote_iff.mp hleaf
    rcases synchronize_votes rfl hexec with ⟨locId, -, hcreate, -⟩ | ⟨data, -, hhead, hupdate⟩ |
      ⟨-, hnot, -⟩
    · rw [hcall] at hcreate
      cases hcreate
    · exact ⟨data, hdata leaf ▸ hhead, hupdate⟩
    · exact absurd hcall hnot
  obtain ⟨data, hhead, hupdate⟩ := hcast ha hfirst
  obtain ⟨data', hhead', hupdate'⟩ := hcast hc hsecond
  rw [hhead] at hhead'
  cases hhead'
  obtain ⟨_, hdb, -, hballot, -⟩ := updateVote_ok hupdate
  cases hdb
  -- the ballot is still there when the second `vote` comes
  have hkept : t'.db.HasBallot data.voteId data.voter := by
    refine forEach_invariant (I := fun s => s.db.HasBallot data.voteId data.voter)
      (fun leaf _ t t' hI hexec => ?_) hballot hmid
    rcases synchronize_votes (e := b.unwrapped leaf) rfl hexec with
      ⟨_, _, -, -, hadd⟩ | ⟨_, -, -, hadd⟩ | ⟨-, -, hvotes⟩
    · obtain ⟨_, hdb, -, -, hkeep⟩ := addVote_ok hadd
      cases hdb
      exact hkeep _ _ hI
    · obtain ⟨_, hdb, -, -, -, hkeep⟩ := updateVote_ok hadd
      cases hdb
      exact hkeep _ _ hI
    · unfold Database.HasBallot
      rw [hvotes]
      exact hI
  obtain ⟨_, -, hno, -⟩ := updateVote_ok hupdate'
  exact hno hkept

omit [LegalOfficers] in
/-- The vote that a leaf creates on its own. -/
theorem extractVoteId_extrinsic {leaf : Leaf} {v : String} (hv : leaf.createdVotes = [some v]) :
    extractVoteId (leaf.extrinsic b.signer) = .ok v := by
  have hevents : (leaf.extrinsic b.signer).events = leaf.events := successful_events
  have hfind : findEventsData (leaf.extrinsic b.signer) JsonEvent.voteCreated? = [some v] := by
    rw [findEventsData, hevents]
    exact hv
  rw [extractVoteId, hfind]
  rfl

omit [LegalOfficers] in
/-- The vote that a leaf finds in the batch: the first one of all. -/
theorem extractVoteId_unwrapped {v : String} {vs : List (Option String)}
    (hv : b.leaves.flatMap Leaf.createdVotes = some v :: vs) (leaf : Leaf) :
    extractVoteId (b.unwrapped leaf) = .ok v := by
  have hfind : findEventsData (b.unwrapped leaf) JsonEvent.voteCreated? =
      b.leaves.flatMap Leaf.createdVotes := b.findEventsData_unwrapped voteCreated?_of_not_isVote leaf
  rw [extractVoteId, hfind, hv]
  rfl

/-- On its own, the leaf that creates a vote leaves it on its LOC. -/
theorem votedLoc_created {leaf : Leaf} {v : String} {loc : UUID} {t t' : Store}
    (hcreate : leaf.call = .vote (.createVoteForAllLegalOfficers loc))
    (hv : leaf.createdVotes = [some v])
    (hexec : exec (synchronize timestamp (leaf.extrinsic b.signer)) t = (.ok (), t')) :
    t'.db.votedLoc v = some loc := by
  have hcall : (leaf.extrinsic b.signer).call = leaf.call := successful_call
  rcases synchronize_votedLoc successful_error hexec with ⟨l, w, hl, hid, -, hloc⟩ | ⟨hnot, -⟩
  · rw [← Leaf.extrinsic, hcall, hcreate] at hl
    cases hl
    have hvw : v = w := Except.ok.inj ((b.extractVoteId_extrinsic hv).symm.trans hid)
    rw [hloc, if_pos hvw]
  · exact absurd (hcall.trans hcreate) (hnot loc)

/-- On its own, a leaf does not move the vote of another one, and its LOC has no vote before. -/
theorem votedLoc_other {leaf : Leaf} {v : String} {loc : UUID} {t t' : Store}
    (hother : ∀ w, leaf.createdVotes = [some w] → w ≠ v) (hI : t.db.votedLoc v = some loc)
    (hexec : exec (synchronize timestamp (leaf.extrinsic b.signer)) t = (.ok (), t')) :
    t'.db.votedLoc v = some loc ∧
      ∀ l, leaf.call = .vote (.createVoteForAllLegalOfficers l) → l ≠ loc := by
  have hcall : (leaf.extrinsic b.signer).call = leaf.call := successful_call
  rcases synchronize_votedLoc successful_error hexec with ⟨l, w, hcreate, hid, hunique, hloc⟩ |
    ⟨hnot, hloc⟩
  · rw [← Leaf.extrinsic, hcall] at hcreate
    obtain ⟨w', hw⟩ := leaf.createdVotes_of_create hcreate
    have hww : w' = w := Except.ok.inj ((b.extractVoteId_extrinsic hw).symm.trans hid)
    have hne : v ≠ w := fun heq => hother w' hw (hww.trans heq.symm)
    refine ⟨by rw [hloc, if_neg hne, hI], ?_⟩
    intro l' hl' heq
    rw [hcreate] at hl'
    cases hl'
    obtain ⟨vote, hvote, hvoteLoc⟩ := Option.map_eq_some_iff.mp hI
    refine hne ((lookup_key hvote).symm.trans (hunique vote (mem_of_lookup hvote) ?_))
    rw [hvoteLoc, heq]
  · exact ⟨by rw [hloc, hI], fun l hl => absurd (hcall.trans hl) (hnot l)⟩

/-- One by one, the leaves that create other votes leave a vote on its LOC, and none of them has it. -/
theorem votedLoc_others {leaves : List Leaf} {v : String} {loc : UUID} {t t' : Store}
    (hother : ∀ leaf ∈ leaves, ∀ w, leaf.createdVotes = [some w] → w ≠ v)
    (hI : t.db.votedLoc v = some loc)
    (hexec : exec (forEach (fun leaf => synchronize timestamp (leaf.extrinsic b.signer)) leaves) t =
      (.ok (), t')) :
    t'.db.votedLoc v = some loc ∧
      ∀ leaf ∈ leaves, ∀ l, leaf.call = .vote (.createVoteForAllLegalOfficers l) → l ≠ loc := by
  refine ⟨forEach_invariant (I := fun s => s.db.votedLoc v = some loc)
    (fun leaf hleaf _ _ hI hexec => (b.votedLoc_other (hother leaf hleaf) hI hexec).1) hI hexec, ?_⟩
  intro leaf hleaf
  obtain ⟨before, after, rfl⟩ := List.append_of_mem hleaf
  obtain ⟨u, u', hbefore, hself, -⟩ := forEach_ok hexec
  have hu : u.db.votedLoc v = some loc :=
    forEach_invariant (I := fun s => s.db.votedLoc v = some loc) (fun leaf' hleaf' _ _ hI hexec =>
      (b.votedLoc_other (hother leaf' (List.mem_append_left _ hleaf')) hI hexec).1) hI hbefore
  exact (b.votedLoc_other (hother leaf hleaf) hu hself).2

/-- In the batch, a leaf that creates a vote moves the first one to its own LOC. -/
theorem votedLoc_unwrapped {leaf : Leaf} {v : String} {t t' : Store}
    (hfirst : extractVoteId (b.unwrapped leaf) = .ok v)
    (hexec : exec (synchronize timestamp (b.unwrapped leaf)) t = (.ok (), t')) :
    (∃ l, leaf.call = .vote (.createVoteForAllLegalOfficers l) ∧ t'.db.votedLoc v = some l) ∨
      t'.db.votedLoc v = t.db.votedLoc v ∧
        ∀ l, leaf.call ≠ .vote (.createVoteForAllLegalOfficers l) := by
  rcases synchronize_votedLoc (e := b.unwrapped leaf) rfl hexec with ⟨l, w, hcreate, hid, -, hloc⟩ |
    ⟨hnot, hloc⟩
  · have hv : v = w := Except.ok.inj (hfirst.symm.trans hid)
    exact .inl ⟨l, hcreate, by rw [hloc, if_pos hv]⟩
  · exact .inr ⟨hloc v, hnot⟩

/-- A second `createVoteForAllLegalOfficers` takes the id of the first vote, which moves to its LOC. -/
theorem oneCreated_of (h : exec (b.unwrappedLoop timestamp) s = (.ok (), s₁))
    (hleaves : exec (forEach (fun leaf => synchronize timestamp (leaf.extrinsic b.signer)) b.leaves) s =
      (.ok (), s₂)) (hvotes : s₁.db.votes = s₂.db.votes) :
    (b.leaves.filter Leaf.createsVote).length ≤ 1 := by
  by_contra htwo
  obtain ⟨pre, a, mid, c, post, hsplit, hpre, ha, hc⟩ := filter_two htwo
  obtain ⟨l₁, hacall⟩ := a.createsVote_iff.mp ha
  obtain ⟨l₂, hccall⟩ := c.createsVote_iff.mp hc
  obtain ⟨v₁, hv₁⟩ := a.createdVotes_of_create hacall
  have hcreated : b.leaves.flatMap Leaf.createdVotes =
      some v₁ :: (mid ++ c :: post).flatMap Leaf.createdVotes := by
    have hnil : pre.flatMap Leaf.createdVotes = [] :=
      List.flatMap_eq_nil_iff.mpr fun leaf hleaf => leaf.createdVotes_of_not_createsVote (hpre leaf hleaf)
    rw [hsplit, List.flatMap_append, hnil, List.flatMap_cons, hv₁]
    rfl
  have hother : ∀ leaf ∈ mid ++ c :: post, ∀ v, leaf.createdVotes = [some v] → v ≠ v₁ := by
    rintro leaf hleaf v hv rfl
    have hnodup := b.createdVotes_nodup
    rw [hcreated, List.nodup_cons] at hnodup
    refine hnodup.1 (List.mem_flatMap.mpr ⟨leaf, hleaf, ?_⟩)
    rw [hv]
    exact List.mem_singleton_self _
  -- one by one: the first vote stays where it is, and no other leaf has its LOC
  rw [hsplit] at hleaves
  obtain ⟨t, t', -, hfirst, hrest⟩ := forEach_ok hleaves
  obtain ⟨hend, hlocs⟩ := b.votedLoc_others hother (b.votedLoc_created hacall hv₁ hfirst) hrest
  -- in the batch: from the second creation on, the first vote is elsewhere
  rw [unwrappedLoop, hsplit, List.append_cons, ← List.append_assoc] at h
  obtain ⟨u, u', -, hsecond, hafter⟩ := forEach_ok h
  have hmoved : ∃ l, u'.db.votedLoc v₁ = some l ∧ l ≠ l₁ := by
    rcases b.votedLoc_unwrapped (b.extractVoteId_unwrapped hcreated c) hsecond with
      ⟨l, hl, hloc⟩ | ⟨-, hnot⟩
    · exact ⟨l, hloc, hlocs c (by simp) l hl⟩
    · exact absurd hccall (hnot l₂)
  obtain ⟨l, hl, hne⟩ : ∃ l, s₁.db.votedLoc v₁ = some l ∧ l ≠ l₁ := by
    refine forEach_invariant (I := fun s => ∃ l, s.db.votedLoc v₁ = some l ∧ l ≠ l₁)
      (fun leaf hleaf u u' hI hexec => ?_) hmoved hafter
    rcases b.votedLoc_unwrapped (b.extractVoteId_unwrapped hcreated leaf) hexec with
      ⟨l, hl, hloc⟩ | ⟨hloc, -⟩
    · exact ⟨l, hloc, hlocs leaf (by simp [hleaf]) l hl⟩
    · rw [hloc]
      exact hI
  have hsame : s₁.db.votedLoc v₁ = s₂.db.votedLoc v₁ := by
    unfold Database.votedLoc
    rw [hvotes]
  rw [hl, hend] at hsame
  exact hne (Option.some.inj hsame)

end Batch

/-! ### The contract -/

section

variable [LegalOfficers] [Vault]

theorem Batch.equivalent_of (b : Batch) (number : ℤ) (chain : ChainType) (now : ℕ) {s : Store}
    (hleaves : Completes (processExtrinsics (b.leavesBlock number chain now)) s) (hflat : b.Flat)
    (halike : b.HandledAlike s.db) : b.Equivalent number chain now s := by
  obtain ⟨_, s', h⟩ := hleaves
  have hresult := (b.exec_leavesBlock number chain now s).1
  rw [h] at hresult
  have hloops := b.exec_loops hflat halike now
  rw [b.equivalent_iff]
  refine ⟨(exec (b.leavesLoop now) s).2, ?_, rfl⟩
  rw [hloops]
  exact Prod.ext hresult.symm rfl

theorem Batch.handledAlike_of (b : Batch) (number : ℤ) (chain : ChainType) (now : ℕ) {s : Store}
    (hleaves : Completes (processExtrinsics (b.leavesBlock number chain now)) s) (hflat : b.Flat)
    (h : b.Equivalent number chain now s) : b.HandledAlike s.db := by
  obtain ⟨_, s', hleaves⟩ := hleaves
  have hresult := (b.exec_leavesBlock number chain now s).1
  rw [hleaves] at hresult
  obtain ⟨s₁, hbatch, hfees⟩ := (b.equivalent_iff number chain now s).mp h
  rw [b.exec_batchLoop hflat] at hbatch
  have hloop : exec (b.leavesLoop now) s = (.ok (), (exec (b.leavesLoop now) s).2) :=
    Prod.ext hresult.symm rfl
  have hvotes : s₁.db.withoutFees.votes = (exec (b.leavesLoop now) s).2.db.withoutFees.votes :=
    congrArg Database.votes hfees
  exact ⟨b.noFee_of hbatch, b.oneCreated_of hbatch hloop hvotes, b.oneCast_of hbatch⟩

/-- **Batches.**  When the leaves of a batch can be processed one by one, the batch is equivalent to
them if none of them is in a nested batch and all of them are handled alike; without nested leaves,
only then. -/
theorem batch_equivalent_iff (b : Batch) (number : ℤ) (chain : ChainType) (now : ℕ) (s : Store)
    (hleaves : Completes (processExtrinsics (b.leavesBlock number chain now)) s) :
    (b.Flat ∧ b.HandledAlike s.db → b.Equivalent number chain now s) ∧
      (b.Flat → (b.Equivalent number chain now s ↔ b.HandledAlike s.db)) :=
  ⟨fun ⟨hflat, halike⟩ => b.equivalent_of number chain now hleaves hflat halike, fun hflat =>
    ⟨b.handledAlike_of number chain now hleaves hflat, b.equivalent_of number chain now hleaves hflat⟩⟩

end

def closeLeaf : Leaf where
  call := .logionLoc (.close "loc")
  events := [.other "logionLoc" "LocClosed"]
  fee := 1
  synchronized := rfl
  emits := rfl
  fee_pos := Nat.one_pos

/-- A batch that closes a LOC. -/
def closeBatch : Batch where
  signer := "bob"
  calls := [.logionLoc (.close "loc")]
  leaves := [closeLeaf]
  events := [.other "logionLoc" "LocClosed", .other "utility" "BatchCompleted"]
  fee := 2
  leaves_calls := rfl
  leaves_events := rfl
  createdVotes_nodup := List.nodup_nil

theorem batch_equivalent_iff_close : @Batch.Equivalent noLegalOfficers noVault closeBatch 1 .solo 5000
    collectionStore :=
  (@batch_equivalent_iff noLegalOfficers noVault closeBatch 1 .solo 5000 collectionStore
    ⟨(), _, rfl⟩).1 ⟨fun call hcall => .inl (by rw [List.mem_singleton.mp hcall]; rfl),
      fun leaf hleaf => by rw [List.mem_singleton.mp hleaf]; exact id, Nat.zero_le 1, Nat.zero_le 1⟩

/-- The same call in a batch within the batch. -/
def nestedBatch : Batch where
  signer := "bob"
  calls := [.batchAll [.logionLoc (.close "loc")]]
  leaves := [closeLeaf]
  events := [.other "logionLoc" "LocClosed", .other "utility" "BatchCompleted"]
  fee := 2
  leaves_calls := rfl
  leaves_events := rfl
  createdVotes_nodup := List.nodup_nil

def createLeaf : Leaf where
  call := .logionLoc (.create .createPolkadotTransactionLoc "loc" (some emptyItems))
  events := [.other "logionLoc" "LocCreated"]
  fee := 1
  synchronized := rfl
  emits := rfl
  fee_pos := Nat.one_pos

/-- A batch that creates a LOC. -/
def createBatch : Batch where
  signer := "bob"
  calls := [.logionLoc (.create .createPolkadotTransactionLoc "loc" (some emptyItems))]
  leaves := [createLeaf]
  events := [.other "logionLoc" "LocCreated", .other "utility" "BatchCompleted"]
  fee := 2
  leaves_calls := rfl
  leaves_events := rfl
  createdVotes_nodup := List.nodup_nil

/-- The creation of a LOC in a batch stops the synchronization, and a closing in a nested batch is
ignored; one by one, both are processed. -/
theorem batches_not_equivalent :
    (Completes (@processExtrinsics noLegalOfficers noVault (createBatch.leavesBlock 1 .solo 5000))
        collectionStore ∧
      (exec (@processExtrinsics noLegalOfficers noVault (createBatch.block 1 .solo 5000))
        collectionStore).1 = .error (.error "Could not get inclusion fee") ∧
      ¬ @Batch.Equivalent noLegalOfficers noVault createBatch 1 .solo 5000 collectionStore) ∧
    (exec (@processExtrinsics noLegalOfficers noVault (nestedBatch.leavesBlock 1 .solo 5000))
        collectionStore).2.db.locRequests.map LocRequest.status = [.closed] ∧
      (exec (@processExtrinsics noLegalOfficers noVault (nestedBatch.block 1 .solo 5000))
        collectionStore).2.db.locRequests.map LocRequest.status = [.opened] ∧
      ¬ @Batch.Equivalent noLegalOfficers noVault nestedBatch 1 .solo 5000 collectionStore := by
  have hthrows : (exec (@processExtrinsics noLegalOfficers noVault (createBatch.block 1 .solo 5000))
      collectionStore).1 = .error (.error "Could not get inclusion fee") := rfl
  have hclosed : (exec (@processExtrinsics noLegalOfficers noVault
      (nestedBatch.leavesBlock 1 .solo 5000)) collectionStore).2.db.withoutFees.locRequests.map
        LocRequest.status = [.closed] := rfl
  have hopened : (exec (@processExtrinsics noLegalOfficers noVault (nestedBatch.block 1 .solo 5000))
      collectionStore).2.db.withoutFees.locRequests.map LocRequest.status = [.opened] := rfl
  refine ⟨⟨⟨(), _, rfl⟩, hthrows, ?_⟩, rfl, rfl, ?_⟩
  · rintro ⟨s', h, -⟩
    rw [h] at hthrows
    cases hthrows
  · rintro ⟨s', h, hfees⟩
    rw [h, hfees] at hopened
    rw [hclosed] at hopened
    cases hopened

end Logion
