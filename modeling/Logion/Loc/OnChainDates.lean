import Logion.Loc.Projection

/-!
# OnChainDates — what becomes of the dates the chain gave to an item

A lifecycle has three dates: that of the publication and those of the two acknowledgements.  The
chain side sets them with a timestamp; the HTTP side makes the same transitions without one.

* `DateField.kept_step_iff`: on a lifecycle whose date is set, a transition that is accepted keeps
  it, unless it publishes or acknowledges the same thing again without a timestamp.
* `not_clearsDate_iff`: the operations of a LOC that lose the date of one of its items.
* `noDateLost_iff`: the runs in which no date set on chain is ever lost.
-/

namespace Logion

open Fallible

/-! ### The three dates of a lifecycle -/

/-- A date that the chain sets. -/
inductive DateField
  | addedOn
  | acknowledgedByOwnerOn
  | acknowledgedByVerifiedIssuerOn
  deriving DecidableEq, Repr

namespace DateField

def date (c : EmbeddableLifecycle) : DateField → Option Moment
  | addedOn => c.addedOn
  | acknowledgedByOwnerOn => c.acknowledgedByOwnerOn
  | acknowledgedByVerifiedIssuerOn => c.acknowledgedByVerifiedIssuerOn

/-- The flag that goes with the date; a publication has none. -/
def flag (c : EmbeddableLifecycle) : DateField → Bool
  | addedOn => true
  | acknowledgedByOwnerOn => c.acknowledgedByOwner
  | acknowledgedByVerifiedIssuerOn => c.acknowledgedByVerifiedIssuer

/-- The date is defined and its flag is set. -/
def Kept (f : DateField) (c : EmbeddableLifecycle) : Prop := (f.date c).isSome ∧ f.flag c

/-- The date of an acknowledgement. -/
def ofParty (byVerifiedIssuer : Bool) : DateField :=
  if byVerifiedIssuer then acknowledgedByVerifiedIssuerOn else acknowledgedByOwnerOn

/-- What a transition writes to the date, when it writes it. -/
def written (f : DateField) : LifecycleOp → Option (Option Moment)
  | .prePublishOrAcknowledge _ on => if f = addedOn then some on else none
  | .preAcknowledge _ byVI on => if f = ofParty byVI then some on else none
  | .setAddedOn on => if f = addedOn then some (some on) else none
  | _ => none

variable {c c' : EmbeddableLifecycle} {f : DateField} {op : LifecycleOp}

theorem written_prePublishOrAcknowledge {isAck : Bool} {on : Option Moment}
    (h : f.written (.prePublishOrAcknowledge isAck on) = some none) : f = addedOn ∧ on = none := by
  simp only [written] at h
  split_ifs at h with hf
  exact ⟨hf, Option.some.inj h⟩

theorem written_preAcknowledge {expectVI byVI : Bool} {on : Option Moment}
    (h : f.written (.preAcknowledge expectVI byVI on) = some none) :
    f = ofParty byVI ∧ on = none := by
  simp only [written] at h
  split_ifs at h with hf
  exact ⟨hf, Option.some.inj h⟩

/-- A transition that writes the date sets the flag with it. -/
theorem kept_of_written {on : Option Moment} (h : c.step op = .ok c') (hw : f.written op = some on) :
    f.Kept c' ↔ on.isSome := by
  cases op with
  | prePublishOrAcknowledge isAck on' =>
    obtain ⟨-, rfl⟩ := EmbeddableLifecycle.prePublishOrAcknowledge_ok h
    cases f <;> simp_all [written, Kept, date, flag]
  | preAcknowledge expectVI byVI on' =>
    obtain ⟨-, rfl⟩ := EmbeddableLifecycle.preAcknowledge_ok h
    cases byVI <;> cases f <;>
      simp_all [written, ofParty, Kept, date, flag, EmbeddableLifecycle.setAcknowledged]
  | setAddedOn on' =>
    cases h
    cases f <;> simp_all [written, Kept, date, flag, EmbeddableLifecycle.setAddedOn]
  | _ => cases hw

/-- A transition that does not write the date keeps a date that is set, and its flag: the two
cancels refuse a lifecycle with such a date. -/
theorem kept_of_not_written (h : c.step op = .ok c') (hw : f.written op = none) (hk : f.Kept c) :
    f.Kept c' := by
  cases op with
  | requestReview =>
    obtain ⟨-, rfl⟩ := EmbeddableLifecycle.requestReview_ok h
    cases f <;> exact hk
  | accept now =>
    obtain ⟨-, rfl⟩ := EmbeddableLifecycle.accept_ok h
    cases f <;> exact hk
  | reject reason now =>
    obtain ⟨-, rfl⟩ := EmbeddableLifecycle.reject_ok h
    cases f <;> exact hk
  | prePublishOrAcknowledge isAck on =>
    obtain ⟨-, rfl⟩ := EmbeddableLifecycle.prePublishOrAcknowledge_ok h
    cases f <;> first | exact hk | cases hw
  | cancelPrePublishOrAcknowledge isAck =>
    obtain ⟨-, -, rfl⟩ := EmbeddableLifecycle.cancelPrePublishOrAcknowledge_ok h
    cases f <;> exact hk
  | preAcknowledge expectVI byVI on =>
    obtain ⟨-, rfl⟩ := EmbeddableLifecycle.preAcknowledge_ok h
    cases byVI <;> cases f <;> first | exact hk | cases hw
  | cancelPreAcknowledge byVI =>
    obtain ⟨-, howner, hvi, rfl⟩ := EmbeddableLifecycle.cancelPreAcknowledge_ok h
    cases f with
    | addedOn => exact hk
    | acknowledgedByOwnerOn => simp [Kept, date, howner] at hk
    | acknowledgedByVerifiedIssuerOn => simp [Kept, date, hvi] at hk
  | setAddedOn on =>
    cases h
    cases f <;> first | exact hk | cases hw
  | setStatus status =>
    cases h
    cases f <;> exact hk

/-- **One transition.**  A date that is set is kept unless it is overwritten without a timestamp. -/
theorem kept_step_iff (h : c.step op = .ok c') (hk : f.Kept c) :
    f.Kept c' ↔ f.written op ≠ some none := by
  cases hw : f.written op with
  | none => simpa using kept_of_not_written h hw hk
  | some on => cases on <;> simp [kept_of_written h hw]

/-- Several transitions, none of which overwrites the date without a timestamp. -/
theorem kept_steps {os : List LifecycleOp} (h : c.steps os = .ok c') (hk : f.Kept c)
    (hos : ∀ o ∈ os, f.written o ≠ some none) : f.Kept c' := by
  induction os generalizing c with
  | nil => cases h; exact hk
  | cons o os ih =>
    rw [EmbeddableLifecycle.steps, List.foldlM_cons] at h
    obtain ⟨c₁, h1, h⟩ := bind_eq_ok.mp h
    have hk₁ : f.Kept c₁ := (kept_step_iff h1 hk).mpr (hos o List.mem_cons_self)
    exact ih h hk₁ fun o' ho' => hos o' (List.mem_cons_of_mem o ho')

/-- Transitions that all write the date with a timestamp, at least one of them. -/
theorem kept_of_steps_written {os : List LifecycleOp} (h : c.steps os = .ok c') (hne : os ≠ [])
    (hos : ∀ o ∈ os, ∃ t, f.written o = some (some t)) : f.Kept c' := by
  cases os with
  | nil => exact absurd rfl hne
  | cons o os =>
    rw [EmbeddableLifecycle.steps, List.foldlM_cons] at h
    obtain ⟨c₁, h1, h⟩ := bind_eq_ok.mp h
    obtain ⟨t, ht⟩ := hos o List.mem_cons_self
    have hk₁ : f.Kept c₁ := (kept_of_written h1 ht).mpr rfl
    refine kept_steps h hk₁ fun o' ho' => ?_
    obtain ⟨t', ht'⟩ := hos o' (List.mem_cons_of_mem o ho')
    simp [ht']

end DateField

/-! ### The operations of a LOC -/

namespace LocRequest

open DateField

variable [Hashing] {l l' : LocRequest} {k : ItemKind} {key : String} {f : DateField} {op : LocOp}

/-- The item exists and its date is set. -/
def Dated (f : DateField) (k : ItemKind) (key : String) (l : LocRequest) : Prop :=
  ∃ item, l.item? k key = some item ∧ f.Kept item.lifecycle

/-- The chain sides's calls that set a date of an item: they carry a timestamp. -/
def SetsOnChain (f : DateField) (k : ItemKind) (key : String) (l : LocRequest) : LocOp → Prop
  | .setItemAddedOn k' key' _ => f = addedOn ∧ k' = k ∧ key' = key
  | .openLoc _ items =>
    f = addedOn ∧ (l.status = .reviewAccepted ∨ l.status = .opened) ∧ key ∈ items.keys k
  | .preAcknowledgeItem k' key' contributor (some _) =>
    f = ofParty (l.isVerifiedIssuer contributor) ∧ k' = k ∧ key' = key
  | _ => False

/-- The accepted operations that publish or acknowledge the item again without a timestamp. -/
def ClearsDate (f : DateField) (k : ItemKind) (key : String) (l : LocRequest) : LocOp → Prop
  | .preOpen autoPublish =>
    f = addedOn ∧ autoPublish ∧ (l.status = .reviewAccepted ∨ l.status = .opened) ∧
      ∃ item, l.item? k key = some item ∧ item.status = .reviewAccepted
  | .preClose autoAck =>
    f = acknowledgedByOwnerOn ∧ autoAck ∧ l.ensureAllItemsAckedOrPublishedOnChain = .ok () ∧
      l.ensureAllItemsAckedByVerifiedIssuerOnChain = .ok ()
  | .prePublishOrAcknowledgeItem k' key' contributor =>
    f = addedOn ∧ k' = k ∧ key' = key ∧ l.status = .opened ∧
      ∃ item, l.item? k key = some item ∧
        l.canPrePublishOrAcknowledge item.submitter contributor ∧
        (item.status = .reviewAccepted ∨ item.status =
          EmbeddableLifecycle.acknowledgedOrPublished (l.isPublishAcknowledge item.submitter))
  | .preAcknowledgeItem k' key' contributor acknowledgedOn =>
    f = ofParty (l.isVerifiedIssuer contributor) ∧ acknowledgedOn = none ∧ k' = k ∧ key' = key ∧
      ∃ item, l.item? k key = some item ∧ l.canPreAcknowledge item.submitter contributor ∧
        (item.status = .published ∨ item.status = .acknowledged)
  | _ => False

/-- An accepted operation that writes no timestamp over the date of the item is one of
`ClearsDate`. -/
theorem clearsDate_of_written {item : Item k} {o : LifecycleOp} (h : l.step op = .ok l')
    (hit : l.item? k key = some item) (ho : o ∈ l.lifecycleOps k item op)
    (hw : f.written o = some none) : ClearsDate f k key l op := by
  have hkey := item?_key hit
  cases op with
  | preOpen autoPublish =>
    simp only [lifecycleOps] at ho
    split_ifs at ho with hsel
    · cases List.mem_singleton.mp ho
      simp only [Bool.and_eq_true, decide_eq_true_eq] at hsel
      exact ⟨(written_prePublishOrAcknowledge hw).1, hsel.1, preOpen_returns.mp ⟨l', h⟩, item, hit,
        hsel.2⟩
    · cases ho
  | preClose autoAck =>
    simp only [lifecycleOps] at ho
    split_ifs at ho with hsel
    · cases List.mem_singleton.mp ho
      subst hsel
      exact ⟨(written_preAcknowledge hw).1, rfl, preClose_autoAck_returns.mp ⟨l', h⟩⟩
    · cases ho
  | prePublishOrAcknowledgeItem k' key' contributor =>
    simp only [lifecycleOps] at ho
    obtain ⟨rfl, rfl, rfl⟩ := mem_onItem hkey ho
    exact ⟨(written_prePublishOrAcknowledge hw).1, rfl, rfl,
      prePublishOrAcknowledgeItem_returns.mp ⟨l', h⟩⟩
  | preAcknowledgeItem k' key' contributor on =>
    simp only [lifecycleOps] at ho
    obtain ⟨rfl, rfl, rfl⟩ := mem_onItem hkey ho
    obtain ⟨hf, hon⟩ := written_preAcknowledge hw
    exact ⟨hf, hon, rfl, rfl, preAcknowledgeItem_returns.mp ⟨l', h⟩⟩
  | openLoc createdOn items =>
    simp only [lifecycleOps] at ho
    split_ifs at ho
    · cases List.eq_of_mem_replicate ho
      cases (written_prePublishOrAcknowledge hw).2
    · cases ho
  | cancelPreOpen | cancelPreClose | submit =>
    simp only [lifecycleOps] at ho
    split_ifs at ho
    · cases List.mem_singleton.mp ho
      cases hw
    · cases ho
  | setItemAddedOn k' key' on =>
    simp only [lifecycleOps] at ho
    obtain ⟨rfl, rfl, rfl⟩ := mem_onItem hkey ho
    simp [DateField.written] at hw
  | requestItemReview | acceptItem | rejectItem | cancelPrePublishOrAcknowledgeItem
  | cancelPreAcknowledgeItem =>
    simp only [lifecycleOps] at ho
    obtain ⟨rfl, rfl, rfl⟩ := mem_onItem hkey ho
    cases hw
  | _ => cases ho

/-- The operations of `ClearsDate` are accepted, and write no timestamp over the date. -/
theorem ClearsDate.written {item : Item k} (hclear : ClearsDate f k key l op)
    (hit : l.item? k key = some item) :
    Returns (l.step op) ∧ ∃ o, l.lifecycleOps k item op = [o] ∧ f.written o = some none := by
  have hkey := item?_key hit
  cases op with
  | preOpen autoPublish =>
    obtain ⟨rfl, hauto, hst, item', hit', hacc⟩ := hclear
    cases hit.symm.trans hit'
    exact ⟨preOpen_returns.mpr hst, _, if_pos (by simp [hauto, hacc]), rfl⟩
  | preClose autoAck =>
    obtain ⟨rfl, rfl, hguards⟩ := hclear
    refine ⟨preClose_autoAck_returns.mpr hguards,
      .preAcknowledge (l.isVerifiedIssuer item.submitter) false none, ?_, ?_⟩
    · simp only [lifecycleOps, if_true]
    · rfl
  | prePublishOrAcknowledgeItem k' key' contributor =>
    obtain ⟨rfl, rfl, rfl, h⟩ := hclear
    refine ⟨prePublishOrAcknowledgeItem_returns.mpr h,
      .prePublishOrAcknowledge (l.isPublishAcknowledge item.submitter) none, ?_, ?_⟩
    · simp only [lifecycleOps]
      exact onItem_self hkey
    · rfl
  | preAcknowledgeItem k' key' contributor on =>
    obtain ⟨rfl, rfl, rfl, rfl, h⟩ := hclear
    refine ⟨preAcknowledgeItem_returns.mpr h,
      .preAcknowledge (l.isVerifiedIssuer item.submitter) (l.isVerifiedIssuer contributor) none,
      ?_, ?_⟩
    · simp only [lifecycleOps]
      exact onItem_self hkey
    · exact if_pos rfl
  | _ => cases hclear

/-- **One operation.**  On an item whose date is set, and that is still there afterwards. -/
theorem not_clearsDate_iff (hl : l.DistinctKeys ∧ Dated f k key l)
    (hthere : ((attempt step l op).item? k key).isSome) :
    ¬ ClearsDate f k key l op ↔
      (attempt step l op).DistinctKeys ∧ Dated f k key (attempt step l op) := by
  obtain ⟨hd, item, hit, hk⟩ := hl
  rcases attempt_cases step l op with ⟨e, herr, heq⟩ | hok
  · rw [heq]
    refine iff_of_true (fun hclear => ?_) ⟨hd, item, hit, hk⟩
    obtain ⟨⟨l', h⟩, -⟩ := hclear.written hit
    rw [herr] at h
    cases h
  · rcases step_item hd hit hok with hnone | ⟨item', hit', -, hsteps⟩
    · rw [hnone] at hthere
      cases hthere
    · refine Iff.trans ?_ (and_iff_right (step_distinctKeys hd hok)).symm
      constructor
      · intro hnot
        exact ⟨item', hit', kept_steps hsteps hk fun o ho hw =>
          hnot (clearsDate_of_written hok hit ho hw)⟩
      · rintro ⟨item'', hit'', hk'⟩ hclear
        cases hit'.symm.trans hit''
        obtain ⟨-, o, hops, hw⟩ := hclear.written hit
        rw [hops, steps_singleton] at hsteps
        exact absurd ((kept_of_written hsteps hw).mp hk') (by simp)

/-- A chain-side call that returns on an item that is there leaves its date set. -/
theorem dated_of_setsOnChain (hset : SetsOnChain f k key l op) (h : l.step op = .ok l')
    (hthere : (l'.item? k key).isSome) : Dated f k key l' := by
  obtain ⟨item', hit'⟩ := Option.isSome_iff_exists.mp hthere
  refine ⟨item', hit', ?_⟩
  cases op with
  | setItemAddedOn k' key' on =>
    obtain ⟨rfl, rfl, rfl⟩ := hset
    obtain ⟨item, hit, -, hsteps⟩ := (step_moves rfl h).item hit'
    simp only [lifecycleOps, onItem_self (item?_key hit)] at hsteps
    exact kept_of_steps_written hsteps (by simp) (by simp [written])
  | openLoc createdOn items =>
    obtain ⟨rfl, hst, hmem⟩ := hset
    obtain ⟨item, hit, -, hsteps⟩ := (step_moves rfl h).item hit'
    simp only [lifecycleOps, if_pos hst] at hsteps
    have hcount : 0 < (items.keys k).count item.key := by
      rw [item?_key hit]
      exact List.count_pos_iff.mpr hmem
    refine kept_of_steps_written hsteps ?_ fun o ho => ⟨createdOn, ?_⟩
    · rw [ne_eq, List.replicate_eq_nil_iff]
      exact Nat.pos_iff_ne_zero.mp hcount
    · rw [List.eq_of_mem_replicate ho]
      rfl
  | preAcknowledgeItem k' key' contributor on =>
    cases on with
    | none => cases hset
    | some t =>
      obtain ⟨rfl, rfl, rfl⟩ := hset
      obtain ⟨item, hit, -, hsteps⟩ := (step_moves rfl h).item hit'
      simp only [lifecycleOps, onItem_self (item?_key hit)] at hsteps
      exact kept_of_steps_written hsteps (by simp) (by simp [written])
  | _ => cases hset

/-- No date set on chain is ever lost in the run, for as long as the item exists. -/
def NoDateLost (l : LocRequest) (ops : List LocOp) : Prop :=
  ∀ pre op post, ops = pre ++ op :: post → ∀ f k key,
    SetsOnChain f k key (run step l pre) op → Returns ((run step l pre).step op) →
    Always step (fun l => (l.item? k key).isSome) (attempt step (run step l pre) op) post →
    Always step (Dated f k key) (attempt step (run step l pre) op) post

/-- No date set on chain is ever overwritten by a call without a timestamp. -/
def NoDateCleared (l : LocRequest) (ops : List LocOp) : Prop :=
  ∀ pre op post, ops = pre ++ op :: post → ∀ f k key,
    SetsOnChain f k key (run step l pre) op → Returns ((run step l pre).step op) →
    Always step (fun l => (l.item? k key).isSome) (attempt step (run step l pre) op) post →
    Along step (fun l op => ¬ ClearsDate f k key l op) (attempt step (run step l pre) op) post

/-- **On-chain dates of the items.**  A run loses no date exactly when no call without a timestamp
publishes or acknowledges again what the chain has dated. -/
theorem noDateLost_iff {l : LocRequest} (hd : l.DistinctKeys) (ops : List LocOp) :
    NoDateLost l ops ↔ NoDateCleared l ops := by
  unfold NoDateLost NoDateCleared
  refine forall_congr' fun pre => forall₂_congr fun op post => imp_congr_right fun _ => ?_
  refine forall₃_congr fun f k key => imp_congr_right fun hset => imp_congr_right fun hret =>
    imp_congr_right fun hthere => ?_
  obtain ⟨l', h⟩ := hret
  have hd₁ := run_distinctKeys hd pre
  have hd' := step_distinctKeys hd₁ h
  rw [attempt_of_ok h] at hthere ⊢
  have hdated := dated_of_setsOnChain hset h (hthere [] List.nil_prefix)
  rw [← always_iff_of (P := fun l => l.DistinctKeys ∧ Dated f k key l)
    (fun _ _ hl hthere => not_clearsDate_iff hl hthere) hthere ⟨hd', hdated⟩]
  exact forall₂_congr fun p _ => (and_iff_right (run_distinctKeys hd' p)).symm

/-- An open LOC with one accepted file of its requester. -/
def openLocWithFile : LocRequest where
  id := "15ed922d-5960-4147-a73f-97d362cb7c46"
  status := .opened
  requester := some (.polkadot "requester")
  ownerAddress := "owner"
  locType := .transaction
  files := [{
    key := "0xabcd"
    index := 0
    submitter := .polkadot "requester"
    lifecycle := { status := .reviewAccepted }
    data := (⟨"file", none, none, "nature", 10, false, none, none, [], none⟩ : FileData) }]

omit [Hashing] in
theorem openLocWithFile_distinctKeys : openLocWithFile.DistinctKeys := by
  intro k
  cases k <;> simp [openLocWithFile, items]

/-- The chain dates the file, then the client confirms the same publication over HTTP. -/
def syncThenConfirm : List LocOp :=
  [.setItemAddedOn .file "0xabcd" 5,
    .prePublishOrAcknowledgeItem .file "0xabcd" (.polkadot "requester")]

omit [Hashing] in
theorem noDateLost_iff_syncThenConfirm :
    openLocWithFile.DistinctKeys ∧
      (@NoDateLost ⟨fun name => name⟩ openLocWithFile syncThenConfirm ↔
        @NoDateCleared ⟨fun name => name⟩ openLocWithFile syncThenConfirm) :=
  ⟨openLocWithFile_distinctKeys,
    @noDateLost_iff ⟨fun name => name⟩ openLocWithFile openLocWithFile_distinctKeys syncThenConfirm⟩

omit [Hashing] in
/-- The confirmation is accepted and the date of the file is gone. -/
theorem confirm_loses_addedOn :
    ¬ @NoDateLost ⟨fun name => name⟩ openLocWithFile syncThenConfirm := by
  intro h
  have hthere : ∀ pre, pre <+: [LocOp.prePublishOrAcknowledgeItem .file "0xabcd"
      (.polkadot "requester")] → ((@run _ _ _ (@step ⟨fun name => name⟩)
        (openLocWithFile.setItemAddedOn .file "0xabcd" 5) pre).item? .file "0xabcd").isSome := by
    intro pre hpre
    rcases List.prefix_cons_iff.mp hpre with rfl | ⟨pre', rfl, hpre'⟩
    · decide
    · rw [List.prefix_nil.mp hpre']
      decide
  obtain ⟨item, hit, hdate, -⟩ := h [] _ _ rfl .addedOn .file "0xabcd" ⟨rfl, rfl, rfl⟩
    (returns_ok _) hthere _ (List.prefix_refl _)
  have hlost : ((@run _ _ _ (@step ⟨fun name => name⟩) openLocWithFile syncThenConfirm).item? .file
      "0xabcd").all (fun item => item.lifecycle.addedOn.isNone) = true := by decide
  rw [show (@run _ _ _ (@step ⟨fun name => name⟩) openLocWithFile syncThenConfirm).item? .file
    "0xabcd" = some item from hit] at hlost
  simp only [Option.all_some, Option.isNone_iff_eq_none] at hlost
  simp [date, hlost] at hdate

end LocRequest

end Logion
