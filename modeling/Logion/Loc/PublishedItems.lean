import Logion.Loc.OnChainDates
import Logion.Loc.Status

/-!
# PublishedItems — items confirmed on chain

The chain dates an item whatever its status in review, and every other operation looks at the status
alone: only a published or acknowledged item is safe from removal.

* `published_step_iff`: the transitions that withdraw a published item.
* `not_withdraws_iff`: the operations of a LOC that do so, or remove the item.
* `staysPublished_iff`: the runs in which every item confirmed on chain stays published.
-/

namespace Logion

open Keyed Fallible

/-! ### One lifecycle -/

namespace EmbeddableLifecycle

/-- Published, acknowledged or not. -/
def Published (c : EmbeddableLifecycle) : Prop := c.status = .published ∨ c.status = .acknowledged

variable {c c' : EmbeddableLifecycle}

theorem published_acknowledgedOrPublished {isAck : Bool}
    (h : c.status = acknowledgedOrPublished isAck) : c.Published := by
  cases isAck with
  | true => exact .inr h
  | false => exact .inl h

theorem Published.ne_draft (hc : c.Published) : c.status ≠ .draft := by
  rcases hc with hst | hst <;> simp [hst]

end EmbeddableLifecycle

/-- The transitions back to REVIEW_ACCEPTED. -/
def LifecycleOp.withdraws : LifecycleOp → Bool
  | .cancelPrePublishOrAcknowledge _ => true
  | _ => false

/-- The writing of a status, which `submit` makes on draft items only. -/
def LifecycleOp.writesStatus : LifecycleOp → Bool
  | .setStatus _ => true
  | _ => false

namespace EmbeddableLifecycle

variable {c c' : EmbeddableLifecycle} {o : LifecycleOp}

/-- **One transition.**  A published item stays published unless its publication is cancelled. -/
theorem published_step_iff (hc : c.Published) (h : c.step o = .ok c') (ho : o.writesStatus = false) :
    c'.Published ↔ o.withdraws = false := by
  have hno : ∀ {status : ItemStatus}, c.status = status → status ≠ .published →
      status ≠ .acknowledged → False := by
    intro status hst hpub hack
    rcases hc with hc | hc
    · exact hpub (hst.symm.trans hc)
    · exact hack (hst.symm.trans hc)
  cases o with
  | requestReview => exact (hno (requestReview_ok h).1 (by simp) (by simp)).elim
  | accept now => exact (hno (accept_ok h).1 (by simp) (by simp)).elim
  | reject reason now => exact (hno (reject_ok h).1 (by simp) (by simp)).elim
  | prePublishOrAcknowledge isAck addedOn =>
    obtain ⟨-, rfl⟩ := prePublishOrAcknowledge_ok h
    exact iff_of_true (published_acknowledgedOrPublished rfl) rfl
  | cancelPrePublishOrAcknowledge isAck =>
    obtain ⟨-, -, rfl⟩ := cancelPrePublishOrAcknowledge_ok h
    exact iff_of_false (by simp [Published]) (by simp [LifecycleOp.withdraws])
  | preAcknowledge expectVI byVI on =>
    obtain ⟨hst, rfl⟩ := preAcknowledge_ok h
    refine iff_of_true ?_ rfl
    unfold Published
    dsimp only
    split_ifs
    · exact .inr rfl
    · exact hst
  | cancelPreAcknowledge byVI =>
    obtain ⟨-, -, -, rfl⟩ := cancelPreAcknowledge_ok h
    exact iff_of_true (.inl rfl) rfl
  | setAddedOn on =>
    cases h
    refine iff_of_true ?_ rfl
    have hne : c.status ≠ .reviewAccepted := fun hst => hno hst (by simp) (by simp)
    have hsame : (c.setAddedOn on).status = c.status := if_neg hne
    rw [Published, hsame]
    exact hc
  | setStatus status => cases ho

theorem published_steps {os : List LifecycleOp} (hc : c.Published) (h : c.steps os = .ok c')
    (hos : ∀ o ∈ os, o.writesStatus = false ∧ o.withdraws = false) : c'.Published := by
  induction os generalizing c with
  | nil => cases h; exact hc
  | cons o os ih =>
    rw [steps, List.foldlM_cons] at h
    obtain ⟨c₁, h₁, h⟩ := bind_eq_ok.mp h
    obtain ⟨hwrites, hwithdraws⟩ := hos o List.mem_cons_self
    exact ih ((published_step_iff hc h₁ hwrites).mpr hwithdraws) h fun o' ho' =>
      hos o' (List.mem_cons_of_mem o ho')

end EmbeddableLifecycle

/-! ### The operations of a LOC -/

namespace LocRequest

open EmbeddableLifecycle

variable {l l' : LocRequest} {k : ItemKind} {key : String} {op : LocOp}

/-- The item exists and is published. -/
def PublishedItem (k : ItemKind) (key : String) (l : LocRequest) : Prop :=
  ∃ item, l.item? k key = some item ∧ item.lifecycle.Published

/-- Only draft and rejected items are removed. -/
theorem removeItem_removable {remover : AccountId} (h : l.removeItem k remover key = .ok l') :
    ∃ item, l.item? k key = some item ∧ (item.status = .draft ∨ item.status = .reviewRejected) := by
  obtain ⟨_, -, h⟩ := bind_eq_ok.mp h
  cases hit : l.item? k key with
  | none => rw [hit] at h; cases h
  | some item =>
    rw [hit] at h
    dsimp only at h
    split_ifs at h with hcan
    refine ⟨item, rfl, ?_⟩
    simp only [canRemove, Bool.not_eq_true', Bool.not_eq_false, Bool.and_eq_true,
      Bool.or_eq_true, decide_eq_true_eq] at hcan
    exact hcan.2

theorem cancelPrePublishOrAcknowledgeItem_returns {contributor : AccountId} :
    Returns (l.cancelPrePublishOrAcknowledgeItem k key contributor) ↔ l.status = .opened ∧
      ∃ item, l.item? k key = some item ∧
        l.canPrePublishOrAcknowledge item.submitter contributor = true ∧
        item.status = acknowledgedOrPublished (l.isPublishAcknowledge item.submitter) ∧
        item.lifecycle.addedOn = none := by
  unfold cancelPrePublishOrAcknowledgeItem
  rw [roleCheck_returns, canPrePublishOrAcknowledgeItem_ok, mutateLifecycle_returns, and_assoc,
    checked_and_changed]
  simp only [cancelPrePublishOrAcknowledge_returns]

/-- The accepted operations that take an item back to REVIEW_ACCEPTED. -/
def Withdraws (k : ItemKind) (key : String) (l : LocRequest) : LocOp → Prop
  | .cancelPreOpen autoPublish =>
    autoPublish = true ∧ CancelsOpening l (.cancelPreOpen autoPublish) ∧
      ∃ item, l.item? k key = some item ∧ item.status = .published ∧ item.lifecycle.addedOn = none
  | .cancelPrePublishOrAcknowledgeItem k' key' contributor =>
    k' = k ∧ key' = key ∧ l.status = .opened ∧ ∃ item, l.item? k key = some item ∧
      l.canPrePublishOrAcknowledge item.submitter contributor = true ∧
      item.status = acknowledgedOrPublished (l.isPublishAcknowledge item.submitter) ∧
      item.lifecycle.addedOn = none
  | _ => False

variable [Hashing]

/-- What an accepted operation does to a published item. -/
theorem withdraws_of_mem {item : Item k} {o : LifecycleOp} (h : l.step op = .ok l')
    (hit : l.item? k key = some item) (ho : o ∈ l.lifecycleOps k item op)
    (hw : o.withdraws = true) : Withdraws k key l op := by
  have hkey := item?_key hit
  cases op with
  | cancelPreOpen autoPublish =>
    simp only [lifecycleOps] at ho
    split_ifs at ho with hsel
    · simp only [Bool.and_eq_true, decide_eq_true_eq, Option.isNone_iff_eq_none] at hsel
      exact ⟨hsel.1, cancelPreOpen_returns.mp ⟨l', h⟩, item, hit, hsel.2.1, hsel.2.2⟩
    · cases ho
  | cancelPrePublishOrAcknowledgeItem k' key' contributor =>
    simp only [lifecycleOps] at ho
    obtain ⟨rfl, rfl, -⟩ := mem_onItem hkey ho
    exact ⟨rfl, rfl, cancelPrePublishOrAcknowledgeItem_returns.mp ⟨l', h⟩⟩
  | submit | preOpen | preClose | cancelPreClose =>
    simp only [lifecycleOps] at ho
    split_ifs at ho
    · cases List.mem_singleton.mp ho
      cases hw
    · cases ho
  | openLoc createdOn items =>
    simp only [lifecycleOps] at ho
    split_ifs at ho
    · cases List.eq_of_mem_replicate ho
      cases hw
    · cases ho
  | requestItemReview | acceptItem | rejectItem | prePublishOrAcknowledgeItem | preAcknowledgeItem
  | cancelPreAcknowledgeItem | setItemAddedOn =>
    simp only [lifecycleOps] at ho
    obtain ⟨-, -, rfl⟩ := mem_onItem hkey ho
    cases hw
  | _ => cases ho

/-- The operations of `Withdraws` are accepted, and cancel the publication. -/
theorem Withdraws.cancels {item : Item k} (hw : Withdraws k key l op)
    (hit : l.item? k key = some item) :
    Returns (l.step op) ∧ ∃ o, l.lifecycleOps k item op = [o] ∧ o.withdraws = true := by
  cases op with
  | cancelPreOpen autoPublish =>
    obtain ⟨rfl, hcancel, item', hit', hst, hadded⟩ := hw
    cases hit.symm.trans hit'
    exact ⟨cancelPreOpen_returns.mpr hcancel, _, if_pos (by simp [hst, hadded]), rfl⟩
  | cancelPrePublishOrAcknowledgeItem k' key' contributor =>
    obtain ⟨rfl, rfl, h⟩ := hw
    refine ⟨cancelPrePublishOrAcknowledgeItem_returns.mpr h,
      .cancelPrePublishOrAcknowledge (l.isPublishAcknowledge item.submitter), ?_, rfl⟩
    simp only [lifecycleOps]
    exact onItem_self (item?_key hit)
  | _ => cases hw

omit [Hashing] in
/-- No operation writes the status of a published item directly. -/
theorem writesStatus_of_mem {item : Item k} {o : LifecycleOp} (hpub : item.lifecycle.Published)
    (ho : o ∈ l.lifecycleOps k item op) : o.writesStatus = false := by
  cases op with
  | submit =>
    simp only [lifecycleOps] at ho
    rw [if_neg hpub.ne_draft] at ho
    cases ho
  | preOpen | cancelPreOpen | preClose | cancelPreClose =>
    simp only [lifecycleOps] at ho
    split_ifs at ho
    · cases List.mem_singleton.mp ho
      rfl
    · cases ho
  | openLoc createdOn items =>
    simp only [lifecycleOps] at ho
    split_ifs at ho
    · cases List.eq_of_mem_replicate ho
      rfl
    · cases ho
  | requestItemReview | acceptItem | rejectItem | prePublishOrAcknowledgeItem | preAcknowledgeItem
  | cancelPrePublishOrAcknowledgeItem | cancelPreAcknowledgeItem | setItemAddedOn =>
    simp only [lifecycleOps] at ho
    obtain ⟨-, -, rfl⟩ := mem_onItem rfl ho
    rfl
  | _ => cases ho

omit [Hashing] in
/-- Removing another item keeps this one. -/
theorem removeItem_keeps {k' : ItemKind} {key' : String} {remover : AccountId} {item : Item k}
    (h : l.removeItem k' remover key' = .ok l') (hit : l.item? k key = some item)
    (hne : ¬(k' = k ∧ key' = key)) :
    ∃ item', l'.item? k key = some item' ∧ item'.lifecycle = item.lifecycle := by
  by_cases hk : k = k'
  · subst hk
    obtain ⟨removed, hrem, -⟩ := removeItem_ok h
    rw [removeItem_item_ne hrem h fun hkey => hne ⟨rfl, hkey.symm⟩, hit]
    exact ⟨_, rfl, (reindexChild_lifecycle removed.index item).2⟩
  · rw [item?, removeItem_items_of_ne h hk]
    exact ⟨item, hit, rfl⟩

/-- A published item is not removed: it makes the transitions of the operation. -/
theorem step_publishedItem {item : Item k} (hit : l.item? k key = some item)
    (hpub : item.lifecycle.Published) (h : l.step op = .ok l') :
    ∃ item', l'.item? k key = some item' ∧
      item.lifecycle.steps (l.lifecycleOps k item op) = .ok item'.lifecycle := by
  cases hop : op.changesItems with
  | false =>
    obtain ⟨item', hit', -, hsteps⟩ := (step_moves hop h).forward hit
    exact ⟨item', hit', hsteps⟩
  | true =>
    cases op with
    | addFile | addMetadataItem | addLink => exact ⟨item, addItem_items h hit, rfl⟩
    | removeItem k' remover key' =>
      have hne : ¬(k' = k ∧ key' = key) := by
        rintro ⟨rfl, rfl⟩
        obtain ⟨item', hit', hst⟩ := removeItem_removable h
        cases hit.symm.trans hit'
        rcases hpub with hpub | hpub <;> simp [Item.status, hpub] at hst
      obtain ⟨item', hit', hlife⟩ := removeItem_keeps h hit hne
      exact ⟨item', hit', by rw [hlife]; rfl⟩
    | _ => cases hop

/-- **One operation.**  A published item stays published unless it is withdrawn. -/
theorem not_withdraws_iff (hl : PublishedItem k key l) :
    ¬ Withdraws k key l op ↔ PublishedItem k key (attempt step l op) := by
  obtain ⟨item, hit, hpub⟩ := hl
  rcases attempt_cases step l op with ⟨e, herr, heq⟩ | hok
  · rw [heq]
    refine iff_of_true (fun hw => ?_) ⟨item, hit, hpub⟩
    obtain ⟨⟨l', h⟩, -⟩ := hw.cancels hit
    rw [herr] at h
    cases h
  · obtain ⟨item', hit', hsteps⟩ := step_publishedItem hit hpub hok
    constructor
    · intro hnot
      refine ⟨item', hit', EmbeddableLifecycle.published_steps hpub hsteps fun o ho =>
        ⟨writesStatus_of_mem hpub ho, ?_⟩⟩
      exact Bool.eq_false_iff.mpr fun hw => hnot (withdraws_of_mem hok hit ho hw)
    · rintro ⟨item'', hit'', hpub'⟩ hw
      cases hit'.symm.trans hit''
      obtain ⟨-, o, hops, hcancel⟩ := hw.cancels hit
      rw [hops, steps_singleton] at hsteps
      have hwrites : o.writesStatus = false :=
        writesStatus_of_mem hpub (show o ∈ l.lifecycleOps k item op by simp [hops])
      rw [(EmbeddableLifecycle.published_step_iff hpub hsteps hwrites).mp hpub'] at hcancel
      cases hcancel

/-- The chain dates an item of the LOC: `set...AddedOn`, or `open(items)` taking effect. -/
def ConfirmsItem (k : ItemKind) (key : String) (l : LocRequest) (op : LocOp) : Prop :=
  SetsOnChain .addedOn k key l op ∧ Returns (l.step op) ∧ (l.item? k key).isSome

/-- `set...AddedOn` finds the item accepted or published already. -/
def ConfirmsAccepted (k : ItemKind) (key : String) (l : LocRequest) : LocOp → Prop
  | .setItemAddedOn .. => ∃ item, l.item? k key = some item ∧
      (item.status = .reviewAccepted ∨ item.lifecycle.Published)
  | _ => True

omit [Hashing] in
/-- The date publishes an accepted item, and no other. -/
theorem published_setAddedOn_iff {c : EmbeddableLifecycle} {addedOn : Moment} :
    (c.setAddedOn addedOn).Published ↔ c.status = .reviewAccepted ∨ c.Published := by
  unfold EmbeddableLifecycle.Published EmbeddableLifecycle.setAddedOn
  dsimp only
  split_ifs with hst
  · simp [hst]
  · simp [hst]

omit [Hashing] in
/-- One publication or more of an item. -/
theorem published_of_publications {c c' : EmbeddableLifecycle} {isAck : Bool}
    {addedOn : Option Moment} {n : ℕ} (hn : n ≠ 0)
    (h : c.steps (List.replicate n (.prePublishOrAcknowledge isAck addedOn)) = .ok c') :
    c'.Published := by
  obtain ⟨n, rfl⟩ := Nat.exists_eq_succ_of_ne_zero hn
  rw [List.replicate_succ, EmbeddableLifecycle.steps, List.foldlM_cons] at h
  obtain ⟨c₁, h₁, h⟩ := bind_eq_ok.mp h
  have hpub : c₁.Published := by
    rw [(prePublishOrAcknowledge_ok h₁).2]
    exact published_acknowledgedOrPublished rfl
  refine EmbeddableLifecycle.published_steps hpub h fun o ho => ?_
  rw [List.eq_of_mem_replicate ho]
  exact ⟨rfl, rfl⟩

/-- What a confirmation makes of the item. -/
theorem publishedItem_of_confirms (hconf : ConfirmsItem k key l op) :
    PublishedItem k key (attempt step l op) ↔ ConfirmsAccepted k key l op := by
  obtain ⟨hset, ⟨l', h⟩, hthere⟩ := hconf
  obtain ⟨item, hit⟩ := Option.isSome_iff_exists.mp hthere
  have hkey := item?_key hit
  rw [attempt_of_ok h]
  cases op with
  | setItemAddedOn k' key' on =>
    obtain ⟨-, rfl, rfl⟩ := hset
    obtain ⟨item', hit', -, hsteps⟩ := (step_moves rfl h).forward hit
    simp only [lifecycleOps, onItem_self hkey, steps_singleton] at hsteps
    have hlife : item'.lifecycle = item.lifecycle.setAddedOn on := (Except.ok.inj hsteps).symm
    constructor
    · rintro ⟨item'', hit'', hpub⟩
      cases hit'.symm.trans hit''
      rw [hlife] at hpub
      exact ⟨item, hit, published_setAddedOn_iff.mp hpub⟩
    · rintro ⟨item'', hit'', hst⟩
      cases hit.symm.trans hit''
      refine ⟨item', hit', ?_⟩
      rw [hlife]
      exact published_setAddedOn_iff.mpr hst
  | openLoc createdOn items =>
    obtain ⟨-, hst, hmem⟩ := hset
    obtain ⟨item', hit', -, hsteps⟩ := (step_moves rfl h).forward hit
    simp only [lifecycleOps, if_pos hst] at hsteps
    have hcount : (items.keys k).count item.key ≠ 0 := by
      rw [hkey]
      exact Nat.pos_iff_ne_zero.mp (List.count_pos_iff.mpr hmem)
    exact iff_of_true ⟨item', hit', published_of_publications hcount hsteps⟩ trivial
  | preAcknowledgeItem k' key' contributor on =>
    cases on with
    | none => cases hset
    | some t =>
      have hparty := hset.1
      unfold DateField.ofParty at hparty
      split_ifs at hparty
  | _ => cases hset

/-! ### The runs -/

/-- In the run, an item that the chain dates is published from then on, and never removed. -/
def StaysPublished (l : LocRequest) (ops : List LocOp) : Prop :=
  ∀ pre op post, ops = pre ++ op :: post → ∀ k key, ConfirmsItem k key (run step l pre) op →
    Always step (PublishedItem k key) (attempt step (run step l pre) op) post

/-- In the run, the chain dates accepted or published items, which are not withdrawn afterwards. -/
def ConfirmationsRespected (l : LocRequest) (ops : List LocOp) : Prop :=
  ∀ pre op post, ops = pre ++ op :: post → ∀ k key, ConfirmsItem k key (run step l pre) op →
    ConfirmsAccepted k key (run step l pre) op ∧
      Along step (fun l op => ¬ Withdraws k key l op) (attempt step (run step l pre) op) post

/-- **Items confirmed on chain** stay published in a run exactly when the chain dates items that
were accepted or published, and no publication of theirs is cancelled afterwards. -/
theorem staysPublished_iff (l : LocRequest) (ops : List LocOp) :
    StaysPublished l ops ↔ ConfirmationsRespected l ops := by
  unfold StaysPublished ConfirmationsRespected
  refine forall_congr' fun pre => forall₂_congr fun op post => imp_congr_right fun _ => ?_
  refine forall₂_congr fun k key => imp_congr_right fun hconf => ?_
  rw [← publishedItem_of_confirms hconf]
  constructor
  · intro halways
    have hstart := halways [] List.nil_prefix
    exact ⟨hstart, (always_iff_of (Q := fun _ => True) (fun _ _ hl _ => not_withdraws_iff hl)
      (fun _ _ => trivial) hstart).mp halways⟩
  · rintro ⟨hstart, halong⟩
    exact (always_iff_of (Q := fun _ => True) (fun _ _ hl _ => not_withdraws_iff hl)
      (fun _ _ => trivial) hstart).mpr halong

/-- The chain dates the file, the client confirms the publication over HTTP, then cancels it. -/
def confirmThenCancel : List LocOp :=
  syncThenConfirm ++ [.cancelPrePublishOrAcknowledgeItem .file "0xabcd" (.polkadot "requester")]

/-- The requester adds a link and publishes it on chain before any review, then removes it. -/
def confirmThenRemove : List LocOp :=
  [.addLink "target" (.polkadot "requester") "nature" .manualByUser 2,
    .setItemAddedOn .link "target" 5, .removeItem .link (.polkadot "requester") "target"]

omit [Hashing] in
/-- The cancel is accepted because the confirmation has erased the date; the removal because the
date has not changed the status of the draft. -/
theorem confirmed_items_lost :
    letI : Hashing := ⟨fun name => name⟩
    ¬ StaysPublished openLocWithFile confirmThenCancel ∧
      ¬ StaysPublished openLocWithFile confirmThenRemove := by
  let _ : Hashing := ⟨fun name => name⟩
  constructor
  · intro h
    obtain ⟨item, hit, hpub⟩ := h [] _ _ rfl .file "0xabcd" ⟨⟨rfl, rfl, rfl⟩, returns_ok _, rfl⟩ _
      (List.prefix_refl _)
    have hback : ((run step openLocWithFile confirmThenCancel).item? .file "0xabcd").all
        (fun item => item.status = .reviewAccepted) = true := by decide
    rw [show (run step openLocWithFile confirmThenCancel).item? .file "0xabcd" = some item from hit,
      Option.all_some, decide_eq_true_eq] at hback
    rcases hpub with hpub | hpub <;> rw [Item.status, hpub] at hback <;> cases hback
  · intro h
    obtain ⟨item, hit, -⟩ := h [.addLink "target" (.polkadot "requester") "nature" .manualByUser 2]
      (.setItemAddedOn .link "target" 5) [.removeItem .link (.polkadot "requester") "target"] rfl
      .link "target" ⟨⟨rfl, rfl, rfl⟩, returns_ok _, rfl⟩ _ (List.prefix_refl _)
    have hgone : (run step openLocWithFile confirmThenRemove).item? .link "target" = none := by decide
    cases hgone.symm.trans hit

end LocRequest

end Logion
