import Logion.Api.LocApi

/-!
# Reviews — nothing is published that was not reviewed

An item that a user submits for review becomes `REVIEW_ACCEPTED`, and later `PUBLISHED` or
`ACKNOWLEDGED`, because the owner of the LOC has accepted it, whatever the requests of the parties, the
callbacks of iDenfy and the extrinsics that come in between.

* `EmbeddableLifecycle.Reviewed`, `reviewed_step`: one transition.
* `step_reviewed`, `steps_reviewed`: one operation of the aggregate, the operations of an event.
* `published_reviewed`: in every run of the system.
* `decided_accepted`: a LOC is accepted, open or closed because its owner has accepted it, or because
  it was closed on chain.
-/

namespace Logion

open Fallible Keyed

/-! ### One item -/

namespace EmbeddableLifecycle

variable {c c' : EmbeddableLifecycle}

/-- The review of the item is over, and it was accepted. -/
def Reviewed (c : EmbeddableLifecycle) : Prop :=
  c.status = .reviewAccepted ∨ c.status = .published ∨ c.status = .acknowledged

/-- Only an acceptance makes an item reviewed. -/
theorem reviewed_step {o : LifecycleOp} (hset : ∀ status, o = .setStatus status → status = .reviewPending)
    (h : c.step o = .ok c') (hrev : c'.Reviewed) : c.Reviewed ∨ ∃ now, o = .accept now := by
  cases o with
  | requestReview =>
    obtain ⟨-, rfl⟩ := requestReview_ok h
    rcases hrev with h' | h' | h' <;> cases h'
  | accept now => exact .inr ⟨now, rfl⟩
  | reject reason now =>
    obtain ⟨-, rfl⟩ := reject_ok h
    rcases hrev with h' | h' | h' <;> cases h'
  | prePublishOrAcknowledge isAck addedOn =>
    obtain ⟨hstatus, -⟩ := prePublishOrAcknowledge_ok h
    refine .inl ?_
    rcases hstatus with h' | h'
    · exact .inl h'
    · cases isAck with
      | true => exact .inr (.inr h')
      | false => exact .inr (.inl h')
  | cancelPrePublishOrAcknowledge isAck =>
    obtain ⟨hstatus, -, -⟩ := cancelPrePublishOrAcknowledge_ok h
    cases isAck with
    | true => exact .inl (.inr (.inr hstatus))
    | false => exact .inl (.inr (.inl hstatus))
  | preAcknowledge expectVI byVI on =>
    obtain ⟨hstatus, -⟩ := preAcknowledge_ok h
    exact .inl (.inr hstatus)
  | cancelPreAcknowledge byVI =>
    obtain ⟨hstatus, -, -, -⟩ := cancelPreAcknowledge_ok h
    exact .inl (.inr (.inr hstatus))
  | setAddedOn addedOn =>
    refine .inl ?_
    cases h
    unfold Reviewed setAddedOn at hrev
    split_ifs at hrev with h'
    · exact .inl h'
    · exact hrev
  | setStatus status =>
    cases h
    obtain rfl := hset status rfl
    rcases hrev with h' | h' | h' <;> cases h'

theorem reviewed_steps {os : List LifecycleOp}
    (hset : ∀ status, .setStatus status ∈ os → status = .reviewPending)
    (h : c.steps os = .ok c') (hrev : c'.Reviewed) : c.Reviewed ∨ ∃ now, .accept now ∈ os := by
  induction os generalizing c with
  | nil =>
    cases h
    exact .inl hrev
  | cons o os ih =>
    rw [EmbeddableLifecycle.steps, List.foldlM_cons] at h
    obtain ⟨c₁, h1, h2⟩ := bind_eq_ok.mp h
    rcases ih (fun status hmem => hset status (List.mem_cons_of_mem o hmem)) h2 with hrev₁ | ⟨now, hmem⟩
    · rcases reviewed_step (fun status ho => hset status (ho ▸ List.mem_cons_self)) h1 hrev₁ with
        hrev₀ | ⟨now, rfl⟩
      · exact .inl hrev₀
      · exact .inr ⟨now, List.mem_cons_self⟩
    · exact .inr ⟨now, List.mem_cons_of_mem o hmem⟩

end EmbeddableLifecycle

namespace LocRequest

variable [Hashing] {l l' : LocRequest} {k : ItemKind} {key : String}

/-- The same submitter and the same contents. -/
structure SameItem {k : ItemKind} (item item' : Item k) : Prop where
  submitter : item'.submitter = item.submitter
  content : item'.data.content = item.data.content

omit [Hashing] in
theorem SameItem.trans {item item₁ item' : Item k} (h : SameItem item item₁) (h' : SameItem item₁ item') :
    SameItem item item' :=
  ⟨h'.submitter.trans h.submitter, h'.content.trans h.content⟩

omit [Hashing] in
/-- Statuses are set by the submission only. -/
theorem lifecycleOps_setStatus {item : Item k} {op : LocOp} {status : ItemStatus}
    (h : .setStatus status ∈ l.lifecycleOps k item op) : status = .reviewPending := by
  cases op with
  | submit =>
    simp only [lifecycleOps] at h
    split_ifs at h
    · simpa using h
    · cases h
  | preOpen | cancelPreOpen | openLoc | preClose | cancelPreClose =>
    simp only [lifecycleOps] at h
    split_ifs at h <;> simp at h
  | requestItemReview | acceptItem | rejectItem | prePublishOrAcknowledgeItem
  | cancelPrePublishOrAcknowledgeItem | preAcknowledgeItem | cancelPreAcknowledgeItem
  | setItemAddedOn =>
    rw [lifecycleOps] at h
    obtain ⟨-, -, h⟩ := mem_onItem rfl h
    cases h
  | _ => cases h

omit [Hashing] in
theorem lifecycleOps_accept {item : Item k} {op : LocOp} {now : Moment}
    (h : .accept now ∈ l.lifecycleOps k item op) : op = .acceptItem k item.key now := by
  cases op with
  | acceptItem k' key' now' =>
    rw [lifecycleOps] at h
    obtain ⟨rfl, rfl, hop⟩ := mem_onItem rfl h
    cases hop
    rfl
  | submit | preOpen | cancelPreOpen | openLoc | preClose | cancelPreClose =>
    simp only [lifecycleOps] at h
    split_ifs at h <;> simp at h
  | requestItemReview | rejectItem | prePublishOrAcknowledgeItem
  | cancelPrePublishOrAcknowledgeItem | preAcknowledgeItem | cancelPreAcknowledgeItem
  | setItemAddedOn =>
    rw [lifecycleOps] at h
    obtain ⟨-, -, h⟩ := mem_onItem rfl h
    cases h
  | _ => cases h

/-- How an item comes to be reviewed when `ops` are made: it was before, it is accepted, or it is added
in a way that skips the review. -/
inductive ReviewedBy (l : LocRequest) (ops : List LocOp) (k : ItemKind) (key : String) (item' : Item k) :
    Prop
  | before {item : Item k} (hit : l.item? k key = some item) (hsame : SameItem item item')
      (hrev : item.lifecycle.Reviewed)
  | accepted {now : Moment} (hmem : .acceptItem k key now ∈ ops)
  | added {op : LocOp} {type : SubmissionType} {now : Moment} (hmem : op ∈ ops)
      (hadd : op.addition = some (k, key, item'.submitter, type, now)) (htype : type ≠ .manualByUser)

/-- **One operation.** -/
theorem step_reviewed {op : LocOp} (hd : l.DistinctKeys) (hop : op.rewritesContent = false)
    (h : l.step op = .ok l') {item' : Item k} (hit' : l'.item? k key = some item')
    (hrev : item'.lifecycle.Reviewed) : ReviewedBy l [op] k key item' := by
  rcases step_item_from hd hit' h with ⟨item, hit, hsub, hsteps⟩ | ⟨-, type, now, hadd, hlife⟩
  · rcases EmbeddableLifecycle.reviewed_steps (fun _ => lifecycleOps_setStatus) hsteps hrev with
      hrev₀ | ⟨now, hmem⟩
    · exact .before hit ⟨hsub, step_content hd hop h hit hit'⟩ hrev₀
    · have haccepts : .acceptItem k key now ∈ [op] := by
        rw [List.mem_singleton, lifecycleOps_accept hmem, item?_key hit]
      exact .accepted haccepts
  · refine .added (List.mem_singleton.mpr rfl) hadd ?_
    rintro rfl
    rw [hlife] at hrev
    rcases hrev with h' | h' | h' <;> cases h'

/-- **The operations of an event.** -/
theorem steps_reviewed {ops : List LocOp} (hd : l.DistinctKeys)
    (hops : ∀ op ∈ ops, op.rewritesContent = false) (h : ops.foldlM step l = .ok l') {item' : Item k}
    (hit' : l'.item? k key = some item') (hrev : item'.lifecycle.Reviewed) :
    ReviewedBy l ops k key item' := by
  induction ops generalizing l with
  | nil =>
    cases h
    exact .before hit' ⟨rfl, rfl⟩ hrev
  | cons op ops ih =>
    rw [List.foldlM_cons] at h
    obtain ⟨l₁, h1, h2⟩ := bind_eq_ok.mp h
    cases ih (step_distinctKeys hd h1) (fun o ho => hops o (List.mem_cons_of_mem op ho)) h2 with
    | @before item₁ hit₁ hsame₁ hrev₁ =>
      cases step_reviewed hd (hops op List.mem_cons_self) h1 hit₁ hrev₁ with
      | before hit hsame hrev₀ => exact .before hit (hsame.trans hsame₁) hrev₀
      | accepted hmem => exact .accepted (List.mem_cons.mpr (.inl (List.mem_singleton.mp hmem)))
      | added hmem hadd htype =>
        rw [← hsame₁.submitter] at hadd
        exact .added (List.mem_cons.mpr (.inl (List.mem_singleton.mp hmem))) hadd htype
    | accepted hmem => exact .accepted (List.mem_cons_of_mem op hmem)
    | added hmem hadd htype => exact .added (List.mem_cons_of_mem op hmem) hadd htype

omit [Hashing] in
theorem sameItem_stored (item : Item k) : SameItem item item.stored := ⟨rfl, Item.stored_content item⟩

omit [Hashing] in
/-- An item is submitted directly on open LOCs only. -/
theorem addItem_direct {submitter : AccountId} {data : ItemData k} {now : Moment}
    (h : l.addItem k key submitter data .directByRequester now = .ok l') : l.status = .opened := by
  obtain ⟨_, hguard, -⟩ := bind_eq_ok.mp h
  unfold ensureEditable at hguard
  split_ifs at hguard with h1 h2
  exact not_not.mp fun hne => h2 ⟨rfl, hne⟩

end LocRequest

/-! ### The system -/

namespace LocApi

variable [Hashing] [RestApi] {s s' : LocApi} {e : LocEvent} {l l' : LocRequest} {k : ItemKind}
  {key : String}

/-- The LOC has the item, from this submitter and with these contents. -/
def HoldsItem (k : ItemKind) (key : String) (submitter : AccountId) (content : ItemData k)
    (s : LocApi) : Prop :=
  ∃ l item, s.loc = some l ∧ l.item? k key = some item ∧ item.submitter = submitter ∧
    item.data.content = content

/-- The owner of the LOC accepts the item. -/
def OwnerAccepts (k : ItemKind) (key : String) (s : LocApi) (e : LocEvent) : Prop :=
  Returns (s.step e) ∧ ∃ l u view now, s.loc = some l ∧ l.isOwner u.validAccountId = true ∧
    e = .call u (.reviewItem k key view now) ∧ view.decision = some "ACCEPT"

/-- The LOC does not have the item, and the owner adds it as his own, or the requester as a file
directly to the open LOC. -/
def AddsUnreviewed (k : ItemKind) (key : String) (submitter : AccountId) (s : LocApi)
    (e : LocEvent) : Prop :=
  ∃ l, s.loc = some l ∧ l.item? k key = none ∧ match e with
    | .call user endpoint => user.validAccountId = submitter ∧ l.isOwner submitter = true ∧
      ∃ op ∈ endpoint.ops user l, ∃ now, op.addition = some (k, key, submitter, .manualByOwner, now)
    | .fileImported id _ _ => k = .file ∧ ∃ user view, s.inFlight id = some (.upload user view key) ∧
      user.validAccountId = submitter ∧ (l.isOwner submitter = true ∨
        l.isRequester submitter = true ∧ view.direct = some "true" ∧ l.status = .opened)
    | _ => False

/-- How a reviewed item has come to be so, and that it has stayed the same since. -/
inductive Provenance (l : LocRequest) (events : List LocEvent) (k : ItemKind) (key : String)
    (submitter : AccountId) (content : ItemData k) : Prop
  | accepted (h : Since step (OwnerAccepts k key) (HoldsItem k key submitter content) (start l) events)
  | unreviewed (h : Since step (AddsUnreviewed k key submitter)
      (HoldsItem k key submitter content) (start l) events)
  | created (h : Always step (HoldsItem k key submitter content) (start l) events)
      (hrev : ∃ item, l.item? k key = some item ∧ item.lifecycle.Reviewed)

/-! ### The operations of an event -/

/-- Neither an addition, nor a rewriting, nor an acceptance of an item or of the request, nor a closing
at a date. -/
def keepsReviews : LocOp → Bool
  | .addFile .. | .addMetadataItem .. | .addLink .. | .updateFileContent .. | .acceptItem ..
  | .accept .. | .close .. => false
  | _ => true

/-- How an event comes to make an operation. -/
inductive OpKind (s : LocApi) (l : LocRequest) (e : LocEvent) (op : LocOp) : Prop
  | keeps (h : keepsReviews op = true)
  | decides {u : AuthenticatedUser} {autoPublish : Bool} {now : Moment}
      (he : e = .call u (.acceptLocRequest autoPublish now)) (hop : op = .accept now)
  | closes {extrinsic : JsonExtrinsic} {timestamp : Moment} {locId : UUID}
      (he : e = .sync extrinsic timestamp (.close locId) ∨
        e = .sync extrinsic timestamp (.closeAndSeal locId)) (hop : op = .close timestamp)
  | accepts {u : AuthenticatedUser} {k : ItemKind} {key : String} {view : ReviewItemView} {now : Moment}
      (he : e = .call u (.reviewItem k key view now)) (hdecision : view.decision = some "ACCEPT")
      (hop : op = .acceptItem k key now)
  | adds {u : AuthenticatedUser} {endpoint : LocEndpoint} {k : ItemKind} {key : String} {now : Moment}
      (he : e = .call u endpoint) (hadd : op.addition =
        some (k, key, u.validAccountId, LocEndpoint.submissionType l u.validAccountId, now))
  | uploads {id : ℕ} {file : UploadedFile} {u : AuthenticatedUser} {view : AddFileView} {hash : Hash}
      {now : Moment} (he : e = .fileImported id file now)
      (hflight : s.inFlight id = some (.upload u view hash))
      (hop : op = .addFile hash u.validAccountId (view.toFile file)
        (view.submissionType l u.validAccountId) now)
  | fetches {hash : Hash} {submitter : AccountId} {data : FileData} {now : Moment}
      (hop : op = .addFile hash submitter data .manualByUser now)

/-- The operations of an endpoint. -/
theorem endpointOps_kind {u : AuthenticatedUser} {endpoint : LocEndpoint} {op : LocOp}
    (h : op ∈ endpoint.ops u l) : OpKind s l (.call u endpoint) op := by
  have hone : ∀ {op' : LocOp}, op ∈ [op'] → keepsReviews op' = true →
      OpKind s l (.call u endpoint) op :=
    fun hmem hkeeps => .keeps (List.mem_singleton.mp hmem ▸ hkeeps)
  cases endpoint with
  | acceptLocRequest autoPublish now =>
    simp only [LocEndpoint.ops] at h
    split_ifs at h
    · exact .decides rfl (List.mem_singleton.mp h)
    · rcases List.mem_cons.mp h with rfl | h
      · exact .decides rfl rfl
      · exact hone h rfl
  | addLink target nature now =>
    obtain ⟨target', -, rfl⟩ := List.mem_map.mp h
    exact .adds rfl rfl
  | addMetadata name value now =>
    simp only [LocEndpoint.ops] at h
    split at h
    · rw [List.mem_singleton.mp h]
      exact .adds rfl rfl
    · cases h
  | reviewItem k key view now =>
    simp only [LocEndpoint.ops] at h
    split_ifs at h with hdecision
    · exact .accepts rfl hdecision (List.mem_singleton.mp h)
    · obtain ⟨reason, -, rfl⟩ := List.mem_map.mp h
      exact .keeps rfl
  | _ => exact hone h rfl

omit [RestApi] in
/-- The operations of an extrinsic. -/
theorem syncOps_kind {extrinsic : JsonExtrinsic} {timestamp : Moment} {call : LocCall} {op : LocOp}
    (h : op ∈ syncOps extrinsic timestamp call) : OpKind s l (.sync extrinsic timestamp call) op := by
  have hack : ∀ {k : ItemKind} {key : String}, op ∈ syncOps.acknowledge extrinsic timestamp k key →
      OpKind s l (.sync extrinsic timestamp call) op := by
    intro k key hmem
    obtain ⟨signer, -, rfl⟩ := List.mem_map.mp hmem
    exact .keeps rfl
  have hfees : ∀ {op' : LocOp} {fees : List ℕ} {setFee : ℕ → LocOp}, keepsReviews op' = true →
      (∀ fee, keepsReviews (setFee fee) = true) → op ∈ op' :: fees.map setFee →
      OpKind s l (.sync extrinsic timestamp call) op := by
    intro op' fees setFee hop' hfee hmem
    rcases List.mem_cons.mp hmem with rfl | hmem
    · exact .keeps hop'
    · obtain ⟨fee, -, rfl⟩ := List.mem_map.mp hmem
      exact .keeps (hfee fee)
  cases call with
  | create | makeVoid | makeVoidAndReplace => exact .keeps (List.mem_singleton.mp h ▸ rfl)
  | close locId => exact .closes (.inl rfl) (List.mem_singleton.mp h)
  | closeAndSeal locId => exact .closes (.inr rfl) (List.mem_singleton.mp h)
  | addMetadata | addLink => exact hfees rfl (fun _ => rfl) h
  | addFile locId file =>
    simp only [syncOps] at h
    split at h
    · exact hfees rfl (fun _ => rfl) h
    · cases h
  | acknowledgeFile | acknowledgeMetadata | acknowledgeLink => exact hack h
  | _ => cases h

/-- **The operations of an event.** -/
theorem ops_kind {op : LocOp} (h : op ∈ s.ops l e) : OpKind s l e op := by
  cases e with
  | call u endpoint => exact endpointOps_kind h
  | fileImported id file now =>
    simp only [ops] at h
    split at h
    · rename_i u view hash hflight
      exact .uploads rfl hflight (List.mem_singleton.mp h)
    · cases h
  | sessionCreated id authToken scanRef => exact .keeps (List.mem_singleton.mp h ▸ rfl)
  | callback payload =>
    rcases List.mem_cons.mp h with rfl | h
    · exact .keeps rfl
    · obtain ⟨file, -, rfl⟩ := List.mem_map.mp h
      exact .fetches rfl
  | sync extrinsic timestamp call => exact syncOps_kind h
  | addFile | createVerificationSession => cases h

omit [RestApi] in
theorem rewritesContent_of_addition {op : LocOp} (h : op.addition ≠ none) :
    op.rewritesContent = false := by
  cases op with
  | updateFileContent => exact absurd rfl h
  | _ => rfl

omit [Hashing] [RestApi] in
theorem rewritesContent_of_keeps {op : LocOp} (h : keepsReviews op = true) :
    op.rewritesContent = false := by
  cases op with
  | updateFileContent => cases h
  | _ => rfl

omit [RestApi] in
theorem addition_of_keeps {op : LocOp} (h : keepsReviews op = true) : op.addition = none := by
  cases op with
  | addFile | addMetadataItem | addLink => cases h
  | _ => rfl

omit [RestApi] in
/-- No event rewrites what an item says. -/
theorem OpKind.content {op : LocOp} (h : OpKind s l e op) : op.rewritesContent = false := by
  cases h with
  | keeps h => exact rewritesContent_of_keeps h
  | adds he hadd => exact rewritesContent_of_addition (by simp [hadd])
  | decides he hop | closes he hop | accepts he hdecision hop | uploads he hflight hop | fetches hop =>
    rw [hop]
    rfl

omit [RestApi] in
/-- Only the review endpoint accepts items. -/
theorem OpKind.review {k : ItemKind} {key : String} {now : Moment}
    (h : OpKind s l e (.acceptItem k key now)) :
    ∃ u view, e = .call u (.reviewItem k key view now) ∧ view.decision = some "ACCEPT" := by
  cases h with
  | @accepts u _ _ view _ he hdecision hop =>
    cases hop
    exact ⟨u, view, he, hdecision⟩
  | keeps h => cases h
  | adds he hadd => cases hadd
  | decides he hop | closes he hop | uploads he hflight hop | fetches hop => cases hop

omit [RestApi] in
/-- Only `acceptLocRequest` accepts the request. -/
theorem OpKind.decision {now : Moment} (h : OpKind s l e (.accept now)) :
    ∃ u autoPublish, e = .call u (.acceptLocRequest autoPublish now) := by
  cases h with
  | @decides u autoPublish _ he hop =>
    cases hop
    exact ⟨u, autoPublish, he⟩
  | keeps h => cases h
  | adds he hadd => cases hadd
  | closes he hop | accepts he hdecision hop | uploads he hflight hop | fetches hop => cases hop

omit [RestApi] in
/-- Only extrinsics close the LOC at a date. -/
theorem OpKind.closing {timestamp : Moment} (h : OpKind s l e (.close timestamp)) :
    ∃ extrinsic locId, e = .sync extrinsic timestamp (.close locId) ∨
      e = .sync extrinsic timestamp (.closeAndSeal locId) := by
  cases h with
  | @closes extrinsic _ locId he hop =>
    cases hop
    exact ⟨extrinsic, locId, he⟩
  | keeps h => cases h
  | adds he hadd => cases hadd
  | decides he hop | accepts he hdecision hop | uploads he hflight hop | fetches hop => cases hop

omit [Hashing] [RestApi] in
theorem submissionType_owner {submitter : AccountId} {type : SubmissionType}
    (htype : type = LocEndpoint.submissionType l submitter) (hne : type ≠ .manualByUser) :
    type = .manualByOwner ∧ l.isOwner submitter = true := by
  unfold LocEndpoint.submissionType at htype
  split_ifs at htype with howner
  · exact ⟨htype, by simpa [LocRequest.isOwner] using howner.symm⟩
  · exact absurd htype hne

/-- What an endpoint adds is all that it does. -/
theorem ops_of_addition {u : AuthenticatedUser} {endpoint : LocEndpoint} {op : LocOp}
    (h : op ∈ endpoint.ops u l) (hadd : op.addition ≠ none) : endpoint.ops u l = [op] := by
  have hone : ∀ {op' : LocOp}, op ∈ [op'] → [op'] = [op] := fun hmem => by
    rw [List.mem_singleton.mp hmem]
  cases endpoint with
  | acceptLocRequest autoPublish now =>
    simp only [LocEndpoint.ops] at h
    split_ifs at h
    · exact absurd (List.mem_singleton.mp h ▸ rfl) hadd
    · rcases List.mem_pair.mp h with rfl | rfl <;> exact absurd rfl hadd
  | addLink target nature now =>
    cases target with
    | none => cases h
    | some target => exact hone h
  | addMetadata name value now =>
    simp only [LocEndpoint.ops] at h ⊢
    split at h
    · exact hone h
    · cases h
  | reviewItem k key view now =>
    simp only [LocEndpoint.ops] at h
    split_ifs at h
    · exact absurd (List.mem_singleton.mp h ▸ rfl) hadd
    · obtain ⟨reason, -, rfl⟩ := List.mem_map.mp h
      exact absurd rfl hadd
  | _ => exact hone h

omit [RestApi] in
/-- An item is added under a key that is free. -/
theorem item?_of_addition {op : LocOp} {submitter : AccountId} {type : SubmissionType} {now : Moment}
    (hops : [op].foldlM LocRequest.step l = .ok l')
    (hadd : op.addition = some (k, key, submitter, type, now)) : l.item? k key = none := by
  rw [List.foldlM_cons] at hops
  obtain ⟨l₁, hop, -⟩ := bind_eq_ok.mp hops
  cases op with
  | addFile | addMetadataItem | addLink =>
    cases hadd
    exact (LocRequest.addItem_ok hop).1
  | _ => cases hadd

/-- An operation of an event that adds an item without a review. -/
theorem addsUnreviewed_of_op {op : LocOp} {submitter : AccountId} {type : SubmissionType}
    {now : Moment} (hl : s.loc = some l) (hops : (s.ops l e).foldlM LocRequest.step l = .ok l')
    (hmem : op ∈ s.ops l e) (hadd : op.addition = some (k, key, submitter, type, now))
    (hne : type ≠ .manualByUser) : AddsUnreviewed k key submitter s e := by
  cases ops_kind hmem with
  | keeps h => rw [addition_of_keeps h] at hadd; cases hadd
  | decides he hop | closes he hop | accepts he hdecision hop => rw [hop] at hadd; cases hadd
  | @adds u endpoint _ _ _ he hadd' =>
    subst he
    cases hadd.symm.trans hadd'
    obtain ⟨htype, howner⟩ := submissionType_owner rfl hne
    have hone : endpoint.ops u l = [op] := ops_of_addition hmem (by simp [hadd])
    have hnone : l.item? k key = none := by
      rw [ops, hone] at hops
      exact item?_of_addition hops hadd
    exact ⟨l, hl, hnone, rfl, howner, op, hmem, now, htype ▸ hadd⟩
  | @uploads id file u view hash now' he hflight hop =>
    subst he hop
    cases hadd
    simp only [ops, hflight] at hops
    refine ⟨l, hl, item?_of_addition hops rfl, rfl, u, view, hflight, rfl, ?_⟩
    unfold AddFileView.submissionType at hne
    split_ifs at hne with hdirect howner
    · rw [Bool.and_eq_true, decide_eq_true_eq] at hdirect
      refine .inr ⟨hdirect.1, hdirect.2, ?_⟩
      rw [List.foldlM_cons] at hops
      obtain ⟨l₁, hadd, -⟩ := bind_eq_ok.mp hops
      have htype : view.submissionType l u.validAccountId = .directByRequester := by
        rw [AddFileView.submissionType, if_pos (by rw [hdirect.1, hdirect.2]; rfl)]
      rw [htype] at hadd
      exact LocRequest.addItem_direct hadd
    · exact .inl (by simpa [LocRequest.isOwner] using howner.symm)
    · exact absurd rfl hne
  | fetches hop =>
    rw [hop] at hadd
    cases hadd
    exact absurd rfl hne

/-! ### Runs -/

/-- The keys of the LOC are distinct. -/
def DistinctKeys (s : LocApi) : Prop := ∀ l, s.loc = some l → l.DistinctKeys

theorem step_distinctKeys (hd : s.DistinctKeys) (h : s.step e = .ok s') : s'.DistinctKeys := by
  intro l' hl'
  cases step_effect h with
  | same hloc => exact hd l' (hloc ▸ hl')
  | deleted he hdeletes hl hops hu hloc => rw [hloc] at hl'; cases hl'
  | @updated l l₁ hl hops hu hloc =>
    rw [hloc] at hl'
    cases hl'
    exact LocRequest.stored_distinctKeys (foldlM_invariant
      (fun _ _ _ hd hop => LocRequest.step_distinctKeys hd hop) (hd l hl) hops)

/-- How an item of the LOC comes to be reviewed after one event. -/
theorem step_provenance (hd : s.DistinctKeys) (h : s.step e = .ok s') (hl' : s'.loc = some l')
    {item' : Item k} (hit' : l'.item? k key = some item') (hrev : item'.lifecycle.Reviewed) :
    (∃ l item, s.loc = some l ∧ l.item? k key = some item ∧ LocRequest.SameItem item item' ∧
      item.lifecycle.Reviewed) ∨ OwnerAccepts k key s e ∨ AddsUnreviewed k key item'.submitter s e := by
  cases step_effect h with
  | same hloc => exact .inl ⟨l', item', hloc ▸ hl', hit', ⟨rfl, rfl⟩, hrev⟩
  | deleted he hdeletes hl hops hu hloc => rw [hloc] at hl'; cases hl'
  | @updated l l₁ hl hops hu hloc =>
    rw [hloc] at hl'
    cases hl'
    rw [LocRequest.item?_stored] at hit'
    obtain ⟨item₁, hit₁, rfl⟩ := Option.map_eq_some_iff.mp hit'
    cases LocRequest.steps_reviewed (hd l hl) (fun op hop => (ops_kind hop).content) hops hit₁ hrev with
    | before hit hsame hrev₀ =>
      exact .inl ⟨l, _, hl, hit, hsame.trans (LocRequest.sameItem_stored item₁), hrev₀⟩
    | accepted hmem =>
      obtain ⟨u, view, rfl, hdecision⟩ := (ops_kind hmem).review
      exact .inr (.inl ⟨⟨s', h⟩, l, u, view, _, hl, (hu u _ rfl).entitled, rfl, hdecision⟩)
    | added hmem hadd htype => exact .inr (.inr (addsUnreviewed_of_op hl hops hmem hadd htype))

theorem Provenance.concat {events : List LocEvent} {submitter : AccountId} {content : ItemData k}
    (h : Provenance l events k key submitter content)
    (hold : HoldsItem k key submitter content (run step (start l) (events ++ [e]))) :
    Provenance l (events ++ [e]) k key submitter content := by
  cases h with
  | accepted h => exact .accepted (h.concat hold)
  | unreviewed h => exact .unreviewed (h.concat hold)
  | created h hrev => exact .created (always_concat.mpr ⟨h, hold⟩) hrev

/-- **Nothing is published that was not reviewed.**  In every run from a new LOC, an item that is
accepted, published or acknowledged has been accepted by the owner, has been added by the owner or
directly by the requester, or has been so since the LOC was created; and its submitter and contents
have not changed since. -/
theorem published_reviewed (hcreated : Created l) (events : List LocEvent)
    (hl' : (run step (start l) events).loc = some l') {item : Item k}
    (hit : l'.item? k key = some item) (hrev : item.lifecycle.Reviewed) :
    Provenance l events k key item.submitter item.data.content := by
  have hkeys : ∀ events, (run step (start l) events).DistinctKeys := fun events =>
    run_induct (I := DistinctKeys) (fun _ _ _ hd h => step_distinctKeys hd h)
      (fun l₀ hl₀ => by
        cases hl₀
        exact LocRequest.stored_distinctKeys (LocRequest.reachable_sound ⟨l, hcreated, .refl⟩).keys) events
  induction events using List.reverseRecOn generalizing l' k key with
  | nil =>
    cases hl'
    rw [LocRequest.item?_stored] at hit
    obtain ⟨item₀, hit₀, rfl⟩ := Option.map_eq_some_iff.mp hit
    refine .created (always_nil.mpr ?_) ⟨item₀, hit₀, hrev⟩
    exact ⟨_, item₀.stored, rfl, by rw [LocRequest.item?_stored, hit₀]; rfl, rfl, rfl⟩
  | append_singleton events e ih =>
    have hrun : run step (start l) (events ++ [e]) = attempt step (run step (start l) events) e :=
      run_concat _ events e
    have hholds : HoldsItem k key item.submitter item.data.content
        (run step (start l) (events ++ [e])) := ⟨l', item, hl', hit, rfl, rfl⟩
    rcases attempt_cases step (run step (start l) events) e with ⟨_, -, heq⟩ | hok
    · exact (ih (by rw [← hl', hrun, heq]) hit hrev).concat hholds
    · rw [← hrun] at hok
      rcases step_provenance (hkeys events) hok hl' hit hrev with
        ⟨l₀, item₀, hl₀, hit₀, hsame, hrev₀⟩ | haccepts | hadds
      · have hbefore := ih hl₀ hit₀ hrev₀
        rw [← hsame.submitter, ← hsame.content] at hbefore
        exact hbefore.concat hholds
      · exact .accepted (since_now haccepts hholds)
      · exact .unreviewed (since_now hadds hholds)

end LocApi

/-! ### A LOC of the holder of an Ethereum account -/

/-- Names are their own hashes. -/
@[reducible] def namesHashed : Hashing := ⟨fun name => name⟩

/-- Lengths are not checked. -/
@[reducible] def lengthsAccepted : RestApi := ⟨fun value _ _ _ => requireDefined value⟩

def ethereumRequester : AuthenticatedUser := { validAccountId := ⟨.ethereum, "requester"⟩ }

def legalOfficer : AuthenticatedUser where
  validAccountId := .polkadot "owner"
  isLegalOfficerOnNode := true

/-- The requester adds a link and submits the LOC, the owner accepts both and publishes the link. -/
def linkPublished : List LocEvent :=
  [ .call ethereumRequester (.addLink (some "target") (some "nature") 2),
    .call ethereumRequester .submitLocRequest,
    .call legalOfficer (.reviewItem .link "target" ⟨some "ACCEPT", none⟩ 3),
    .call legalOfficer (.acceptLocRequest false 4),
    .call legalOfficer (.prePublishOrAcknowledgeItem .link "target") ]

def publishedLink : Item .link where
  key := "target"
  index := 0
  submitter := ⟨.ethereum, "requester"⟩
  lifecycle := { status := .acknowledged, reviewedOn := some 3 }
  data := (⟨"nature", none⟩ : LinkData)

def ethereumLocPublished : LocRequest :=
  { LocRequest.ethereumLoc with status := .opened, decisionOn := some 4, links := [publishedLink] }

theorem run_linkPublished :
    letI := namesHashed
    letI := lengthsAccepted
    (run LocApi.step (.start LocRequest.ethereumLoc) linkPublished).loc = some ethereumLocPublished := by
  decide +kernel

theorem published_reviewed_linkPublished :
    letI := namesHashed
    letI := lengthsAccepted
    Created LocRequest.ethereumLoc ∧
      LocApi.Provenance LocRequest.ethereumLoc linkPublished .link "target" publishedLink.submitter
        publishedLink.data.content := by
  let _ := namesHashed
  let _ := lengthsAccepted
  have hit : ethereumLocPublished.item? .link "target" = some publishedLink := rfl
  exact ⟨LocRequest.ethereumLoc_created, LocApi.published_reviewed LocRequest.ethereumLoc_created
    linkPublished run_linkPublished hit (.inr (.inr rfl))⟩

/-! ### The review of the LOC -/

namespace LocRequest

variable [Hashing] {l l' : LocRequest}

/-- The request was accepted: the LOC waits for its opening, is open, or is closed. -/
def Decided (l : LocRequest) : Prop :=
  l.status = .reviewAccepted ∨ l.status = .opened ∨ l.status = .closed

theorem step_decided {op : LocOp} (h : l.step op = .ok l') (hdecided : l'.Decided) :
    l.Decided ∨ (∃ now, op = .accept now) ∨ ∃ timestamp, op = .close timestamp := by
  obtain ⟨haccepts, hafter⟩ := step_status h
  unfold Decided at hdecided ⊢
  rw [hafter] at hdecided
  cases op with
  | submit | reject | rework => rcases hdecided with h' | h' | h' <;> cases h'
  | accept now => exact .inr (.inl ⟨now, rfl⟩)
  | close timestamp => exact .inr (.inr ⟨timestamp, rfl⟩)
  | preOpen => exact .inl (haccepts.imp_right .inl)
  | cancelPreOpen => exact .inl (.inr (.inl haccepts))
  | cancelPreClose => exact .inl (.inr (.inr haccepts))
  | openLoc =>
    refine .inl ?_
    simp only [LocOp.statusAfter] at hdecided
    split_ifs at hdecided with hst
    · exact hst.imp_right .inl
    · exact hdecided
  | preClose =>
    refine .inl ?_
    simp only [LocOp.statusAfter] at hdecided
    split_ifs at hdecided with hst
    · exact .inr (.inl hst)
    · exact hdecided
  | _ => exact .inl hdecided

theorem steps_decided {ops : List LocOp} (h : ops.foldlM step l = .ok l') (hdecided : l'.Decided) :
    l.Decided ∨ (∃ now, .accept now ∈ ops) ∨ ∃ timestamp, .close timestamp ∈ ops := by
  induction ops generalizing l with
  | nil =>
    cases h
    exact .inl hdecided
  | cons op ops ih =>
    rw [List.foldlM_cons] at h
    obtain ⟨l₁, h1, h2⟩ := bind_eq_ok.mp h
    rcases ih h2 with hdecided₁ | ⟨now, hmem⟩ | ⟨timestamp, hmem⟩
    · rcases step_decided h1 hdecided₁ with h' | ⟨now, rfl⟩ | ⟨timestamp, rfl⟩
      · exact .inl h'
      · exact .inr (.inl ⟨now, List.mem_cons_self⟩)
      · exact .inr (.inr ⟨timestamp, List.mem_cons_self⟩)
    · exact .inr (.inl ⟨now, List.mem_cons_of_mem op hmem⟩)
    · exact .inr (.inr ⟨timestamp, List.mem_cons_of_mem op hmem⟩)

end LocRequest

namespace LocApi

variable [Hashing] [RestApi] {s s' : LocApi} {e : LocEvent} {l l' : LocRequest}

/-- The LOC is there, and its request was accepted. -/
def Decided (s : LocApi) : Prop := ∃ l, s.loc = some l ∧ l.Decided

/-- The owner of the LOC, a legal officer on this node, accepts the request. -/
def OwnerAcceptsRequest (s : LocApi) (e : LocEvent) : Prop :=
  Returns (s.step e) ∧ ∃ l u autoPublish now, s.loc = some l ∧ l.isOwner u.validAccountId = true ∧
    u.isLegalOfficerOnNode = true ∧ e = .call u (.acceptLocRequest autoPublish now)

/-- An extrinsic closes the LOC. -/
def ClosedOnChain (s : LocApi) (e : LocEvent) : Prop :=
  Returns (s.step e) ∧ ∃ l extrinsic timestamp, s.loc = some l ∧
    (e = .sync extrinsic timestamp (.close l.id) ∨ e = .sync extrinsic timestamp (.closeAndSeal l.id))

/-- Whether the request was accepted after an event. -/
theorem step_decided (h : s.step e = .ok s') (hdecided : s'.Decided) :
    s.Decided ∨ OwnerAcceptsRequest s e ∨ ClosedOnChain s e := by
  obtain ⟨l', hl', hdecided⟩ := hdecided
  cases step_effect h with
  | same hloc => exact .inl ⟨l', hloc ▸ hl', hdecided⟩
  | deleted he hdeletes hl hops hu hloc => rw [hloc] at hl'; cases hl'
  | @updated l l₁ hl hops hu hloc =>
    rw [hloc] at hl'
    cases hl'
    rcases LocRequest.steps_decided hops hdecided with hdecided₀ | ⟨now, hmem⟩ | ⟨timestamp, hmem⟩
    · exact .inl ⟨l, hl, hdecided₀⟩
    · obtain ⟨u, autoPublish, rfl⟩ := (ops_kind hmem).decision
      have hu := hu u _ rfl
      exact .inr (.inl ⟨⟨s', h⟩, l, u, autoPublish, now, hl, hu.entitled, hu.authenticated, rfl⟩)
    · obtain ⟨extrinsic, locId, he⟩ := (ops_kind hmem).closing
      by_cases hid : l.id = locId
      · exact .inr (.inr ⟨⟨s', h⟩, l, extrinsic, timestamp, hl, hid ▸ he⟩)
      · -- the extrinsic is about another LOC
        have hsame : s.step e = .ok s := by
          rcases he with rfl | rfl <;> simp [step, sync, syncMutator, hl, hid]
        cases hsame.symm.trans h
        exact .inl ⟨_, hloc, hdecided⟩

/-- **No LOC is opened that was not accepted.**  In every run from a new LOC, a LOC that is accepted,
open or closed has been so ever since its owner accepted the request, or an extrinsic closed the LOC,
or since its creation. -/
theorem decided_accepted (events : List LocEvent) (hdecided : (run step (start l) events).Decided) :
    Since step OwnerAcceptsRequest Decided (start l) events ∨
      Since step ClosedOnChain Decided (start l) events ∨ Always step Decided (start l) events := by
  induction events using List.reverseRecOn with
  | nil => exact .inr (.inr (always_nil.mpr hdecided))
  | append_singleton events e ih =>
    have hrun : run step (start l) (events ++ [e]) = attempt step (run step (start l) events) e :=
      run_concat _ events e
    have hconcat : (run step (start l) events).Decided → _ := fun hbefore =>
      (ih hbefore).imp (fun h => h.concat hdecided) fun h =>
        h.imp (fun h => h.concat hdecided) fun h => always_concat.mpr ⟨h, hdecided⟩
    rcases attempt_cases step (run step (start l) events) e with ⟨_, -, heq⟩ | hok
    · exact hconcat (by rwa [hrun, heq] at hdecided)
    · rw [← hrun] at hok
      rcases step_decided hok hdecided with hbefore | haccepts | hcloses
      · exact hconcat hbefore
      · exact .inl (since_now haccepts hdecided)
      · exact .inr (.inl (since_now hcloses hdecided))

end LocApi

theorem decided_accepted_linkPublished :
    letI := namesHashed
    letI := lengthsAccepted
    (run LocApi.step (.start LocRequest.ethereumLoc) linkPublished).Decided ∧
      (Since LocApi.step LocApi.OwnerAcceptsRequest LocApi.Decided (.start LocRequest.ethereumLoc)
          linkPublished ∨
        Since LocApi.step LocApi.ClosedOnChain LocApi.Decided (.start LocRequest.ethereumLoc)
          linkPublished ∨
        Always LocApi.step LocApi.Decided (.start LocRequest.ethereumLoc) linkPublished) := by
  let _ := namesHashed
  let _ := lengthsAccepted
  have hdecided : (run LocApi.step (.start LocRequest.ethereumLoc) linkPublished).Decided :=
    ⟨_, run_linkPublished, .inr (.inl rfl)⟩
  exact ⟨hdecided, LocApi.decided_accepted linkPublished hdecided⟩

end Logion
