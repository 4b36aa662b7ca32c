import Logion.Loc.Reachable
import Mathlib.Data.List.Induction

/-!
# Consent — whose act acknowledges an item

Operations are called in the name of an account: the authenticated user of an endpoint, or the signer
of an extrinsic.  An item of the requester or of a verified issuer is acknowledged with the consent of
the owner, an item of a verified issuer with a Polkadot account with that of the issuer too.

* `Act`, `LocRequest.act`: an operation in the name of an account, with the checks of the endpoints.
* `Consenting.step`: what the flags and the status of one item say of the consents.
* `acknowledged_with_consents`: in a run, as long as the items of submitters without a Polkadot account
  are published by the owner.
* `acknowledged_by_requester`: a requester with an Ethereum account acknowledges his own item.
-/

namespace Logion

open Fallible Keyed

/-! ### One item -/

/-- `owner` and `issuer` stand for the consents that were given; `needsIssuer` says that the issuer has
to give his. -/
structure EmbeddableLifecycle.Consenting (owner issuer needsIssuer : Prop)
    (c : EmbeddableLifecycle) : Prop where
  status : c.status = .acknowledged → owner
  byOwner : c.acknowledgedByOwner = true → owner
  byIssuer : c.acknowledgedByVerifiedIssuer = true → issuer
  both : c.status = .acknowledged → needsIssuer → issuer

/-- A transition made with the consents that it takes. -/
def LifecycleOp.Respects (owner issuer needsIssuer : Prop) : LifecycleOp → Prop
  | .prePublishOrAcknowledge isAcknowledged _ => isAcknowledged = true → owner ∧ ¬ needsIssuer
  | .preAcknowledge expectVerifiedIssuer byVerifiedIssuer _ =>
    (byVerifiedIssuer = false → owner) ∧ (byVerifiedIssuer = true → issuer) ∧
      (needsIssuer → expectVerifiedIssuer = true)
  | .setStatus status => status ≠ .acknowledged
  | _ => True

theorem LifecycleOp.Respects.mono {owner issuer owner' issuer' needsIssuer : Prop} {o : LifecycleOp}
    (h : o.Respects owner issuer needsIssuer) (howner : owner → owner') (hissuer : issuer → issuer') :
    o.Respects owner' issuer' needsIssuer := by
  cases o with
  | prePublishOrAcknowledge => exact fun hack => ⟨howner (h hack).1, (h hack).2⟩
  | preAcknowledge => exact ⟨fun hby => howner (h.1 hby), fun hby => hissuer (h.2.1 hby), h.2.2⟩
  | setStatus => exact h
  | _ => trivial

namespace EmbeddableLifecycle

variable {owner issuer needsIssuer : Prop} {c c' : EmbeddableLifecycle}

theorem Consenting.mono {owner' issuer' : Prop} (h : c.Consenting owner issuer needsIssuer)
    (howner : owner → owner') (hissuer : issuer → issuer') :
    c.Consenting owner' issuer' needsIssuer where
  status hs := howner (h.status hs)
  byOwner ho := howner (h.byOwner ho)
  byIssuer hi := hissuer (h.byIssuer hi)
  both hs hn := hissuer (h.both hs hn)

/-- Neither acknowledged nor pre-acknowledged. -/
theorem consenting_of_none (hs : c.status ≠ .acknowledged) (ho : c.acknowledgedByOwner = true → owner)
    (hi : c.acknowledgedByVerifiedIssuer = false) : c.Consenting owner issuer needsIssuer where
  status h := absurd h hs
  byOwner := ho
  byIssuer h := absurd h (by simp [hi])
  both h := absurd h hs

/-- The flags as they were, the status not acknowledged. -/
theorem Consenting.leave (h : c.Consenting owner issuer needsIssuer) (hs : c'.status ≠ .acknowledged)
    (ho : c'.acknowledgedByOwner = true → c.acknowledgedByOwner = true)
    (hi : c'.acknowledgedByVerifiedIssuer = true → c.acknowledgedByVerifiedIssuer = true) :
    c'.Consenting owner issuer needsIssuer where
  status h' := absurd h' hs
  byOwner h' := h.byOwner (ho h')
  byIssuer h' := h.byIssuer (hi h')
  both h' := absurd h' hs

/-- **One transition.** -/
theorem Consenting.step {o : LifecycleOp} (h : c.Consenting owner issuer needsIssuer)
    (ho : o.Respects owner issuer needsIssuer) (hstep : c.step o = .ok c') :
    c'.Consenting owner issuer needsIssuer := by
  cases o with
  | requestReview =>
    obtain ⟨-, rfl⟩ := requestReview_ok hstep
    exact h.leave (by simp) id id
  | accept now =>
    obtain ⟨-, rfl⟩ := accept_ok hstep
    exact h.leave (by simp) id id
  | reject reason now =>
    obtain ⟨-, rfl⟩ := reject_ok hstep
    exact h.leave (by simp) id id
  | prePublishOrAcknowledge isAck addedOn =>
    obtain ⟨-, rfl⟩ := prePublishOrAcknowledge_ok hstep
    cases isAck with
    | false => exact h.leave (by simp [acknowledgedOrPublished]) id id
    | true =>
      obtain ⟨howner, hissuer⟩ := ho rfl
      exact ⟨fun _ => howner, h.byOwner, h.byIssuer, fun _ hn => absurd hn hissuer⟩
  | cancelPrePublishOrAcknowledge isAck =>
    obtain ⟨-, -, rfl⟩ := cancelPrePublishOrAcknowledge_ok hstep
    exact h.leave (by simp) id id
  | preAcknowledge expectVI byVI on =>
    obtain ⟨howner, hissuer, hexpect⟩ := ho
    obtain ⟨-, rfl⟩ := preAcknowledge_ok hstep
    have hbyOwner : (c.setAcknowledged byVI on).acknowledgedByOwner = true → owner := by
      intro hflag
      cases byVI with
      | false => exact howner rfl
      | true => exact h.byOwner hflag
    have hbyIssuer : (c.setAcknowledged byVI on).acknowledgedByVerifiedIssuer = true → issuer := by
      intro hflag
      cases byVI with
      | false => exact h.byIssuer hflag
      | true => exact hissuer rfl
    have hfull : (c.setAcknowledged byVI on).fullyAcknowledged expectVI = true →
        owner ∧ (needsIssuer → issuer) := by
      intro hfull
      simp only [fullyAcknowledged, Bool.or_eq_true, Bool.and_eq_true, Bool.not_eq_true'] at hfull
      rcases hfull with ⟨hflag, hflag'⟩ | ⟨hnot, hflag⟩
      · exact ⟨hbyOwner hflag, fun _ => hbyIssuer hflag'⟩
      · refine ⟨hbyOwner hflag, fun hn => ?_⟩
        rw [hexpect hn] at hnot
        cases hnot
    have hstatus : ∀ {status : ItemStatus},
        status = (if (c.setAcknowledged byVI on).fullyAcknowledged expectVI = true then .acknowledged
          else c.status) → status = .acknowledged → owner ∧ (needsIssuer → issuer) := by
      intro status heq hs
      rw [hs] at heq
      split_ifs at heq with hf
      · exact hfull hf
      · exact ⟨h.status heq.symm, h.both heq.symm⟩
    exact ⟨fun hs => (hstatus rfl hs).1, hbyOwner, hbyIssuer, fun hs => (hstatus rfl hs).2⟩
  | cancelPreAcknowledge byVI =>
    obtain ⟨-, -, -, rfl⟩ := cancelPreAcknowledge_ok hstep
    exact h.leave (by simp) (by simp; tauto) (by simp; tauto)
  | setAddedOn addedOn =>
    cases hstep
    unfold setAddedOn
    refine ⟨fun hs => h.status ?_, h.byOwner, h.byIssuer, fun hs => h.both ?_⟩
    all_goals
      dsimp only at hs
      split_ifs at hs
      exact hs
  | setStatus status =>
    cases hstep
    exact h.leave ho id id

theorem Consenting.steps {os : List LifecycleOp} (h : c.Consenting owner issuer needsIssuer)
    (ho : ∀ o ∈ os, o.Respects owner issuer needsIssuer) (hsteps : c.steps os = .ok c') :
    c'.Consenting owner issuer needsIssuer := by
  induction os generalizing c with
  | nil => cases hsteps; exact h
  | cons o os ih =>
    rw [EmbeddableLifecycle.steps, List.foldlM_cons] at hsteps
    obtain ⟨c₁, h1, h2⟩ := bind_eq_ok.mp hsteps
    exact ih (h.step (ho o List.mem_cons_self) h1) (fun o' h' => ho o' (List.mem_cons_of_mem o h')) h2

/-- The flag of the issuer is set by his pre-acknowledgement alone. -/
theorem issuerFlag_step {o : LifecycleOp} (hstep : c.step o = .ok c')
    (hset : c'.acknowledgedByVerifiedIssuer = true) : c.acknowledgedByVerifiedIssuer = true ∨
      ∃ expectVI on, o = .preAcknowledge expectVI true on := by
  cases o with
  | requestReview => obtain ⟨-, rfl⟩ := requestReview_ok hstep; exact .inl hset
  | accept now => obtain ⟨-, rfl⟩ := accept_ok hstep; exact .inl hset
  | reject reason now => obtain ⟨-, rfl⟩ := reject_ok hstep; exact .inl hset
  | prePublishOrAcknowledge isAck addedOn =>
    obtain ⟨-, rfl⟩ := prePublishOrAcknowledge_ok hstep
    exact .inl hset
  | cancelPrePublishOrAcknowledge isAck =>
    obtain ⟨-, -, rfl⟩ := cancelPrePublishOrAcknowledge_ok hstep
    exact .inl hset
  | preAcknowledge expectVI byVI on =>
    obtain ⟨-, rfl⟩ := preAcknowledge_ok hstep
    cases byVI with
    | false => exact .inl hset
    | true => exact .inr ⟨expectVI, on, rfl⟩
  | cancelPreAcknowledge byVI =>
    obtain ⟨-, -, -, rfl⟩ := cancelPreAcknowledge_ok hstep
    exact .inl (Bool.and_eq_true_iff.mp hset).1
  | setAddedOn addedOn => cases hstep; exact .inl hset
  | setStatus status => cases hstep; exact .inl hset

theorem issuerFlag_steps {os : List LifecycleOp} (hsteps : c.steps os = .ok c')
    (hunset : c.acknowledgedByVerifiedIssuer = false)
    (hset : c'.acknowledgedByVerifiedIssuer = true) :
    ∃ expectVI on, .preAcknowledge expectVI true on ∈ os := by
  induction os generalizing c with
  | nil =>
    cases hsteps
    rw [hunset] at hset
    cases hset
  | cons o os ih =>
    rw [EmbeddableLifecycle.steps, List.foldlM_cons] at hsteps
    obtain ⟨c₁, h1, h2⟩ := bind_eq_ok.mp hsteps
    cases hflag : c₁.acknowledgedByVerifiedIssuer with
    | false =>
      obtain ⟨expectVI, on, hmem⟩ := ih h2 hflag
      exact ⟨expectVI, on, List.mem_cons_of_mem o hmem⟩
    | true =>
      rcases issuerFlag_step h1 hflag with hold | ⟨expectVI, on, rfl⟩
      · rw [hunset] at hold
        cases hold
      · exact ⟨expectVI, on, List.mem_cons_self⟩

end EmbeddableLifecycle

/-! ### Operations in the name of an account -/

/-- An operation and the authenticated user, or the signer of the extrinsic. -/
structure Act where
  account : AccountId
  op : LocOp

namespace LocRequest

section

variable [Hashing] (l : LocRequest)

/-- `canOpen`. -/
def canOpen (user : Option AccountId) : Bool :=
  user.any fun user => l.isRequester user && user.type = .polkadot &&
    (l.status = .reviewAccepted || l.status = .opened)

/-- The submission type that the endpoints choose for a contributor. -/
def mayUse (contributor : AccountId) : SubmissionType → Bool
  | .directByRequester => l.isRequester contributor
  | .manualByOwner => l.isOwner contributor
  | .manualByUser => !l.isOwner contributor

/-- What the endpoints and the synchroniser make of the account: it submits, removes and confirms in
its own name; it opens and closes as a party.  The other checks of the endpoints are left out. -/
def allows (account : AccountId) : LocOp → Bool
  | .addFile _ submitter _ type _ | .addMetadataItem submitter _ _ type _
  | .addLink _ submitter _ type _ => submitter = account && l.mayUse account type
  | .removeItem _ contributor _ | .prePublishOrAcknowledgeItem _ _ contributor
  | .cancelPrePublishOrAcknowledgeItem _ _ contributor | .preAcknowledgeItem _ _ contributor _
  | .cancelPreAcknowledgeItem _ _ contributor => contributor = account
  | .preOpen _ => l.canOpen account || (l.isOwner account && !l.canOpen l.getRequester)
  | .cancelPreOpen _ => l.canOpen account
  | .preClose _ | .cancelPreClose _ => l.isOwner account
  | _ => true

/-- An operation in the name of an account. -/
def act (a : Act) : Except Err LocRequest :=
  if l.allows a.account a.op then l.step a.op else throw (.error "Unauthorized")

/-- The operation pre-publishes the item. -/
def Publishes (k : ItemKind) (key : String) : LocOp → Prop
  | .prePublishOrAcknowledgeItem k' key' _ => k' = k ∧ key' = key
  | .preOpen autoPublish =>
    autoPublish = true ∧ ∃ item, l.item? k key = some item ∧ item.status = .reviewAccepted
  | .openLoc _ items => key ∈ items.keys k ∧ (l.status = .reviewAccepted ∨ l.status = .opened)
  | _ => False

/-- The operation pre-acknowledges the item, or closes the LOC with `autoAck`. -/
def Acknowledges (k : ItemKind) (key : String) : LocOp → Prop
  | .preAcknowledgeItem k' key' _ _ => k' = k ∧ key' = key
  | .preClose autoAck => autoAck = true
  | _ => False

/-- The owner pre-publishes or pre-acknowledges the item, or closes the LOC with `autoAck`. -/
def OwnerConfirms (k : ItemKind) (key : String) (a : Act) : Prop :=
  l.isOwner a.account = true ∧ Returns (l.act a) ∧
    (l.Publishes k key a.op ∨ Acknowledges k key a.op)

/-- The issuer pre-acknowledges the item. -/
def IssuerConfirms (k : ItemKind) (key : String) (issuer : AccountId) (a : Act) : Prop :=
  a.account = issuer ∧ Returns (l.act a) ∧
    ∃ contributor on, a.op = .preAcknowledgeItem k key contributor on

/-- The LOC has the item. -/
def HasItem (k : ItemKind) (key : String) : Prop := (l.item? k key).isSome

/-- At the end of the run from `l`, everyone who must has consented to the acknowledged items since
they were submitted. -/
structure Consented (acts : List Act) : Prop where
  owner : ∀ k, ∀ item ∈ (run act l acts).items k, item.status = .acknowledged →
    (run act l acts).isOwner item.submitter = false →
    Since act (fun l a => l.OwnerConfirms k item.key a) (fun l => l.HasItem k item.key) l acts
  issuer : ∀ k, ∀ item ∈ (run act l acts).items k, item.status = .acknowledged →
    (run act l acts).isVerifiedIssuer item.submitter = true → item.submitter.type = .polkadot →
    Since act (fun l a => l.IssuerConfirms k item.key item.submitter a)
      (fun l => l.HasItem k item.key) l acts

/-- Only the submitter of an item sets `acknowledgedByVerifiedIssuer`, by a pre-acknowledgement. -/
def OnlyIssuerSets (a : Act) : Prop :=
  ∀ k key item item', l.item? k key = some item → (attempt act l a).item? k key = some item' →
    item.lifecycle.acknowledgedByVerifiedIssuer = false →
    item'.lifecycle.acknowledgedByVerifiedIssuer = true → l.IssuerConfirms k key item.submitter a

/-- In every state of the run. -/
def EveryoneConsents (acts : List Act) : Prop :=
  (∀ pre, pre <+: acts → l.Consented pre) ∧ Along act OnlyIssuerSets l acts

/-- Whoever publishes an item of a submitter without a Polkadot account is the owner. -/
def OwnerPublishes (a : Act) : Prop :=
  ∀ k key item, l.item? k key = some item → item.submitter.type ≠ .polkadot →
    l.Publishes k key a.op → l.isOwner a.account = true

end

/-! ### One act -/

section

variable [Hashing] {l l' : LocRequest} {a : Act} {k : ItemKind} {key : String} {item : Item k}

theorem act_ok (h : l.act a = .ok l') : l.allows a.account a.op = true ∧ l.step a.op = .ok l' := by
  unfold act at h
  split_ifs at h with hallows
  exact ⟨hallows, h⟩

omit [Hashing] in
/-- Publications acknowledge the items of submitters without a Polkadot account. -/
theorem respects_publication {owner issuer : Prop} {addedOn : Option Moment}
    (hsub : l.isOwner item.submitter = false) (howner : item.submitter.type ≠ .polkadot → owner) :
    LifecycleOp.Respects owner issuer
      (l.isVerifiedIssuer item.submitter = true ∧ item.submitter.type = .polkadot)
      (.prePublishOrAcknowledge (l.isPublishAcknowledge item.submitter) addedOn) := by
  intro hack
  have htype : item.submitter.type ≠ .polkadot := by
    simpa [isPublishAcknowledge, hsub] using hack
  exact ⟨howner htype, fun hneeds => htype hneeds.2⟩

omit [Hashing] in
/-- A pre-acknowledgement is that of the owner or that of the issuer. -/
theorem preAcknowledgeItem_party {contributor : AccountId} {on : Option Moment}
    (hit : l.item? k key = some item) (h : l.preAcknowledgeItem k key contributor on = .ok l') :
    (l.isVerifiedIssuer contributor = false → l.isOwner contributor = true) ∧
      (l.isVerifiedIssuer contributor = true → contributor = item.submitter) := by
  obtain ⟨item', hit', hcan⟩ := canPreAcknowledgeItem_ok.mp (roleCheck_ok h).1
  cases hit.symm.trans hit'
  unfold canPreAcknowledge at hcan
  rw [Bool.or_eq_true, Bool.and_eq_true, decide_eq_true_eq] at hcan
  rcases hcan with howner | ⟨hissuer, rfl⟩
  · refine ⟨fun _ => howner, fun hvi => ?_⟩
    simp [isVerifiedIssuer, howner] at hvi
  · refine ⟨fun hvi => ?_, fun _ => rfl⟩
    rw [hissuer] at hvi
    cases hvi

/-- **What an act does to an item** it does with the consents that it takes. -/
theorem respects_of_act (hit : l.item? k key = some item) (hsub : l.isOwner item.submitter = false)
    (hpub : l.OwnerPublishes a) (h : l.act a = .ok l') {o : LifecycleOp}
    (ho : o ∈ l.lifecycleOps k item a.op) :
    o.Respects (l.OwnerConfirms k key a) (l.IssuerConfirms k key item.submitter a)
      (l.isVerifiedIssuer item.submitter = true ∧ item.submitter.type = .polkadot) := by
  obtain ⟨hallows, hstep⟩ := act_ok h
  have hreturns : Returns (l.act a) := ⟨l', h⟩
  have hkey : item.key = key := item?_key hit
  have hpublish : l.Publishes k key a.op → item.submitter.type ≠ .polkadot →
      l.OwnerConfirms k key a := fun hp htype =>
    ⟨hpub k key item hit htype hp, hreturns, .inl hp⟩
  obtain ⟨account, op⟩ := a
  change o ∈ l.lifecycleOps k item op at ho
  cases op with
  | submit =>
    simp only [lifecycleOps] at ho
    split_ifs at ho
    · rw [List.mem_singleton.mp ho]
      simp [LifecycleOp.Respects]
    · cases ho
  | preOpen autoPublish =>
    simp only [lifecycleOps, Bool.and_eq_true, decide_eq_true_eq] at ho
    split_ifs at ho with hauto
    · rw [List.mem_singleton.mp ho]
      exact respects_publication hsub (hpublish ⟨hauto.1, item, hit, hauto.2⟩)
    · cases ho
  | openLoc createdOn items =>
    simp only [lifecycleOps] at ho
    split_ifs at ho with hst
    · obtain ⟨hcount, rfl⟩ := List.mem_replicate.mp ho
      have hmem : key ∈ items.keys k :=
        hkey ▸ List.count_pos_iff.mp (Nat.pos_of_ne_zero hcount)
      exact respects_publication hsub (hpublish ⟨hmem, hst⟩)
    · cases ho
  | preClose autoAck =>
    simp only [lifecycleOps] at ho
    split_ifs at ho with hauto
    · rw [List.mem_singleton.mp ho]
      exact ⟨fun _ => ⟨hallows, hreturns, .inr hauto⟩, fun hvi => absurd hvi (by simp),
        fun hneeds => hneeds.1⟩
    · cases ho
  | prePublishOrAcknowledgeItem k' key' contributor =>
    rw [lifecycleOps] at ho
    obtain ⟨rfl, rfl, rfl⟩ := mem_onItem hkey ho
    exact respects_publication hsub (hpublish ⟨rfl, rfl⟩)
  | preAcknowledgeItem k' key' contributor on =>
    rw [lifecycleOps] at ho
    obtain ⟨rfl, rfl, rfl⟩ := mem_onItem hkey ho
    obtain rfl : contributor = account := of_decide_eq_true hallows
    obtain ⟨hbyOwner, hbyIssuer⟩ := preAcknowledgeItem_party hit hstep
    exact ⟨fun hvi => ⟨hbyOwner hvi, hreturns, .inr ⟨rfl, rfl⟩⟩,
      fun hvi => ⟨hbyIssuer hvi, hreturns, contributor, on, rfl⟩, fun hneeds => hneeds.1⟩
  | cancelPreOpen autoPublish =>
    simp only [lifecycleOps] at ho
    split_ifs at ho
    · rw [List.mem_singleton.mp ho]
      trivial
    · cases ho
  | cancelPreClose autoAck =>
    simp only [lifecycleOps] at ho
    split_ifs at ho
    · rw [List.mem_singleton.mp ho]
      trivial
    · cases ho
  | requestItemReview | acceptItem | rejectItem | cancelPrePublishOrAcknowledgeItem
  | cancelPreAcknowledgeItem | setItemAddedOn =>
    rw [lifecycleOps] at ho
    obtain ⟨-, -, rfl⟩ := mem_onItem hkey ho
    trivial
  | _ => cases ho

/-! ### The runs -/

/-- In the state after the run, every item has the consents that its flags and its status tell. -/
structure Given (l : LocRequest) (acts : List Act) : Prop where
  keys : (run act l acts).DistinctKeys
  item : ∀ {k key item}, (run act l acts).item? k key = some item →
    (run act l acts).isOwner item.submitter = false → item.lifecycle.Consenting
      (Since act (fun l a => l.OwnerConfirms k key a) (fun l => l.HasItem k key) l acts)
      (Since act (fun l a => l.IssuerConfirms k key item.submitter a) (fun l => l.HasItem k key) l acts)
      ((run act l acts).isVerifiedIssuer item.submitter = true ∧ item.submitter.type = .polkadot)

/-- An item that an act adds is not acknowledged. -/
theorem consenting_of_addition {owner issuer needsIssuer : Prop} {submitter : AccountId}
    {type : SubmissionType} {now : Moment} (hallows : l.allows a.account a.op = true)
    (hadd : a.op.addition = some (k, key, submitter, type, now)) (hsub : l.isOwner submitter = false) :
    (EmbeddableLifecycle.fromSubmissionType type now).Consenting owner issuer needsIssuer := by
  have hmayUse : l.mayUse submitter type = true := by
    obtain ⟨account, op⟩ := a
    cases op with
    | addFile | addMetadataItem | addLink =>
      obtain ⟨hname, hmay⟩ : _ ∧ _ := by simpa only [allows, Bool.and_eq_true] using hallows
      cases hadd
      rw [of_decide_eq_true hname]
      exact hmay
    | _ => cases hadd
  cases type with
  | manualByOwner =>
    have howner : l.isOwner submitter = true := hmayUse
    rw [hsub] at howner
    cases howner
  | manualByUser | directByRequester =>
    refine EmbeddableLifecycle.consenting_of_none ?_ (fun ho => ?_) rfl
    · simp [EmbeddableLifecycle.fromSubmissionType]
    · simp [EmbeddableLifecycle.fromSubmissionType] at ho

/-- **One more act.** -/
theorem Given.concat {acts : List Act} (h : l.Given acts)
    (hpub : (run act l acts).OwnerPublishes a) : l.Given (acts ++ [a]) := by
  have hrun : run act l (acts ++ [a]) = attempt act (run act l acts) a := run_concat l acts a
  rcases attempt_cases act (run act l acts) a with ⟨e, -, heq⟩ | hok
  · rw [heq] at hrun
    refine ⟨hrun ▸ h.keys, fun {k key item} hit hsub => ?_⟩
    have hhas : (run act l (acts ++ [a])).HasItem k key := Option.isSome_of_eq_some hit
    rw [hrun] at hit hsub ⊢
    exact (h.item hit hsub).mono (fun hs => hs.concat hhas) fun hs => hs.concat hhas
  · rw [← hrun] at hok
    obtain ⟨hallows, hstep⟩ := act_ok hok
    refine ⟨step_distinctKeys h.keys hstep, fun {k key item} hit hsub => ?_⟩
    have hhas : (run act l (acts ++ [a])).HasItem k key := Option.isSome_of_eq_some hit
    rw [step_isOwner hstep] at hsub
    rw [step_isVerifiedIssuer hstep]
    rcases step_item_from h.keys hit hstep with ⟨item₀, hit₀, hsame, hsteps⟩ | hnew
    · rw [hsame] at hsub ⊢
      refine ((h.item hit₀ hsub).mono (fun hs => hs.concat hhas) fun hs => hs.concat hhas).steps
        (fun o ho => ?_) hsteps
      exact (respects_of_act hit₀ hsub hpub hok ho).mono (fun hc => since_now hc hhas)
        fun hc => since_now hc hhas
    · obtain ⟨-, type, now, hadd, hlife⟩ := hnew
      rw [hlife]
      exact consenting_of_addition hallows hadd hsub

/-! ### The LOCs of the factory -/

/-- No item has been acknowledged, by anyone. -/
def Unacknowledged (l : LocRequest) : Prop :=
  l.DistinctKeys ∧ ∀ k key item, l.item? k key = some item → item.lifecycle.Consenting False False False

omit [Hashing] in
theorem unacknowledged_of_blank (h : Blank l) : l.Unacknowledged := by
  refine ⟨fun k => by simp [h.items k], fun k key item hit => ?_⟩
  rw [item?, h.items k] at hit
  cases hit

/-- The operations of the factory. -/
theorem Unacknowledged.step {op : LocOp} (h : l.Unacknowledged) (hstep : l.step op = .ok l')
    (hop : op = .submit ∨ ∃ k key submitter type now, type ≠ .manualByOwner ∧
      op.addition = some (k, key, submitter, type, now)) : l'.Unacknowledged := by
  refine ⟨step_distinctKeys h.1 hstep, fun k key item hit => ?_⟩
  rcases step_item_from h.1 hit hstep with ⟨item₀, hit₀, -, hsteps⟩ | ⟨-, type, now, hadd, hlife⟩
  · refine (h.2 k key item₀ hit₀).steps (fun o ho => ?_) hsteps
    rcases hop with rfl | ⟨k', key', submitter, type, now, -, hadd⟩
    · simp only [lifecycleOps] at ho
      split_ifs at ho
      · rw [List.mem_singleton.mp ho]
        simp [LifecycleOp.Respects]
      · cases ho
    · cases op with
      | addFile | addMetadataItem | addLink => cases ho
      | _ => cases hadd
  · rcases hop with rfl | ⟨k', key', submitter', type', now', htype, hadd'⟩
    · cases hadd
    · cases hadd.symm.trans hadd'
      rw [hlife]
      refine EmbeddableLifecycle.consenting_of_none ?_ (fun ho => ?_) rfl
      · cases type <;> simp [EmbeddableLifecycle.fromSubmissionType]
      · simp [EmbeddableLifecycle.fromSubmissionType, htype] at ho

theorem unacknowledged_of_created (h : Created l) : l.Unacknowledged := by
  cases h with
  | newLOLocRequest id description h | newLocRequest id description draft h =>
    obtain ⟨_, -, h⟩ := bind_eq_ok.mp h
    exact unacknowledged_of_blank (createLocRequest_blank h)
  | newSofRequest id description target submitter nature now h =>
    obtain ⟨_, -, h⟩ := bind_eq_ok.mp h
    obtain ⟨l₀, hcreate, h⟩ := bind_eq_ok.mp h
    obtain ⟨l₁, hlink, hsubmit⟩ := bind_eq_ok.mp h
    have hadd : l₀.step (.addLink target submitter nature .manualByUser now) = .ok l₁ := hlink
    have hsubmitted : l₁.step .submit = .ok l := hsubmit
    have hadded := (unacknowledged_of_blank (createLocRequest_blank hcreate)).step hadd
      (.inr ⟨_, _, _, _, _, by simp, rfl⟩)
    exact hadded.step hsubmitted (.inl rfl)
  | newLoc id description metadata links now h =>
    obtain ⟨_, -, h⟩ := bind_eq_ok.mp h
    obtain ⟨l₀, hcreate, h⟩ := bind_eq_ok.mp h
    obtain ⟨l₁, hmetadata, hlinks⟩ := bind_eq_ok.mp h
    have hadded : l₁.Unacknowledged := by
      refine foldlM_invariant (fun l item l' hl hadd => ?_)
        (unacknowledged_of_blank (createLocRequest_blank hcreate)) hmetadata
      have hstep : l.step (.addMetadataItem item.submitter item.name item.value
        .directByRequester now) = .ok l' := hadd
      exact hl.step hstep (.inr ⟨_, _, _, _, _, by simp, rfl⟩)
    refine foldlM_invariant (fun l item l' hl hadd => ?_) hadded hlinks
    have hstep : l.step (.addLink item.target item.submitter item.nature .directByRequester now) =
      .ok l' := hadd
    exact hl.step hstep (.inr ⟨_, _, _, _, _, by simp, rfl⟩)

theorem given_of_created (h : Created l) : l.Given [] := by
  obtain ⟨hkeys, hitems⟩ := unacknowledged_of_created h
  refine ⟨hkeys, fun {k key item} hit _ => ?_⟩
  have hnone := hitems k key item hit
  refine ⟨fun hs => (hnone.status hs).elim, fun ho => (hnone.byOwner ho).elim,
    fun hi => (hnone.byIssuer hi).elim, fun hs => (hnone.status hs).elim⟩

/-! ### Main results -/

theorem run_isOwner (l : LocRequest) (acts : List Act) (account : AccountId) :
    (run act l acts).isOwner account = l.isOwner account :=
  run_induct (I := fun l' => l'.isOwner account = l.isOwner account)
    (fun _ _ _ h hok => (step_isOwner (act_ok hok).2 account).trans h) rfl acts

theorem given_of_run {acts : List Act} (h : Created l) (hpub : Along act OwnerPublishes l acts) :
    l.Given acts := by
  induction acts using List.reverseRecOn with
  | nil => exact given_of_created h
  | append_singleton acts a ih =>
    obtain ⟨hinit, hlast⟩ := along_append.mp hpub
    exact (ih hinit).concat hlast.1

theorem Given.consented {acts : List Act} (h : l.Given acts) : l.Consented acts where
  owner k item hmem hst hsub := by
    have hit : (run act l acts).item? k item.key = some item := lookup_of_mem (h.keys k) hmem
    exact (h.item hit hsub).status hst
  issuer k item hmem hst hvi htype := by
    have hit : (run act l acts).item? k item.key = some item := lookup_of_mem (h.keys k) hmem
    have hsub : (run act l acts).isOwner item.submitter = false := by
      have hboth : (!(run act l acts).isOwner item.submitter) = true :=
        (Bool.and_eq_true_iff.mp hvi).1
      simpa using hboth
    exact (h.item hit hsub).both hst ⟨hvi, htype⟩

/-- The issuer's pre-acknowledgement, among what an act does to an item. -/
theorem issuerConfirms_of_mem (hit : l.item? k key = some item) (h : l.act a = .ok l')
    {expectVI : Bool} {on : Option Moment}
    (ho : .preAcknowledge expectVI true on ∈ l.lifecycleOps k item a.op) :
    l.IssuerConfirms k key item.submitter a := by
  obtain ⟨hallows, hstep⟩ := act_ok h
  have hreturns : Returns (l.act a) := ⟨l', h⟩
  obtain ⟨account, op⟩ := a
  change _ ∈ l.lifecycleOps k item op at ho
  cases op with
  | preAcknowledgeItem k' key' contributor on' =>
    rw [lifecycleOps] at ho
    obtain ⟨rfl, rfl, heq⟩ := mem_onItem (item?_key hit) ho
    obtain rfl : contributor = account := of_decide_eq_true hallows
    obtain ⟨-, hvi, -⟩ := LifecycleOp.preAcknowledge.inj heq
    exact ⟨(preAcknowledgeItem_party hit hstep).2 hvi.symm, hreturns, contributor, on', rfl⟩
  | submit | preOpen | cancelPreOpen | openLoc | preClose | cancelPreClose =>
    simp only [lifecycleOps] at ho
    split_ifs at ho <;> simp at ho
  | requestItemReview | acceptItem | rejectItem | prePublishOrAcknowledgeItem
  | cancelPrePublishOrAcknowledgeItem | cancelPreAcknowledgeItem | setItemAddedOn =>
    rw [lifecycleOps] at ho
    cases (mem_onItem (item?_key hit) ho).2.2
  | _ => cases ho

/-- No other contributor sets `acknowledgedByVerifiedIssuer`. -/
theorem onlyIssuerSets (hd : l.DistinctKeys) (a : Act) : l.OnlyIssuerSets a := by
  intro k key item item' hit hit' hunset hset
  rcases attempt_cases act l a with ⟨e, -, heq⟩ | hok
  · rw [heq] at hit'
    cases hit.symm.trans hit'
    rw [hunset] at hset
    cases hset
  · rcases step_item_from hd hit' (act_ok hok).2 with ⟨item₀, hit₀, -, hsteps⟩ | ⟨hnone, -⟩
    · cases hit.symm.trans hit₀
      obtain ⟨expectVI, on, hmem⟩ := EmbeddableLifecycle.issuerFlag_steps hsteps hunset hset
      exact issuerConfirms_of_mem hit hok hmem
    · rw [hit] at hnone
      cases hnone

/-- **Consents.**  In every state of a run from a LOC of the factory, the owner and the issuer have
consented to the items that are acknowledged, when the items of submitters without a Polkadot account
are published by the owner. -/
theorem acknowledged_with_consents (h : Created l) {acts : List Act}
    (hpub : Along act OwnerPublishes l acts) : l.EveryoneConsents acts := by
  refine ⟨fun pre hpre => ?_, along_iff.mpr fun pre a post he => ?_⟩
  · obtain ⟨post, rfl⟩ := hpre
    exact (given_of_run h (along_append.mp hpub).1).consented
  · subst he
    exact onlyIssuerSets (given_of_run h (along_append.mp hpub).1).keys a

end

/-- An identity LOC requested by the holder of an Ethereum account. -/
def ethereumDescription : LocRequestDescription where
  requesterAddress := some ⟨.ethereum, "requester"⟩
  requesterIdentityLoc := none
  ownerAddress := .polkadot "owner"
  locType := .identity
  createdOn := 1
  userIdentity := some ⟨"Ether", "Holder", "holder@example.org", "+32"⟩
  collectionParams := none
  fees := ⟨none, none, none⟩

def ethereumLoc : LocRequest :=
  LocRequestFactory.newInstance "15ed922d-5960-4147-a73f-97d362cb7c46" ethereumDescription true
    .manualByUser

theorem ethereumLoc_created [Hashing] : Created ethereumLoc :=
  .newLocRequest "15ed922d-5960-4147-a73f-97d362cb7c46" ethereumDescription true rfl

/-- The requester adds a link and submits the LOC; the owner accepts both and opens the LOC. -/
def acceptedByOwner : List Act :=
  [ ⟨⟨.ethereum, "requester"⟩, .addLink "target" ⟨.ethereum, "requester"⟩ "nature" .manualByUser 2⟩,
    ⟨⟨.ethereum, "requester"⟩, .submit⟩,
    ⟨.polkadot "owner", .acceptItem .link "target" 3⟩,
    ⟨.polkadot "owner", .accept 4⟩,
    ⟨.polkadot "owner", .preOpen false⟩ ]

/-- Then one of them publishes the link. -/
def publishedBy (account : AccountId) : List Act :=
  acceptedByOwner ++ [⟨account, .prePublishOrAcknowledgeItem .link "target" account⟩]

theorem acknowledged_with_consents_ethereum :
    letI : Hashing := ⟨fun name => name⟩
    Created ethereumLoc ∧ Along act OwnerPublishes ethereumLoc (publishedBy (.polkadot "owner")) ∧
      EveryoneConsents ethereumLoc (publishedBy (.polkadot "owner")) := by
  let _ : Hashing := ⟨fun name => name⟩
  have hpub : Along act OwnerPublishes ethereumLoc (publishedBy (.polkadot "owner")) :=
    ⟨fun _ _ _ _ _ hp => hp.elim, fun _ _ _ _ _ hp => hp.elim, fun _ _ _ _ _ hp => hp.elim,
      fun _ _ _ _ _ hp => hp.elim, fun _ _ _ _ _ hp => absurd hp.1 (by decide),
      fun _ _ _ _ _ _ => rfl, trivial⟩
  exact ⟨ethereumLoc_created, hpub, acknowledged_with_consents ethereumLoc_created hpub⟩

/-- The requester acknowledges his own link. -/
theorem acknowledged_by_requester :
    letI : Hashing := ⟨fun name => name⟩
    ¬ ∀ l, Created l → ∀ acts, EveryoneConsents l acts := by
  let _ : Hashing := ⟨fun name => name⟩
  intro h
  have hconsented := (h _ ethereumLoc_created (publishedBy ⟨.ethereum, "requester"⟩)).1 _
    (List.prefix_refl _)
  have hsince := hconsented.owner .link _ List.mem_cons_self rfl (by decide)
  obtain ⟨pre, a, hmem, howner, -, hconfirms⟩ := hsince.exists_mem
  rw [run_isOwner] at howner
  simp only [publishedBy, acceptedByOwner, List.cons_append, List.nil_append, List.mem_cons,
    List.not_mem_nil, or_false] at hmem
  rcases hmem with rfl | rfl | rfl | rfl | rfl | rfl
  · exact absurd howner (by decide)
  · exact absurd howner (by decide)
  · simp [Publishes, Acknowledges] at hconfirms
  · simp [Publishes, Acknowledges] at hconfirms
  · simp [Publishes, Acknowledges] at hconfirms
  · exact absurd howner (by decide)

end LocRequest

end Logion
