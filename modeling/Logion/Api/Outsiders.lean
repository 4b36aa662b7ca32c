import Logion.Api.LocApi
import Logion.Lib.Unwinding

/-!
# Outsiders — what the users without a role, and the verified issuers, can do to a LOC

The parties of a LOC are its owner, its requester and the verified issuers that the chain lists as
selected when they call.

* `run_outsiders`: in every run, the requests of the users who are not parties can be left out.
* `Confined`: what the requests of users who are neither the owner nor the requester may change.
* `issuers_confined`: this is all that they change, in every run of their requests.
-/

namespace Logion

open Fallible Keyed

/-- The user whose request an event is. -/
def LocEvent.user : LocEvent → Option AuthenticatedUser
  | .call user _ | .addFile _ user _ | .createVerificationSession _ user => some user
  | .fileImported .. | .sessionCreated .. | .callback _ | .sync .. => none

section

variable {u : AuthenticatedUser} {l l' : LocRequest} {endpoint : LocEndpoint}

namespace LocApi

variable [Hashing] [RestApi] {s s' : LocApi} {e : LocEvent}

/-- A request that is one update: the LOC is there, the endpoint has accepted it. -/
theorem call_ok (h : s.step (.call u endpoint) = .ok s') : ∃ l l', s.loc = some l ∧
    endpoint.authenticates u = true ∧ endpoint.perform u l = .ok l' ∧
    s' = { s with loc := if endpoint.deletes then none else some l'.stored } := by
  obtain ⟨hauth, h⟩ := require_bind_ok.mp h
  split_ifs at h with hdeletes
  · obtain ⟨l, hl, h⟩ := bind_eq_ok.mp h
    obtain ⟨l', hperform, h⟩ := bind_eq_ok.mp h
    exact ⟨l, l', requireDefined_loc hl, hauth, hperform, by
      rw [if_pos hdeletes]
      exact (Except.ok.inj h).symm⟩
  · obtain ⟨l, l', hl, hperform, hs'⟩ := update_ok h
    exact ⟨l, l', hl, hauth, hperform, by rw [if_neg hdeletes]; exact hs'⟩

omit [Hashing] [RestApi] in
theorem addFile_ok {id : ℕ} {view : AddFileView} (h : s.addFile id u view = .ok s') :
    ∃ l hash, s.loc = some l ∧ Contribution.itemContribution.isContributor l u = true ∧
      s' = s.begin id (.upload u view hash) := by
  obtain ⟨l, hl, h⟩ := bind_eq_ok.mp h
  obtain ⟨hash, hcheck, h⟩ := bind_eq_ok.mp h
  obtain ⟨hcontributor, -⟩ := (contributor_bind_ok rfl).mp hcheck
  exact ⟨l, hash, requireDefined_loc hl, hcontributor, (Except.ok.inj h).symm⟩

omit [Hashing] [RestApi] in
theorem createVerificationSession_ok {id : ℕ} (h : s.createVerificationSession id u = .ok s') :
    ∃ l, s.loc = some l ∧ l.isRequester u.validAccountId = true ∧ s' = s.begin id (.session u) := by
  obtain ⟨l, hl, h⟩ := bind_eq_ok.mp h
  obtain ⟨_, hcheck, h⟩ := bind_eq_ok.mp h
  obtain ⟨requester, hrequester, hcheck⟩ := bind_eq_ok.mp hcheck
  obtain ⟨hsame, -⟩ := require_bind_ok.mp hcheck
  refine ⟨l, requireDefined_loc hl, ?_, (Except.ok.inj h).symm⟩
  unfold LocRequest.isRequester
  cases hr : l.getRequester with
  | none => rw [hr] at hrequester; cases hrequester
  | some requester' =>
    rw [hr] at hrequester
    cases hrequester
    exact decide_eq_true (congrArg some (of_decide_eq_true hsame))

/-! ### Users without a role -/

end LocApi

end

/-! ### Verified issuers -/

namespace LocRequest

variable {l l' l₁ : LocRequest} {k : ItemKind} {key : String} {accounts : List AccountId}
  {account : AccountId}

/-- The item with its submitter and its content, and with its lifecycle or as a draft sent for review. -/
def Untouched {k : ItemKind} (item item' : Item k) : Prop :=
  item'.submitter = item.submitter ∧ item'.data.content = item.data.content ∧
    (item'.lifecycle = item.lifecycle ∨ item.status = .draft ∧
      item'.lifecycle = { item.lifecycle with status := .reviewPending })

/-- What users who are neither the owner nor the requester may change: their own items come and go,
and drafts are sent for review. -/
structure Confined (accounts : List AccountId) (l l' : LocRequest) : Prop where
  rest : l'.withoutItems = l.withoutItems
  others : ∀ {k key} {item : Item k}, l.item? k key = some item → item.submitter ∉ accounts →
    ∃ item', l'.item? k key = some item' ∧ Untouched item item'
  own : ∀ {k key} {item' : Item k}, l'.item? k key = some item' → item'.submitter ∉ accounts →
    ∃ item, l.item? k key = some item ∧ Untouched item item'

theorem Untouched.trans {item item₁ item' : Item k} (h : Untouched item item₁)
    (h' : Untouched item₁ item') : Untouched item item' := by
  obtain ⟨hsub, hcontent, hlife⟩ := h
  obtain ⟨hsub', hcontent', hlife'⟩ := h'
  refine ⟨hsub'.trans hsub, hcontent'.trans hcontent, ?_⟩
  rcases hlife with hsame | ⟨hdraft, hpending⟩
  · have hstatus : item₁.status = item.status := congrArg EmbeddableLifecycle.status hsame
    rw [hsame, hstatus] at hlife'
    exact hlife'
  · rcases hlife' with hsame' | ⟨hdraft', -⟩
    · exact .inr ⟨hdraft, hsame'.trans hpending⟩
    · rw [Item.status, hpending] at hdraft'
      cases hdraft'

theorem Confined.refl (l : LocRequest) : Confined accounts l l where
  rest := rfl
  others hit _ := ⟨_, hit, rfl, rfl, .inl rfl⟩
  own hit _ := ⟨_, hit, rfl, rfl, .inl rfl⟩

theorem Confined.trans (h : Confined accounts l l₁) (h' : Confined accounts l₁ l') :
    Confined accounts l l' where
  rest := h'.rest.trans h.rest
  others hit hsub := by
    obtain ⟨item₁, hit₁, hitem₁⟩ := h.others hit hsub
    obtain ⟨item', hit', hitem'⟩ := h'.others hit₁ (hitem₁.1 ▸ hsub)
    exact ⟨item', hit', hitem₁.trans hitem'⟩
  own hit' hsub := by
    obtain ⟨item₁, hit₁, hitem'⟩ := h'.own hit' hsub
    obtain ⟨item, hit, hitem₁⟩ := h.own hit₁ (hitem'.1 ▸ hsub)
    exact ⟨item, hit, hitem₁.trans hitem'⟩

theorem Confined.mono {accounts' : List AccountId} (h : Confined accounts l l')
    (hsub : ∀ account ∈ accounts, account ∈ accounts') : Confined accounts' l l' where
  rest := h.rest
  others hit hnot := h.others hit fun hmem => hnot (hsub _ hmem)
  own hit hnot := h.own hit fun hmem => hnot (hsub _ hmem)

variable [Hashing] {op : LocOp}

/-- The operations that the endpoints make for a user who is neither the owner nor the requester. -/
def ByIssuer (account : AccountId) : LocOp → Prop
  | .addFile _ submitter .. | .addMetadataItem submitter .. | .addLink _ submitter .. =>
    submitter = account
  | .removeItem _ remover _ => remover = account
  | .requestItemReview .. => True
  | .preAcknowledgeItem _ _ contributor _ | .cancelPreAcknowledgeItem _ _ contributor =>
    contributor = account
  | _ => False

omit [Hashing] in
/-- Only its submitter removes an item. -/
theorem removeItem_own {remover : AccountId} (h : l.removeItem k remover key = .ok l') {item : Item k}
    (hit : l.item? k key = some item) : item.submitter = remover := by
  obtain ⟨_, -, h⟩ := bind_eq_ok.mp h
  rw [hit] at h
  dsimp only at h
  split_ifs at h with hcan
  simp only [canRemove, Bool.not_eq_true', Bool.not_eq_false, Bool.and_eq_true,
    decide_eq_true_eq] at hcan
  exact hcan.1.symm

omit [Hashing] in
/-- The other items stay. -/
theorem removeItem_item_ne_none {remover : AccountId} {k' : ItemKind} {key' : String}
    (h : l.removeItem k' remover key' = .ok l') {item : Item k} (hit : l.item? k key = some item)
    (hne : ¬(k = k' ∧ key = key')) : l'.item? k key ≠ none := by
  by_cases hk : k = k'
  · subst hk
    obtain ⟨removed, hrem, -⟩ := removeItem_ok h
    rw [removeItem_item_ne hrem h fun hkey => hne ⟨rfl, hkey⟩, hit]
    exact Option.some_ne_none _
  · rw [item?, removeItem_items_of_ne h hk, ← item?, hit]
    exact Option.some_ne_none _

omit [Hashing] in
/-- Moves that leave the items of the others, or send them for review. -/
theorem Moves.confined {ops : (k : ItemKind) → Item k → List LifecycleOp} (hmoves : Moves l l' ops)
    (hrest : l'.withoutItems = l.withoutItems)
    (hcontent : ∀ {k key} {item item' : Item k}, l.item? k key = some item →
      l'.item? k key = some item' → item'.data.content = item.data.content)
    (hops : ∀ k key (item : Item k), l.item? k key = some item → item.submitter ≠ account →
      ops k item = [] ∨ ops k item = [.requestReview]) : Confined [account] l l' := by
  have hlife : ∀ {k key} {item : Item k} {c}, l.item? k key = some item → item.submitter ∉ [account] →
      item.lifecycle.steps (ops k item) = .ok c → c = item.lifecycle ∨ item.status = .draft ∧
        c = { item.lifecycle with status := .reviewPending } := by
    intro k key item c hit hsub hsteps
    rcases hops k key item hit (by simpa using hsub) with hnil | hreview
    · rw [hnil] at hsteps
      exact .inl (Except.ok.inj hsteps).symm
    · rw [hreview, steps_singleton] at hsteps
      exact .inr (EmbeddableLifecycle.requestReview_ok hsteps)
  refine ⟨hrest, fun hit hsub => ?_, fun hit' hsub => ?_⟩
  · obtain ⟨item', hit', hsame, hsteps⟩ := hmoves.forward hit
    exact ⟨item', hit', hsame, hcontent hit hit', hlife hit hsub hsteps⟩
  · obtain ⟨item, hit, hsame, hsteps⟩ := hmoves.item hit'
    exact ⟨item, hit, hsame, hcontent hit hit', hlife hit (hsame ▸ hsub) hsteps⟩

/-- **One operation** of a user who is not the owner. -/
theorem step_confined (hd : l.DistinctKeys) (howner : l.isOwner account = false)
    (hby : ByIssuer account op) (h : l.step op = .ok l') : Confined [account] l l' := by
  have hcontent : op.rewritesContent = false → ∀ {k key} {item item' : Item k},
      l.item? k key = some item → l'.item? k key = some item' →
      item'.data.content = item.data.content := fun hop _ _ _ _ hit hit' =>
    step_content hd hop h hit hit'
  have hadd : ∀ {k' : ItemKind} {key' : String} {data : ItemData k'} {type : SubmissionType}
      {now : Moment}, l.addItem k' key' account data type now = .ok l' →
      Confined [account] l l' := by
    intro k' key' data type now hadd
    have hrest : l'.withoutItems = l.withoutItems := by
      obtain ⟨-, rfl⟩ := addItem_ok hadd
      exact withoutItems_setItems _
    refine ⟨hrest, fun hit _ => ⟨_, addItem_items hadd hit, rfl, rfl, .inl rfl⟩, fun hit' hsub => ?_⟩
    rcases addItem_item_from hadd hit' with hold | ⟨-, -, -, hnew, -⟩
    · exact ⟨_, hold, rfl, rfl, .inl rfl⟩
    · exact absurd (List.mem_singleton.mpr hnew) hsub
  -- the contributor is not the owner: the item is his own
  have hparty : ∀ {k' : ItemKind} {key' : String}, l.canPreAcknowledgeItem k' key' account = .ok true →
      ∀ {op : AccountId → LifecycleOp} k key (item : Item k), l.item? k key = some item →
        item.submitter ≠ account → onItem k' key' op k item = [] := by
    intro k' key' hcheck op k key item hit hsub
    obtain ⟨item₀, hit₀, hcan⟩ := canPreAcknowledgeItem_ok.mp hcheck
    refine if_neg ?_
    rintro ⟨rfl, rfl⟩
    rw [item?_key hit] at hit₀
    cases hit.symm.trans hit₀
    simp only [canPreAcknowledge, howner, Bool.false_or, Bool.and_eq_true, decide_eq_true_eq] at hcan
    exact hsub hcan.2.symm
  cases op with
  | addFile hash submitter | addMetadataItem submitter | addLink target submitter =>
    obtain rfl : submitter = account := hby
    exact hadd h
  | removeItem k' remover key' =>
    obtain rfl : remover = account := hby
    have hrest : l'.withoutItems = l.withoutItems := by
      obtain ⟨_, -, rfl⟩ := removeItem_ok h
      exact (withoutItems_setItemsToDelete _).trans (withoutItems_setItems _)
    refine ⟨hrest, fun {k key item} hit hsub => ?_, fun hit' _ => ?_⟩
    · rcases removeItem_items hd h hit with hnone | ⟨item', hit', hsame, hlife⟩
      · by_cases hkey : k = k' ∧ key = key'
        · obtain ⟨rfl, rfl⟩ := hkey
          exact absurd (List.mem_singleton.mpr (removeItem_own h hit)) hsub
        · exact absurd hnone (removeItem_item_ne_none h hit hkey)
      · exact ⟨item', hit', hsame, hcontent rfl hit hit', .inl hlife⟩
    · obtain ⟨item, hit, hsame, hlife⟩ := removeItem_item_from hd h hit'
      exact ⟨item, hit, hsame, hcontent rfl hit hit', .inl hlife⟩
  | requestItemReview k' key' =>
    refine (step_moves rfl h).confined (mutateItem_rest h) (hcontent rfl) fun k key item _ _ => ?_
    simp only [lifecycleOps, onItem]
    split_ifs
    · exact .inr rfl
    · exact .inl rfl
  | preAcknowledgeItem k' key' contributor on | cancelPreAcknowledgeItem k' key' contributor =>
    obtain rfl : contributor = account := hby
    obtain ⟨hcheck, hmutate⟩ := roleCheck_ok h
    refine (step_moves rfl h).confined (mutateItem_rest hmutate) (hcontent rfl)
      fun k key item hit hsub => .inl ?_
    rw [lifecycleOps]
    exact hparty hcheck k key item hit hsub
  | _ => exact hby.elim

omit [Hashing] in
/-- A LOC is saved without its markers, which those of the rows do not have either. -/
theorem Confined.stored (h : Confined accounts l₁.stored l') : Confined accounts l₁.stored l'.stored where
  rest := by
    have hsecrets : l₁.stored.stored.secrets = l₁.stored.secrets := by
      show (l₁.secrets.map _).map _ = _
      rw [List.map_map]
      rfl
    have hstored : l'.stored.withoutItems = l'.withoutItems.stored := rfl
    rw [hstored, h.rest]
    show { l₁.stored.withoutItems with secrets := l₁.stored.stored.secrets } = _
    rw [hsecrets]
    rfl
  others hit hsub := by
    obtain ⟨item', hit', hsame, hcontent, hlife⟩ := h.others hit hsub
    refine ⟨item'.stored, by rw [item?_stored, hit']; rfl, hsame, ?_, hlife⟩
    rw [Item.stored_content, hcontent]
  own hit' hsub := by
    rw [item?_stored] at hit'
    obtain ⟨item₁, hit₁, rfl⟩ := Option.map_eq_some_iff.mp hit'
    obtain ⟨item, hit, hsame, hcontent, hlife⟩ := h.own hit₁ hsub
    exact ⟨item, hit, hsame, (Item.stored_content item₁).trans hcontent, hlife⟩

end LocRequest

namespace LocEndpoint

variable [Hashing] [RestApi] {u : AuthenticatedUser} {l l' : LocRequest} {endpoint : LocEndpoint}

omit [RestApi] in
theorem step_of_one_op {op : LocOp} (h : [op].foldlM LocRequest.step l = .ok l') :
    l.step op = .ok l' := by
  rw [List.foldlM_cons] at h
  obtain ⟨l₁, h1, h2⟩ := bind_eq_ok.mp h
  cases h2
  exact h1

/-- What an endpoint does for a user who is neither the owner nor the requester. -/
theorem perform_byIssuer (howner : l.isOwner u.validAccountId = false)
    (hrequester : l.isRequester u.validAccountId = false) (h : endpoint.perform u l = .ok l') :
    endpoint.deletes = false ∧ ∃ op, LocRequest.ByIssuer u.validAccountId op ∧ l.step op = .ok l' := by
  obtain ⟨hentitled, hops⟩ := perform_ok h
  have hone : ∀ {op : LocOp}, [op].foldlM LocRequest.step l = .ok l' →
      LocRequest.ByIssuer u.validAccountId op →
      ∃ op, LocRequest.ByIssuer u.validAccountId op ∧ l.step op = .ok l' := fun hops hby =>
    ⟨_, hby, step_of_one_op hops⟩
  have hnot : ∀ {k : ItemKind} {key : String},
      l.canPrePublishOrAcknowledgeItem k key u.validAccountId ≠ .ok true := by
    intro k key hcheck
    obtain ⟨-, item, -, hcan⟩ := LocRequest.canPrePublishOrAcknowledgeItem_ok.mp hcheck
    simp [LocRequest.canPrePublishOrAcknowledge, howner, hrequester] at hcan
  cases endpoint with
  | addLink target nature now =>
    cases target with
    | none =>
      obtain ⟨-, h⟩ := (contributor_bind_ok rfl).mp h
      cases h
    | some target => exact ⟨rfl, hone hops rfl⟩
  | addMetadata name value now =>
    obtain ⟨-, h⟩ := (contributor_bind_ok rfl).mp h
    obtain ⟨name', -, h⟩ := bind_eq_ok.mp h
    obtain ⟨value', -, h⟩ := bind_eq_ok.mp h
    exact ⟨rfl, .addMetadataItem u.validAccountId name' value' _ now, rfl, thrown_ok.mp h⟩
  | deleteItem k key | preAcknowledgeItem k key | cancelPreAcknowledgeItem k key =>
    exact ⟨rfl, hone hops rfl⟩
  | requestItemReview k key => exact ⟨rfl, hone hops trivial⟩
  | prePublishOrAcknowledgeItem k key | cancelPrePublishOrAcknowledgeItem k key =>
    exact absurd (LocRequest.roleCheck_ok (step_of_one_op hops)).1 hnot
  | openLoc | cancelOpenLoc =>
    simp [entitled, LocRequest.canOpen, hrequester] at hentitled
  | submitLocRequest | cancelLocRequest | reworkLocRequest | cancelCreateOpenLoc | addSecret
  | removeSecret =>
    rw [entitled, hrequester] at hentitled
    cases hentitled
  | _ =>
    rw [entitled, howner] at hentitled
    cases hentitled

end LocEndpoint

namespace LocApi

variable [Hashing] [RestApi] {s s' : LocApi} {e : LocEvent} {l : LocRequest}
  {accounts : List AccountId}

/-- A request of one of the accounts, or its second half. -/
def IsBy (accounts : List AccountId) (e : LocEvent) : Prop :=
  match e with
  | .call u _ | .addFile _ u _ | .createVerificationSession _ u => u.validAccountId ∈ accounts
  | .fileImported .. | .sessionCreated .. => True
  | .callback _ | .sync .. => False

/-- After requests of the accounts: what they have changed, and their uploads. -/
structure ConfinedTo (accounts : List AccountId) (l : LocRequest) (s : LocApi) : Prop where
  loc : ∃ l', s.loc = some l' ∧ l'.DistinctKeys ∧ LocRequest.Confined accounts l.stored l'
  inFlight : ∀ id request, s.inFlight id = some request →
    ∃ u view hash, request = .upload u view hash ∧ u.validAccountId ∈ accounts

omit [Hashing] [RestApi] in
theorem finish_inFlight {id id' : ℕ} {mutator : LocRequest → Except ApiErr LocRequest}
    {request : InFlight} (h : (s.finish id mutator).inFlight id' = some request) :
    s.inFlight id' = some request := by
  have hsame : (s.finish id mutator).inFlight = Function.update s.inFlight id none := by
    unfold finish
    rcases attempt_cases update { s with inFlight := Function.update s.inFlight id none } mutator with
      ⟨_, -, heq⟩ | hok
    · rw [heq]
    · obtain ⟨l, l', -, -, heq⟩ := update_ok hok
      rw [heq]
  rw [hsame] at h
  by_cases hid : id' = id
  · rw [hid, Function.update_self] at h
    cases h
  · rwa [Function.update_of_ne hid] at h

/-- **One event.** -/
theorem step_confinedTo
    (haccounts : ∀ account ∈ accounts, l.isOwner account = false ∧ l.isRequester account = false)
    (hs : ConfinedTo accounts l s) (hby : IsBy accounts e) (h : s.step e = .ok s') :
    ConfinedTo accounts l s' := by
  obtain ⟨⟨l₀, hl₀, hd, hconfined⟩, hflight⟩ := hs
  have hroles : ∀ account ∈ accounts,
      l₀.isOwner account = false ∧ l₀.isRequester account = false := by
    intro account hmem
    unfold LocRequest.isOwner LocRequest.isRequester LocRequest.getOwner LocRequest.getRequester
    rw [LocRequest.owner_of_withoutItems hconfined.rest,
      LocRequest.requester_of_withoutItems hconfined.rest]
    exact haccounts account hmem
  -- an operation made for one of the accounts
  have hop : ∀ {account : AccountId} {op : LocOp} {l₁ : LocRequest}, account ∈ accounts →
      LocRequest.ByIssuer account op → l₀.step op = .ok l₁ →
      l₁.stored.DistinctKeys ∧ LocRequest.Confined accounts l.stored l₁.stored := by
    intro account op l₁ hmem hbyIssuer hstep
    have hone := LocRequest.step_confined hd (hroles account hmem).1 hbyIssuer hstep
    refine ⟨LocRequest.stored_distinctKeys (LocRequest.step_distinctKeys hd hstep), ?_⟩
    exact (hconfined.trans (hone.mono fun a ha => List.mem_singleton.mp ha ▸ hmem)).stored
  have hbegin : ∀ {id : ℕ} {u : AuthenticatedUser} {view : AddFileView} {hash : Hash},
      u.validAccountId ∈ accounts → ConfinedTo accounts l (s.begin id (.upload u view hash)) := by
    intro id u view hash hmem
    refine ⟨⟨l₀, hl₀, hd, hconfined⟩, fun id' request hrequest => ?_⟩
    by_cases hid : id' = id
    · subst hid
      simp only [begin, Function.update_self, Option.some.injEq] at hrequest
      exact ⟨u, view, hash, hrequest.symm, hmem⟩
    · simp only [begin, Function.update_of_ne hid] at hrequest
      exact hflight id' request hrequest
  cases e with
  | call u endpoint =>
    obtain ⟨l₁, l', hl₁, -, hperform, rfl⟩ := call_ok h
    cases hl₀.symm.trans hl₁
    obtain ⟨howner, hrequester⟩ := hroles u.validAccountId hby
    obtain ⟨hdeletes, op, hbyIssuer, hstep⟩ :=
      LocEndpoint.perform_byIssuer howner hrequester hperform
    rw [hdeletes]
    exact ⟨⟨l'.stored, rfl, hop hby hbyIssuer hstep⟩, hflight⟩
  | addFile id u view =>
    obtain ⟨_, hash, -, -, rfl⟩ := addFile_ok h
    exact hbegin hby
  | createVerificationSession id u =>
    obtain ⟨l₁, hl₁, hrequester, -⟩ := createVerificationSession_ok h
    cases hl₀.symm.trans hl₁
    rw [(hroles u.validAccountId hby).2] at hrequester
    cases hrequester
  | fileImported id file now =>
    have hs' : s' = s.fileImported id file now := (Except.ok.inj h).symm
    unfold fileImported at hs'
    split at hs'
    · rename_i u view hash hupload
      obtain ⟨_, _, _, heq, hmem⟩ := hflight id _ hupload
      cases heq
      subst hs'
      refine ⟨?_, fun id' request hrequest => hflight id' request (finish_inFlight hrequest)⟩
      rcases finish_loc (s := s) id _ with hsame | ⟨l₁, l', hl₁, hadd, hloc⟩
      · exact ⟨l₀, hsame.trans hl₀, hd, hconfined⟩
      · cases hl₀.symm.trans hl₁
        have hbyIssuer : LocRequest.ByIssuer u.validAccountId (.addFile hash u.validAccountId
          (view.toFile file) (view.submissionType l₀ u.validAccountId) now) := rfl
        exact ⟨l'.stored, hloc, hop hmem hbyIssuer (thrown_ok.mp hadd)⟩
    · exact hs' ▸ ⟨⟨l₀, hl₀, hd, hconfined⟩, hflight⟩
  | sessionCreated id authToken scanRef =>
    have hs' : s' = s.sessionCreated id authToken scanRef := (Except.ok.inj h).symm
    unfold sessionCreated at hs'
    split at hs'
    · rename_i u hsession
      obtain ⟨_, _, _, heq, -⟩ := hflight id _ hsession
      cases heq
    · exact hs' ▸ ⟨⟨l₀, hl₀, hd, hconfined⟩, hflight⟩
  | callback | sync => exact hby.elim

/-- **Verified issuers are confined.**  After any requests of users who are neither the owner nor the
requester, in any order, the LOC is there with its status, its dates, its secrets and its void
information; the items of the others are there, with their contents and their lifecycles, or as drafts
sent for review; and the only new items are those of these users. -/
theorem issuers_confined (hreachable : Reachable l)
    (haccounts : ∀ account ∈ accounts, l.isOwner account = false ∧ l.isRequester account = false)
    {events : List LocEvent} (hby : ∀ e ∈ events, IsBy accounts e) :
    ∃ l', (run step (start l) events).loc = some l' ∧ LocRequest.Confined accounts l.stored l' := by
  have hstart : ConfinedTo accounts l (start l) :=
    ⟨⟨l.stored, rfl, LocRequest.stored_distinctKeys (LocRequest.reachable_sound hreachable).keys,
      .refl _⟩, fun _ _ h => by cases h⟩
  have hrun : ConfinedTo accounts l (run step (start l) events) :=
    run_invariant (C := fun _ e => IsBy accounts e)
      (fun _ _ _ hs hby h => step_confinedTo haccounts hs hby h) hstart
      (along_iff.mpr fun pre e post he => hby e (by simp [he]))
  obtain ⟨l', hl', -, hconfined⟩ := hrun.loc
  exact ⟨l', hl', hconfined⟩

end LocApi

/-- A verified issuer, selected for the LOC. -/
def selectedIssuer : AuthenticatedUser where
  validAccountId := .polkadot "issuer"
  selectedIssuer := true

/-- A link that the requester has added. -/
def requesterLink : Item .link where
  key := "target"
  index := 0
  submitter := ⟨.ethereum, "requester"⟩
  lifecycle := { status := .draft }
  data := (⟨"nature", none⟩ : LinkData)
  toAdd := true

/-- The LOC was submitted, accepted and opened, and the link was added. -/
def linkedLoc : LocRequest :=
  { LocRequest.ethereumLoc with status := .opened, decisionOn := some 2, links := [requesterLink] }

theorem linkedLoc_reachable [Hashing] : Reachable linkedLoc := by
  have hopened : Evolves LocRequest.ethereumLoc
      { LocRequest.ethereumLoc with status := .opened, decisionOn := some 2 } :=
    .operation (.preOpen false) (.operation (.accept 2) (.operation .submit .refl rfl) rfl) rfl
  exact ⟨_, LocRequest.ethereumLoc_created, .operation
    (.addLink "target" ⟨.ethereum, "requester"⟩ "nature" .manualByUser 3) hopened rfl⟩

/-- The issuer adds a link, sends the one of the requester for review, and tries to delete it and to open
the LOC. -/
def linkAdded : List LocEvent :=
  [ .call selectedIssuer (.addLink (some "other") (some "nature") 4),
    .call selectedIssuer (.requestItemReview .link "target"),
    .call selectedIssuer (.deleteItem .link "target"),
    .call selectedIssuer (.openLoc true) ]

theorem issuers_confined_linkAdded :
    letI : Hashing := ⟨fun name => name⟩
    letI : RestApi := ⟨fun value _ _ _ => requireDefined value⟩
    Reachable linkedLoc ∧
      ∃ l', (run LocApi.step (.start linkedLoc) linkAdded).loc = some l' ∧
        LocRequest.Confined [.polkadot "issuer"] linkedLoc.stored l' ∧
        ∃ item, l'.item? .link "target" = some item ∧
          LocRequest.Untouched requesterLink.stored item ∧ item.status = .reviewPending := by
  let _ : Hashing := ⟨fun name => name⟩
  let _ : RestApi := ⟨fun value _ _ _ => requireDefined value⟩
  have hreviewed : ((run LocApi.step (.start linkedLoc) linkAdded).loc.bind fun l =>
      l.item? .link "target").map Item.status = some .reviewPending := by decide +kernel
  have haccounts : ∀ account ∈ [AccountId.polkadot "issuer"],
      linkedLoc.isOwner account = false ∧ linkedLoc.isRequester account = false := by decide
  have hby : ∀ e ∈ linkAdded, LocApi.IsBy [.polkadot "issuer"] e := by
    intro e hmem
    simp only [linkAdded, List.mem_cons, List.not_mem_nil, or_false] at hmem
    rcases hmem with rfl | rfl | rfl | rfl <;> exact List.mem_singleton.mpr rfl
  obtain ⟨l', hl', hconfined⟩ := LocApi.issuers_confined linkedLoc_reachable haccounts hby
  have hlink : linkedLoc.stored.item? .link "target" = some requesterLink.stored := rfl
  obtain ⟨item, hit, huntouched⟩ := hconfined.others hlink (by decide)
  refine ⟨linkedLoc_reachable, l', hl', hconfined, item, hit, huntouched, ?_⟩
  simpa [hl', hit] using hreviewed

end Logion
