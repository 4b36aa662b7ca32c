import Logion.Api.LocRegistry
import Logion.Loc.Reachable

/-!
# Identities — whom a LOC belongs to

Every LOC was requested by its requester or by its owner, and a transaction or collection LOC refers to
the identity LOC of its requester, however the requests on the node interleave.

* `LocFacts`: what never changes of a LOC; `facts_write`, `facts_update`, `facts_created`.
* `Since`, `Creation`: the request that has created a LOC, up to its last step and from an earlier one.
* `RequestedBy`, `Identifies`: what the history of the node says about that request.
* `Inv`, `inv_run`: the invariant of the registry and its history.
* `requested_by_party`: who has requested a stored LOC, and with which sponsorship.
* `identity_of_requester`: whose identity its view shows.
-/

namespace Logion

open Fallible Table

/-! ### What never changes -/

/-- The columns that no update writes. -/
structure LocFacts where
  id : UUID
  locType : LocType
  requesterAddress : Option String
  requesterAddressType : Option AccountType
  ownerAddress : String
  requesterIdentityLocId : Option UUID
  sponsorshipId : Option UUID
  userIdentity : Option UserIdentity
  deriving DecidableEq

/-- `getRequester()`. -/
def LocFacts.requester (f : LocFacts) : Option AccountId :=
  match f.requesterAddressType, f.requesterAddress with
  | some type, some address => some ⟨type, address⟩
  | _, _ => none

def RegistryRow.facts (r : RegistryRow) : LocFacts where
  id := r.root.id
  locType := r.root.locType
  requesterAddress := r.root.requesterAddress
  requesterAddressType := r.root.requesterAddressType
  ownerAddress := r.root.ownerAddress
  requesterIdentityLocId := r.requesterIdentityLocId
  sponsorshipId := r.sponsorshipId
  userIdentity := r.userIdentity

namespace RegistryRow

variable {r r' r'' : RegistryRow}

/-- The UPDATE writes what the instance, the row read again and the current row agree on. -/
theorem facts_write (h : r'.facts = r.facts) (h' : r''.facts = r.facts) :
    (r.write r' r'').facts = r.facts := by
  simp only [facts, LocFacts.mk.injEq] at h h' ⊢
  simp only [write, RootRow.write, writeColumn]
  simp [h, h']

end RegistryRow

namespace LocRequest

variable {l l' : LocRequest}

theorem locType_of_withoutItems (h : l'.withoutItems = l.withoutItems) : l'.locType = l.locType := by
  change l'.withoutItems.locType = l.withoutItems.locType
  rw [h]

variable [Hashing]

/-- The type of a LOC never changes. -/
theorem step_locType {op : LocOp} (h : l.step op = .ok l') : l'.locType = l.locType := by
  cases hop : op.isSide with
  | true =>
    rw [(step_side hop h).eq]
  | false => exact locType_of_withoutItems (l := l.withStatusOf l') (step_withoutItems hop h)

/-- The id, the type and the parties. -/
structure SameLoc (l l' : LocRequest) : Prop where
  id : l'.id = l.id
  locType : l'.locType = l.locType
  ownerAddress : l'.ownerAddress = l.ownerAddress
  requester : l'.requester = l.requester

omit [Hashing] in
theorem SameLoc.refl (l : LocRequest) : SameLoc l l := ⟨rfl, rfl, rfl, rfl⟩

omit [Hashing] in
theorem SameLoc.trans {l₁ : LocRequest} (h : SameLoc l l₁) (h' : SameLoc l₁ l') : SameLoc l l' :=
  ⟨h'.id.trans h.id, h'.locType.trans h.locType, h'.ownerAddress.trans h.ownerAddress,
    h'.requester.trans h.requester⟩

theorem step_sameLoc {op : LocOp} (h : l.step op = .ok l') : SameLoc l l' :=
  ⟨(step_parties h).1, step_locType h, (step_parties h).2.1, (step_parties h).2.2⟩

theorem steps_sameLoc {ops : List LocOp} (h : ops.foldlM step l = .ok l') : SameLoc l l' :=
  foldlM_invariant (I := SameLoc l) (fun _ _ _ hl hstep => hl.trans (step_sameLoc hstep))
    (SameLoc.refl l) h

end LocRequest

open LocRequest

/-- What an update makes of a row. -/
theorem RegistryRow.facts_update {r : RegistryRow} {l l' : LocRequest} (hroot : r.root = l.rootRow)
    (h : SameLoc l l') : ({ r with root := l'.rootRow } : RegistryRow).facts = r.facts := by
  obtain ⟨hid, htype, howner, hrequester⟩ := h
  simp [RegistryRow.facts, LocRequest.rootRow, hroot, hid, htype, howner, hrequester]

/-! ### The factory -/

section Factory

variable {id : UUID} {description : LocRequestDescription} {l : LocRequest}

/-- A new LOC has the type and the parties of the description. -/
structure Describes (id : UUID) (description : LocRequestDescription) (l : LocRequest) : Prop where
  id : l.id = id
  locType : l.locType = description.locType
  ownerAddress : l.ownerAddress = description.ownerAddress.address
  requester : l.requester = description.requesterAddress

theorem createLocRequest_describes {draft : Bool} {type : SubmissionType}
    (h : LocRequestFactory.createLocRequest id description draft type = .ok l) :
    Describes id description l := by
  obtain ⟨_, -, h⟩ := bind_eq_ok.mp h
  have hnew : LocRequestFactory.newInstance id description draft type = l := by
    split_ifs at h
    · obtain ⟨_, -, h⟩ := bind_eq_ok.mp h
      obtain ⟨_, -, h⟩ := bind_eq_ok.mp h
      exact Except.ok.inj h
    · obtain ⟨_, -, h⟩ := bind_eq_ok.mp h
      exact Except.ok.inj h
  rw [← hnew]
  exact ⟨rfl, rfl, rfl, rfl⟩

theorem Describes.same {l' : LocRequest} (h : Describes id description l) (h' : SameLoc l l') :
    Describes id description l' :=
  ⟨h'.id.trans h.id, h'.locType.trans h.locType, h'.ownerAddress.trans h.ownerAddress,
    h'.requester.trans h.requester⟩

/-- Identity LOCs refer to no identity LOC, the others do. -/
theorem ensureCorrectRequester_ok {allow : Bool} {a : Unit}
    (h : LocRequestFactory.ensureCorrectRequester description allow = .ok a) :
    description.locType = .identity ↔ description.requesterIdentityLoc = none := by
  unfold LocRequestFactory.ensureCorrectRequester at h
  obtain ⟨-, h⟩ := refused_eq_ok.mp h
  cases htype : description.locType <;> rw [htype] at h <;> obtain ⟨hlink, -⟩ := refused_eq_ok.mp h <;>
    cases hid : description.requesterIdentityLoc <;> simp_all

variable [Hashing]

/-- What the factory makes of a description. -/
theorem LocCreator.create_ok {creator : LocCreator} {now : Moment}
    (h : creator.create id description now = .ok l) : Describes id description l ∧
      (description.locType = .identity ↔ description.requesterIdentityLoc = none) := by
  cases creator with
  | newLOLocRequest | newLocRequest draft =>
    obtain ⟨_, hcheck, h⟩ := bind_eq_ok.mp h
    exact ⟨createLocRequest_describes h, ensureCorrectRequester_ok hcheck⟩
  | newLoc metadata links =>
    obtain ⟨_, hcheck, h⟩ := bind_eq_ok.mp h
    obtain ⟨l₀, hcreate, h⟩ := bind_eq_ok.mp h
    obtain ⟨l₁, hmetadata, hlinks⟩ := bind_eq_ok.mp h
    have hmetadata : SameLoc l₀ l₁ := by
      refine foldlM_invariant (I := SameLoc l₀) (fun l item l' hl hadd => ?_) (SameLoc.refl l₀) hmetadata
      have hstep : l.step (.addMetadataItem item.submitter item.name item.value .directByRequester
        now) = .ok l' := hadd
      exact hl.trans (step_sameLoc hstep)
    have hlinks : SameLoc l₀ l := by
      refine foldlM_invariant (I := SameLoc l₀) (fun l item l' hl hadd => ?_) hmetadata hlinks
      have hstep : l.step (.addLink item.target item.submitter item.nature .directByRequester now) =
        .ok l' := hadd
      exact hl.trans (step_sameLoc hstep)
    exact ⟨(createLocRequest_describes hcreate).same hlinks, ensureCorrectRequester_ok hcheck⟩
  | newSofRequest target submitter nature =>
    obtain ⟨_, hcheck, h⟩ := bind_eq_ok.mp h
    obtain ⟨l₀, hcreate, h⟩ := bind_eq_ok.mp h
    obtain ⟨l₁, hlink, hsubmit⟩ := bind_eq_ok.mp h
    have hlink : l₀.step (.addLink target submitter nature .manualByUser now) = .ok l₁ := hlink
    have hsubmit : l₁.step .submit = .ok l := hsubmit
    obtain ⟨hid, htype, howner, hrequester⟩ :=
      (createLocRequest_describes hcreate).same ((step_sameLoc hlink).trans (step_sameLoc hsubmit))
    exact ⟨⟨hid, htype, howner, hrequester⟩, ensureCorrectRequester_ok hcheck⟩

end Factory

/-! ### Queries -/

section Queries

variable {rows rows' : List RegistryRow} {r : RegistryRow}

theorem findLoc_some {id : UUID} (h : findLoc rows id = some r) : r ∈ rows ∧ r.root.id = id :=
  ⟨List.mem_of_find?_eq_some h, by simpa using List.find?_some h⟩

/-- What the query for an identity LOC has found. -/
theorem findIdentityLoc_some {statuses : List LocRequestStatus} {requester owner : AccountId}
    (h : findIdentityLoc rows statuses requester owner = some r) :
    r ∈ rows ∧ r.root.locType = .identity ∧ r.getRequester = some requester ∧
      r.root.ownerAddress = owner.address ∧ r.isVoid = false := by
  have hvoid := List.find?_some h
  have hmem := List.mem_of_find?_eq_some h
  rw [findLocsBy, List.mem_insertionSort, List.mem_filter] at hmem
  obtain ⟨hmem, hselects⟩ := hmem
  simp only [FetchLocRequestsSpecification.selects, Option.all_some, Option.all_none,
    Bool.and_eq_true, decide_eq_true_eq, List.isEmpty_cons, Bool.false_or, List.contains_eq_mem,
    List.mem_singleton] at hselects
  obtain ⟨⟨⟨⟨⟨haddress, howner⟩, -⟩, htype⟩, -, htypeOf⟩, -⟩ := hselects
  refine ⟨hmem, htype, ?_, howner, by simpa using hvoid⟩
  simp [RegistryRow.getRequester, haddress, htypeOf]

theorem getNonVoidIdentityLoc_some {requester : Option AccountId} {owner : AccountId}
    (h : getNonVoidIdentityLoc rows requester owner = some r) :
    r ∈ rows ∧ r.root.locType = .identity ∧ requester.isSome ∧ r.getRequester = requester ∧
      r.root.ownerAddress = owner.address ∧ r.isVoid = false := by
  obtain ⟨account, rfl, h⟩ := Option.bind_eq_some_iff.mp h
  obtain ⟨hmem, htype, hrequester, howner, hvoid⟩ := findIdentityLoc_some h
  exact ⟨hmem, htype, rfl, hrequester, howner, hvoid⟩

theorem getValidPolkadotIdentityLoc_some {requester owner : AccountId}
    (h : getValidPolkadotIdentityLoc rows (some requester) owner = some r) :
    r ∈ rows ∧ r.root.locType = .identity ∧ r.getRequester = some requester ∧
      r.root.ownerAddress = owner.address ∧ r.isVoid = false :=
  findIdentityLoc_some h

theorem existsValidLogionIdentityLoc_iff {identityLocId : Option UUID} :
    existsValidLogionIdentityLoc rows identityLocId = true ↔ ∃ id r, nonEmpty identityLocId = some id ∧
      findLoc rows id = some r ∧ r.isValidLogionIdentityLoc = true := by
  simp only [existsValidLogionIdentityLoc, Option.any_eq_true]
  constructor
  · rintro ⟨id, hid, r, hr, hvalid⟩
    exact ⟨id, r, hid, hr, hvalid⟩
  · rintro ⟨id, r, hid, hr, hvalid⟩
    exact ⟨id, hid, r, hr, hvalid⟩

/-! ### Statements -/

instance : Std.Symm fun r r' => ¬ RegistryRow.clash r r' where
  symm r r' hclash := by
    rintro (hid | ⟨hsome, hsponsorship⟩)
    · exact hclash (.inl hid.symm)
    · exact hclash (.inr ⟨hsponsorship ▸ hsome, hsponsorship.symm⟩)

/-- What a statement leaves meets the constraints. -/
structure Constraints (rows : List RegistryRow) : Prop where
  consistent : Consistent RegistryRow.clash rows
  references : referencesHold rows = true

theorem execute_ok {statement : Statement RegistryRow} (h : execute rows statement = .ok rows') :
    rows' = statement.rows rows ∧ Constraints rows' := by
  unfold execute at h
  split at h
  · rename_i t hexec
    split_ifs at h with hreferences
    cases h
    unfold Statement.exec at hexec
    split_ifs at hexec with hconsistent
    cases hexec
    exact ⟨rfl, hconsistent, hreferences⟩
  · cases h

theorem references_of_mem {id : UUID} (h : Constraints rows) (hr : r ∈ rows)
    (hid : r.requesterIdentityLocId = some id) : ∃ r', findLoc rows id = some r' := by
  have hall := List.all_eq_true.mp h.references r hr
  rw [hid] at hall
  exact Option.isSome_iff_exists.mp hall

end Queries

/-! ### What the history says -/

/-- The row that a request is about to write. -/
def Pending.row : Pending → Option RegistryRow
  | .saving row | .writing row _ => some row
  | _ => none

namespace LocRegistry

variable [Hashing] [RestApi]

/-- The registry holds the LOC: it is stored, or about to be. -/
inductive Holds (s : LocRegistry) (f : LocFacts) : Prop
  | stored {r : RegistryRow} (hr : r ∈ s.rows) (hf : r.facts = f)
  | inFlight {id : ℕ} {p : Pending} {r : RegistryRow} (hp : s.inFlight id = some p)
      (hr : p.row = some r) (hf : r.facts = f)

/-- The registry has held the LOC. -/
def Known (events : List RegistryEvent) (f : LocFacts) : Prop :=
  Sometime step (fun s => Holds s f) start events

/-- The event `e`, after `events`, starts no other request with the number `id`. -/
def Continues (events : List RegistryEvent) (id : ℕ) (e : RegistryEvent) : Prop :=
  e.request = id → e.isFirst = true → attempt step (run step start events) e = run step start events

/-- The event `e` has happened after `before`, and no other request has taken its number since. -/
inductive Since (before : List RegistryEvent) (e : RegistryEvent) : List RegistryEvent → Prop
  | now : Since before e (before ++ [e])
  | later {events : List RegistryEvent} {e' : RegistryEvent} (h : Since before e events)
      (he' : Continues events e.request e') : Since before e (events ++ [e'])

/-- The LOC `uuid` was created by a request, with its number, of which `P` was true until then. -/
def Creation (events : List RegistryEvent) (uuid : UUID) (P : List RegistryEvent → ℕ → Prop) : Prop :=
  ∃ before id now, before ++ [.addNewRequest id uuid now] <+: events ∧ P before id

/-- `f` is the identity LOC of this requester and this owner, or the closed one of a requester without
account: the request `id` has looked it up, and it was not void. -/
structure Identifies (events : List RegistryEvent) (id : ℕ) (requester : Option AccountId)
    (ownerAddress : String) (f : LocFacts) : Prop where
  identity : f.locType = .identity
  requester : (requester.isSome ∧ f.requester = requester ∧ f.ownerAddress = ownerAddress) ∨
    f.requester = none
  valid : ∃ before e, e.request = id ∧ e.looksUpIdentity = true ∧ Since before e events ∧
    ∃ r ∈ (run step start before).rows, r.facts = f ∧ r.isVoid = false ∧
      (f.requester = none → r.root.status = .closed)

/-- The request `id` has asked for a LOC with this requester, this owner and this sponsorship. -/
inductive RequestedBy (events : List RegistryEvent) (id : ℕ) (requester : Option AccountId)
    (owner : AccountId) (sponsorshipId : Option UUID) : Prop
  | requested {before : List RegistryEvent} {user : AuthenticatedUser} {view : CreateLocRequestView}
      {sponsorship : Option Sponsorship}
      (h : Since before (.createLocRequest id user view true sponsorship) events)
      (howner : view.ownerAddress = some owner.address)
      (hrequester : requester = view.requester user owner)
      (hsponsored : ∀ id, sponsorshipId = some id → view.sponsorshipId = some id ∧
        sponsorship = some ⟨none, owner, user.validAccountId⟩)
  | opened {before : List RegistryEvent} {user : AuthenticatedUser} {view : OpenLocView} {now : Moment}
      (h : Since before (.createOpenLoc id user view true now) events)
      (howner : view.ownerAddress = some owner.address)
      (hrequester : requester = some user.validAccountId) (hsponsorship : sponsorshipId = none)
  | contributed {before : List RegistryEvent} {user : AuthenticatedUser} {loaded : LocRequest}
      {itemId : Option Hash} {itemFound : Bool}
      (h : Since before (.createSofRequest id user loaded itemId itemFound) events)
      (hloaded : ∃ r ∈ (run step start before).rows, r.root = loaded.rootRow)
      (hcontributor : Contribution.locContribution.isContributor loaded user = true)
      (howner : loaded.getOwner = owner) (hrequester : requester = some user.validAccountId)
      (hsponsorship : sponsorshipId = none)

variable {events : List RegistryEvent} {f f' : LocFacts} {requester : Option AccountId}
  {owner : AccountId} {ownerAddress : String} {sponsorshipId : Option UUID} {s : LocRegistry}

theorem Known.concat (h : Known events f) (e : RegistryEvent) : Known (events ++ [e]) f :=
  Sometime.concat h e

theorem continues_of_not_first {e : RegistryEvent} {id : ℕ} (he : e.isFirst = false) :
    Continues events id e := fun _ hfirst => absurd hfirst (by simp [he])

theorem continues_of_ne {e : RegistryEvent} {id : ℕ} (he : e.request ≠ id) : Continues events id e :=
  fun hid _ => absurd hid he

theorem Since.isPrefix {before : List RegistryEvent} {e : RegistryEvent} (h : Since before e events) :
    before ++ [e] <+: events := by
  induction h with
  | now => exact List.prefix_refl _
  | later _ _ ih => exact ih.trans (List.prefix_append _ _)

omit [Hashing] [RestApi] in
theorem Creation.concat {uuid : UUID} {P : List RegistryEvent → ℕ → Prop} (h : Creation events uuid P)
    (e : RegistryEvent) : Creation (events ++ [e]) uuid P := by
  obtain ⟨before, id, now, hprefix, hP⟩ := h
  exact ⟨before, id, now, hprefix.trans (List.prefix_append events [e]), hP⟩

omit [Hashing] [RestApi] in
theorem Creation.mono {uuid : UUID} {P Q : List RegistryEvent → ℕ → Prop} (h : Creation events uuid P)
    (hPQ : ∀ before id, P before id → Q before id) : Creation events uuid Q := by
  obtain ⟨before, id, now, hprefix, hP⟩ := h
  exact ⟨before, id, now, hprefix, hPQ before id hP⟩

section

variable {id : ℕ} {e : RegistryEvent}

theorem Identifies.concat (h : Identifies events id requester ownerAddress f)
    (he : Continues events id e) : Identifies (events ++ [e]) id requester ownerAddress f := by
  obtain ⟨before, e₀, rfl, hlooks, hsince, hvalid⟩ := h.valid
  exact ⟨h.identity, h.requester, before, e₀, rfl, hlooks, hsince.later he, hvalid⟩

theorem RequestedBy.concat (h : RequestedBy events id requester owner sponsorshipId)
    (he : Continues events id e) : RequestedBy (events ++ [e]) id requester owner sponsorshipId := by
  cases h with
  | requested h howner hrequester hsponsored =>
    exact .requested (h.later he) howner hrequester hsponsored
  | opened h howner hrequester hsponsorship =>
    exact .opened (h.later he) howner hrequester hsponsorship
  | contributed h hloaded hcontributor howner hrequester hsponsorship =>
    exact .contributed (h.later he) hloaded hcontributor howner hrequester hsponsorship

/-- An identity LOC was known when it was found. -/
theorem Identifies.known (h : Identifies events id requester ownerAddress f) : Known events f := by
  obtain ⟨before, e₀, -, -, hsince, r, hr, hf, -⟩ := h.valid
  exact ⟨before, (List.prefix_append before [e₀]).trans hsince.isPrefix, .stored hr hf⟩

end

/-! ### The invariant -/

/-- What is known of a LOC. -/
structure FactsOk (events : List RegistryEvent) (f : LocFacts) : Prop where
  typed : f.locType = .identity ↔ f.requesterIdentityLocId = none
  created : Creation events f.id fun before id =>
    RequestedBy before id f.requester (.polkadot f.ownerAddress) f.sponsorshipId ∧
      ∀ locId, f.requesterIdentityLocId = some locId →
        ∃ f', f'.id = locId ∧ Identifies before id f.requester f.ownerAddress f'

/-- What is known of the description that the request `id` has made. -/
structure DescriptionOk (events : List RegistryEvent) (id : ℕ) (description : LocRequestDescription)
    (sponsorshipId : Option UUID) : Prop where
  owner : description.ownerAddress = .polkadot description.ownerAddress.address
  requested : RequestedBy events id description.requesterAddress description.ownerAddress sponsorshipId
  identified : description.locType ≠ .identity →
    ∀ locId, description.requesterIdentityLoc = some locId →
      ∃ f, f.id = locId ∧
        Identifies events id description.requesterAddress description.ownerAddress.address f

/-- What is known of the request `id`, in flight. -/
def PendingOk (events : List RegistryEvent) (id : ℕ) : Pending → Prop
  | .validated user owner _ view | .unidentified user owner _ view =>
    owner = .polkadot owner.address ∧
      RequestedBy events id (view.requester user owner) owner view.sponsorshipId
  | .opening _ description _ => DescriptionOk events id description none
  | .contributing contributor owner _ _ =>
    owner = .polkadot owner.address ∧ RequestedBy events id (some contributor) owner none
  | .creating _ description sponsorshipId => DescriptionOk events id description sponsorshipId
  | .saving _ => True
  | .writing row reread => ∀ r, reread = some r → Known events r.facts ∧ r.root.id = row.root.id
  | .deleting _ => True

/-- The identifiers that `uuid()` has returned. -/
def uuids (events : List RegistryEvent) : List UUID := events.filterMap RegistryEvent.uuid

/-- The invariant of a registry and its history. -/
structure Inv (events : List RegistryEvent) (s : LocRegistry) : Prop where
  facts : ∀ f, Known events f → FactsOk events f
  unique : ∀ f f', Known events f → Known events f' → f.id = f'.id → f = f'
  ids : ∀ f, Known events f → f.id ∈ uuids events
  pending : ∀ id p, s.inFlight id = some p → PendingOk events id p
  constraints : Constraints s.rows

theorem FactsOk.concat (h : FactsOk events f) (e : RegistryEvent) : FactsOk (events ++ [e]) f :=
  ⟨h.typed, h.created.concat e⟩

theorem DescriptionOk.concat {id : ℕ} {e : RegistryEvent} {description : LocRequestDescription}
    (h : DescriptionOk events id description sponsorshipId) (he : Continues events id e) :
    DescriptionOk (events ++ [e]) id description sponsorshipId := by
  refine ⟨h.owner, h.requested.concat he, fun htype locId hid => ?_⟩
  obtain ⟨f, hf, hidentifies⟩ := h.identified htype locId hid
  exact ⟨f, hf, hidentifies.concat he⟩

theorem PendingOk.concat {id : ℕ} {e : RegistryEvent} {p : Pending} (h : PendingOk events id p)
    (he : Continues events id e) : PendingOk (events ++ [e]) id p := by
  cases p with
  | validated | unidentified | contributing => exact ⟨h.1, h.2.concat he⟩
  | opening | creating => exact DescriptionOk.concat h he
  | saving | deleting => trivial
  | writing row reread => exact fun r hr => ⟨(h r hr).1.concat e, (h r hr).2⟩

omit [Hashing] [RestApi] in
theorem uuids_concat (e : RegistryEvent) : uuids (events ++ [e]) = uuids events ++ e.uuid.toList := by
  unfold uuids
  rw [List.filterMap_append]
  cases h : e.uuid <;> simp [h]

/-- **A step without creation.**  It holds LOCs that were known. -/
theorem Inv.next {e : RegistryEvent} (h : Inv events (run step start events))
    (hholds : ∀ f, Holds (run step start (events ++ [e])) f → Known events f)
    (hpending : ∀ id p, (run step start (events ++ [e])).inFlight id = some p →
      PendingOk (events ++ [e]) id p)
    (hconstraints : Constraints (run step start (events ++ [e])).rows) :
    Inv (events ++ [e]) (run step start (events ++ [e])) := by
  have hknown : ∀ f, Known (events ++ [e]) f → Known events f := by
    intro f hf
    rcases sometime_concat.mp hf with hf | hf
    · exact hf
    · exact hholds f hf
  refine ⟨fun f hf => (h.facts f (hknown f hf)).concat e, fun f f' hf hf' hid =>
    h.unique f f' (hknown f hf) (hknown f' hf') hid, fun f hf => ?_, hpending, hconstraints⟩
  rw [uuids_concat]
  exact List.mem_append_left _ (h.ids f (hknown f hf))

/-- **A creation.**  It holds one LOC that was not known, with a new identifier. -/
theorem Inv.create {e : RegistryEvent} {f₀ : LocFacts} (h : Inv events (run step start events))
    (hholds : ∀ f, Holds (run step start (events ++ [e])) f → Known events f ∨ f = f₀)
    (hfacts : FactsOk (events ++ [e]) f₀) (huuid : e.uuid = some f₀.id) (hnew : f₀.id ∉ uuids events)
    (hpending : ∀ id p, (run step start (events ++ [e])).inFlight id = some p →
      PendingOk (events ++ [e]) id p)
    (hconstraints : Constraints (run step start (events ++ [e])).rows) :
    Inv (events ++ [e]) (run step start (events ++ [e])) := by
  have hknown : ∀ f, Known (events ++ [e]) f → Known events f ∨ f = f₀ := by
    intro f hf
    rcases sometime_concat.mp hf with hf | hf
    · exact .inl hf
    · exact hholds f hf
  refine ⟨fun f hf => ?_, fun f f' hf hf' hid => ?_, fun f hf => ?_, hpending, hconstraints⟩
  · rcases hknown f hf with hf | rfl
    · exact (h.facts f hf).concat e
    · exact hfacts
  · rcases hknown f hf with hf | rfl <;> rcases hknown f' hf' with hf' | rfl
    · exact h.unique f f' hf hf' hid
    · exact absurd (hid ▸ h.ids f hf) hnew
    · exact absurd (hid ▸ h.ids f' hf') hnew
    · rfl
  · rw [uuids_concat, huuid]
    rcases hknown f hf with hf | rfl
    · exact List.mem_append_left _ (h.ids f hf)
    · exact List.mem_append_right _ (List.mem_singleton.mpr rfl)

/-! ### What the requests have checked -/

omit [Hashing] [RestApi] in
theorem requireLegalOfficerAddressOnNode_ok {address : Option String} {onNode : Bool}
    (h : requireLegalOfficerAddressOnNode address onNode = .ok owner) :
    onNode = true ∧ address = some owner.address ∧ owner = .polkadot owner.address := by
  unfold requireLegalOfficerAddressOnNode nonEmpty at h
  split at h
  · cases h
  · rename_i text htext
    split_ifs at htext
    split_ifs at h with hnode
    cases h
    exact ⟨hnode, htext, rfl⟩

omit [Hashing] [RestApi] in
theorem validateSponsorship_ok {rows : List RegistryRow} {id : UUID} {sponsorship : Option Sponsorship}
    {user : AccountId} {a : Unit} (h : validateSponsorship rows id sponsorship owner user = .ok a) :
    sponsorship = some ⟨none, owner, user⟩ := by
  unfold validateSponsorship at h
  split at h
  · cases h
  · rename_i sponsorship
    obtain ⟨hused, h⟩ := refused_eq_ok.mp h
    obtain ⟨-, h⟩ := refused_eq_ok.mp h
    obtain ⟨happlies, -⟩ := refused_eq_ok.mp h
    push Not at happlies
    obtain ⟨locId, officer, account⟩ := sponsorship
    obtain ⟨rfl, rfl⟩ := happlies
    simpa using hused

omit [Hashing] [RestApi] in
theorem describe_ok {view : BaseLocView} {locType : LocType} {requesterIdentityLoc : Option UUID}
    {now : Moment} {description : LocRequestDescription}
    (h : view.describe locType requester requesterIdentityLoc owner now = .ok description) :
    description.requesterAddress = requester ∧ description.requesterIdentityLoc = requesterIdentityLoc ∧
      description.ownerAddress = owner ∧ description.locType = locType := by
  obtain ⟨_, -, h⟩ := bind_eq_ok.mp h
  obtain ⟨_, -, h⟩ := bind_eq_ok.mp h
  cases h
  exact ⟨rfl, rfl, rfl, rfl⟩

section Requests

variable {id : ℕ} {user : AuthenticatedUser} {view : CreateLocRequestView} {locType : LocType}
  {now : Moment} {p : Pending} {e : RegistryEvent}

theorem createLocRequest_ok {onNode : Bool} {sponsorship : Option Sponsorship}
    (h : s.createLocRequest user view onNode sponsorship = .ok p) :
    PendingOk (events ++ [.createLocRequest id user view onNode sponsorship]) id p := by
  obtain ⟨owner, howner, h⟩ := bind_eq_ok.mp h
  obtain ⟨locType, -, h⟩ := bind_eq_ok.mp h
  obtain ⟨_, hsponsored, h⟩ := bind_eq_ok.mp h
  cases h
  obtain ⟨rfl, haddress, hpolkadot⟩ := requireLegalOfficerAddressOnNode_ok howner
  refine ⟨hpolkadot, .requested .now haddress rfl fun sponsorshipId hid => ⟨hid, ?_⟩⟩
  simp only [hid] at hsponsored
  exact validateSponsorship_ok hsponsored

/-- The LOC that is looked up identifies whoever it is looked up for. -/
theorem identifies_of_found {r : RegistryRow} (hr : r ∈ (run step start events).rows)
    (hid : e.request = id) (hlooks : e.looksUpIdentity = true) (htype : r.root.locType = .identity)
    (hsome : requester.isSome) (hrequester : r.getRequester = requester)
    (howner : r.root.ownerAddress = ownerAddress) (hvoid : r.isVoid = false) :
    Identifies (events ++ [e]) id requester ownerAddress r.facts := by
  refine ⟨htype, .inl ⟨hsome, hrequester, howner⟩, events, e, hid, hlooks, .now, r, hr, rfl, hvoid,
    fun hnone => ?_⟩
  have hnone : r.getRequester = none := hnone
  rw [← hrequester, hnone] at hsome
  cases hsome

theorem described_ok {identity : Option RegistryRow}
    (h : described user owner locType view identity now = .ok p)
    (hpolkadot : owner = .polkadot owner.address)
    (hrequested : RequestedBy events id (view.requester user owner) owner view.sponsorshipId)
    (hidentified : locType ≠ .identity →
      ∀ locId, (identity.map fun r => r.root.id).or (nonEmpty view.requesterIdentityLoc) = some locId →
        ∃ f, f.id = locId ∧ Identifies events id (view.requester user owner) owner.address f) :
    PendingOk events id p ∧ p.row = none := by
  obtain ⟨description, hdescribe, h⟩ := bind_eq_ok.mp h
  obtain ⟨hrequester, hidentity, howner, htype⟩ := describe_ok hdescribe
  cases h
  refine ⟨⟨howner ▸ hpolkadot, ?_, ?_⟩, rfl⟩
  · rw [hrequester, howner]
    exact hrequested
  · rw [hrequester, howner, htype, hidentity]
    exact hidentified

theorem findIdentity_ok (hpolkadot : owner = .polkadot owner.address)
    (hrequested : RequestedBy events id (view.requester user owner) owner view.sponsorshipId)
    (h : (run step start events).findIdentity user owner locType view now = .ok p) :
    PendingOk (events ++ [.findIdentity id now]) id p ∧ p.row = none := by
  have hrequested := hrequested.concat (e := .findIdentity id now) (continues_of_not_first rfl)
  simp only [findIdentity] at h
  split_ifs at h with htype hfound hnotPolkadot hsome
  · exact described_ok h hpolkadot hrequested fun hne => absurd htype hne
  · refine described_ok h hpolkadot hrequested fun _ locId hid => ?_
    obtain ⟨r, hr⟩ := Option.isSome_iff_exists.mp hsome
    obtain ⟨hmem, hidentity, hrequester, hsame, howner, hvoid⟩ := getNonVoidIdentityLoc_some hr
    rw [hr] at hid
    cases hid
    exact ⟨r.facts, rfl, identifies_of_found hmem rfl rfl hidentity hrequester hsame howner hvoid⟩
  · cases h
    exact ⟨⟨hpolkadot, hrequested⟩, rfl⟩

theorem findLogionIdentity_ok (hpolkadot : owner = .polkadot owner.address)
    (hrequested : RequestedBy events id (view.requester user owner) owner view.sponsorshipId)
    (h : (run step start events).findLogionIdentity user owner locType view now = .ok p) :
    PendingOk (events ++ [.findLogionIdentity id now]) id p ∧ p.row = none := by
  have hrequested := hrequested.concat (e := .findLogionIdentity id now) (continues_of_not_first rfl)
  unfold findLogionIdentity at h
  split_ifs at h with hvalid
  obtain ⟨id₀, r, hid₀, hr, hvalid⟩ := existsValidLogionIdentityLoc_iff.mp (by simpa using hvalid)
  refine described_ok h hpolkadot hrequested fun _ locId hid => ?_
  rw [hid₀] at hid
  cases hid
  obtain ⟨hmem, hrid⟩ := findLoc_some hr
  simp only [RegistryRow.isValidLogionIdentityLoc, Bool.and_eq_true, decide_eq_true_eq,
    Bool.not_eq_true', Option.isNone_iff_eq_none] at hvalid
  obtain ⟨⟨⟨htype, hclosed⟩, hvoid⟩, hnone⟩ := hvalid
  exact ⟨r.facts, hrid, htype, .inr hnone, events, _, rfl, rfl, .now, r, hmem, rfl, hvoid,
    fun _ => hclosed⟩

/-- The identity LOC that `getValidPolkadotIdentityLoc` finds. -/
theorem identifies_of_valid {account : AccountId} {locId : UUID} (hid : e.request = id)
    (hlooks : e.looksUpIdentity = true)
    (h : (getValidPolkadotIdentityLoc (run step start events).rows (some account) owner).map
      (fun r => r.root.id) = some locId) :
    ∃ f, f.id = locId ∧ Identifies (events ++ [e]) id (some account) owner.address f := by
  obtain ⟨r, hr, rfl⟩ := Option.map_eq_some_iff.mp h
  obtain ⟨hmem, htype, hrequester, howner, hvoid⟩ := getValidPolkadotIdentityLoc_some hr
  exact ⟨r.facts, rfl, identifies_of_found hmem hid hlooks htype rfl hrequester howner hvoid⟩

theorem createOpenLoc_ok {openView : OpenLocView} {onNode : Bool}
    (h : (run step start events).createOpenLoc user openView onNode now = .ok p) :
    PendingOk (events ++ [.createOpenLoc id user openView onNode now]) id p ∧ p.row = none := by
  obtain ⟨owner, howner, h⟩ := bind_eq_ok.mp h
  obtain ⟨locType, -, h⟩ := bind_eq_ok.mp h
  obtain ⟨-, h⟩ := refused_eq_ok.mp h
  obtain ⟨-, h⟩ := refused_eq_ok.mp h
  obtain ⟨description, hdescribe, h⟩ := bind_eq_ok.mp h
  obtain ⟨hrequester, hidentity, hdescribed, htype⟩ := describe_ok hdescribe
  cases h
  obtain ⟨rfl, haddress, hpolkadot⟩ := requireLegalOfficerAddressOnNode_ok howner
  refine ⟨⟨hdescribed ▸ hpolkadot, ?_, fun _ locId hid => ?_⟩, rfl⟩
  · rw [hrequester, hdescribed]
    exact .opened .now haddress rfl rfl
  · rw [hidentity] at hid
    rw [hrequester, hdescribed]
    exact identifies_of_valid rfl rfl hid

theorem findLinks_ok {description : LocRequestDescription} {openView : OpenLocView}
    (hdescription : DescriptionOk events id description none)
    (h : s.findLinks user description openView = .ok p) :
    PendingOk (events ++ [.findLinks id]) id p ∧ p.row = none := by
  obtain ⟨metadata, -, h⟩ := bind_eq_ok.mp h
  obtain ⟨links, -, h⟩ := bind_eq_ok.mp h
  cases h
  exact ⟨hdescription.concat (continues_of_not_first rfl), rfl⟩

theorem createSofRequest_ok {loaded : LocRequest} {itemId : Option Hash} {itemFound : Bool}
    (hrow : ∃ r ∈ (run step start events).rows, r.root = loaded.rootRow)
    (h : createSofRequest user loaded itemId itemFound = .ok p) :
    PendingOk (events ++ [.createSofRequest id user loaded itemId itemFound]) id p ∧ p.row = none := by
  obtain ⟨hcontributor, h⟩ := (contributor_bind_ok rfl).mp h
  obtain ⟨nature, -, h⟩ := bind_eq_ok.mp h
  cases h
  exact ⟨⟨rfl, .contributed .now hrow hcontributor rfl rfl rfl⟩, rfl⟩

theorem findContributorIdentity_ok {contributor : AccountId} {target : UUID} {nature : String}
    (hpolkadot : owner = .polkadot owner.address)
    (hrequested : RequestedBy events id (some contributor) owner none)
    (h : (run step start events).findContributorIdentity contributor owner target nature now = .ok p) :
    PendingOk (events ++ [.findContributorIdentity id now]) id p ∧ p.row = none := by
  cases h
  exact ⟨⟨hpolkadot, hrequested.concat (continues_of_not_first rfl),
    fun _ locId hid => identifies_of_valid rfl rfl hid⟩, rfl⟩

/-- The new LOC is what the request has asked for. -/
theorem addNewRequest_ok {creator : LocCreator} {description : LocRequestDescription} {uuid : UUID}
    (hdescription : DescriptionOk events id description sponsorshipId)
    (h : addNewRequest creator description sponsorshipId uuid now = .ok p) :
    ∃ row, p = .saving row ∧ row.facts.id = uuid ∧
      FactsOk (events ++ [.addNewRequest id uuid now]) row.facts := by
  obtain ⟨l, hcreate, h⟩ := bind_eq_ok.mp h
  cases h
  obtain ⟨hdescribes, htyped⟩ := LocCreator.create_ok (thrown_ok.mp hcreate)
  have hrequester : (RegistryRow.created l description sponsorshipId).facts.requester =
      description.requesterAddress := by
    rw [← hdescribes.requester]
    cases hl : l.requester <;>
      simp [RegistryRow.created, RegistryRow.facts, LocFacts.requester, LocRequest.rootRow, hl]
  have howner : AccountId.polkadot l.ownerAddress = description.ownerAddress := by
    rw [hdescribes.ownerAddress]
    exact hdescription.owner.symm
  have hid : (RegistryRow.created l description sponsorshipId).facts.id = uuid := hdescribes.id
  refine ⟨_, rfl, hid, ?_, events, id, now, hid ▸ List.prefix_refl _, ?_, fun locId hlink => ?_⟩
  · change l.locType = .identity ↔ _
    rw [hdescribes.locType]
    exact htyped
  · rw [hrequester]
    change RequestedBy events id _ (.polkadot l.ownerAddress) _
    rw [howner]
    exact hdescription.requested
  · rw [hrequester]
    change ∃ f', f'.id = locId ∧ Identifies events id _ l.ownerAddress f'
    rw [hdescribes.ownerAddress]
    have hlink : description.requesterIdentityLoc = some locId := hlink
    exact hdescription.identified (fun htype => by rw [htyped.mp htype] at hlink; cases hlink) locId hlink

end Requests

/-! ### One event -/

section Step

variable {e : RegistryEvent} {id : ℕ} {q : Option Pending}

omit [Hashing] [RestApi] in
/-- What the requests in flight are about to write after one of them has moved on. -/
theorem holds_update {id' : ℕ} {p : Pending} {r : RegistryRow}
    (hp : Function.update s.inFlight id q id' = some p) (hr : p.row = some r) :
    Holds s r.facts ∨ q.bind Pending.row = some r := by
  by_cases hid : id' = id
  · subst hid
    rw [Function.update_self] at hp
    rw [hp]
    exact .inr hr
  · rw [Function.update_of_ne hid] at hp
    exact .inl (.inFlight hp hr rfl)

/-- The requests in flight after one of them has moved on. -/
theorem pendingOk_update (h : Inv events s) (he : e.request = id)
    (hq : ∀ p, q = some p → PendingOk (events ++ [e]) id p)
    {id' : ℕ} {p : Pending} (hp : Function.update s.inFlight id q id' = some p) :
    PendingOk (events ++ [e]) id' p := by
  by_cases hid : id' = id
  · subst hid
    rw [Function.update_self] at hp
    exact hq p hp
  · rw [Function.update_of_ne hid] at hp
    exact (h.pending id' p hp).concat (continues_of_ne fun he' => hid (he'.symm.trans he))

/-- **A request moves on** without a write. -/
theorem Inv.goesOn (h : Inv events (run step start events)) (he : e.request = id)
    (hs : attempt step (run step start events) e =
      { run step start events with inFlight := Function.update (run step start events).inFlight id q })
    (hq : ∀ p, q = some p → PendingOk (events ++ [e]) id p)
    (hrow : ∀ row, q.bind Pending.row = some row → Known events row.facts) :
    Inv (events ++ [e]) (attempt step (run step start events) e) := by
  rw [← run_concat] at hs ⊢
  refine h.next (fun f hf => ?_) (fun id' p hp => ?_) ?_
  · rw [hs] at hf
    cases hf with
    | stored hr hf => exact sometime_now (.stored hr hf)
    | @inFlight id' p r hp hr hf =>
      subst hf
      rcases holds_update hp hr with hf | hnew
      · exact sometime_now hf
      · exact hrow r hnew
  · rw [hs] at hp
    exact pendingOk_update h he hq hp
  · rw [hs]
    exact h.constraints

/-- A request that reads. -/
theorem Inv.reads {p : Pending} (h : Inv events (run step start events)) (he : e.request = id)
    (hs : attempt step (run step start events) e = (run step start events).begin id p)
    (hp : PendingOk (events ++ [e]) id p) (hrow : p.row = none) :
    Inv (events ++ [e]) (attempt step (run step start events) e) := by
  refine h.goesOn he hs (fun p' hp' => Option.some.inj hp' ▸ hp) fun row hsome => ?_
  rw [Option.bind_some, hrow] at hsome
  cases hsome

/-- A request that goes on reading, or is over because it throws. -/
theorem Inv.proceeds {x : Except ApiErr Pending} (h : Inv events (run step start events))
    (he : e.request = id)
    (hs : attempt step (run step start events) e = (run step start events).proceed id x)
    (hx : ∀ p, x = .ok p → PendingOk (events ++ [e]) id p ∧ p.row = none) :
    Inv (events ++ [e]) (attempt step (run step start events) e) := by
  cases x with
  | error _ => exact h.goesOn (q := none) he hs (fun p hp => by cases hp) fun row hrow => by cases hrow
  | ok p => exact h.reads he hs (hx p rfl).1 (hx p rfl).2

/-- Nothing happens. -/
theorem Inv.stays (h : Inv events (run step start events))
    (hs : attempt step (run step start events) e = run step start events) :
    Inv (events ++ [e]) (attempt step (run step start events) e) := by
  rw [← run_concat] at hs ⊢
  refine h.next (fun f hf => ?_) (fun id' p hp => ?_) ?_
  · rw [hs] at hf
    exact sometime_now hf
  · have hcontinues : Continues events id' e := fun _ _ => (run_concat start events e).symm.trans hs
    rw [hs] at hp
    exact (h.pending id' p hp).concat hcontinues
  · rw [hs]
    exact h.constraints

/-- **A request writes**, or throws.  The table then has rows that were known. -/
theorem Inv.writes (statement : Statement RegistryRow) (h : Inv events (run step start events))
    (he : e.request = id)
    (hs : attempt step (run step start events) e = (run step start events).finish id
      (execute (run step start events).rows statement))
    (hrows : ∀ r ∈ statement.rows (run step start events).rows, Known events r.facts) :
    Inv (events ++ [e]) (attempt step (run step start events) e) := by
  cases hexec : execute (run step start events).rows statement with
  | error _ =>
    rw [hexec] at hs
    exact h.goesOn (q := none) he hs (fun p hp => by cases hp) fun row hrow => by cases hrow
  | ok rows =>
    obtain ⟨rfl, hconstraints⟩ := execute_ok hexec
    rw [hexec] at hs
    rw [← run_concat] at hs ⊢
    refine h.next (fun f hf => ?_) (fun id' p hp => ?_) ?_
    · rw [hs] at hf
      cases hf with
      | stored hr hf => exact hf ▸ hrows _ hr
      | @inFlight id' p r hp hr hf =>
        subst hf
        rcases holds_update hp hr with hf | hnew
        · exact sometime_now hf
        · cases hnew
    · rw [hs] at hp
      exact pendingOk_update (q := none) h he (fun p hp => by cases hp) hp
    · rw [hs]
      exact hconstraints

variable (id) in
/-- The first event of a request. -/
theorem Inv.begins {x : Except ApiErr Pending} (h : Inv events (run step start events))
    (he : e.request = id)
    (hs : step (run step start events) e = x.map ((run step start events).begin id))
    (hx : ∀ p, x = .ok p → PendingOk (events ++ [e]) id p ∧ p.row = none) :
    Inv (events ++ [e]) (attempt step (run step start events) e) := by
  cases x with
  | error _ => exact h.stays (attempt_of_error hs)
  | ok p => exact h.reads he (attempt_of_ok hs) (hx p rfl).1 (hx p rfl).2

/-- A request that is resumed, at the right point or not. -/
theorem Inv.resumes {next : Pending → Option LocRegistry} (h : Inv events (run step start events))
    (hs : step (run step start events) e = .ok ((run step start events).resume id next))
    (hnext : ∀ p s', (run step start events).inFlight id = some p → next p = some s' →
      attempt step (run step start events) e = s' →
      Inv (events ++ [e]) (attempt step (run step start events) e)) :
    Inv (events ++ [e]) (attempt step (run step start events) e) := by
  cases hs' : ((run step start events).inFlight id).bind next with
  | none =>
    refine h.stays ?_
    rw [attempt_of_ok hs, resume, hs', Option.getD_none]
  | some s' =>
    obtain ⟨p, hp, hp'⟩ := Option.bind_eq_some_iff.mp hs'
    refine hnext p s' hp hp' ?_
    rw [attempt_of_ok hs, resume, hs', Option.getD_some]

omit [RestApi] in
/-- The instance that an update is about to save is one of a known LOC. -/
theorem update_ok {r : RegistryRow} {loaded : LocRequest} {ops : List LocOp} {p : Pending}
    (hroot : r.root = loaded.rootRow) (h : update r loaded ops = .ok p) :
    ∃ row, p = .saving row ∧ row.facts = r.facts := by
  obtain ⟨l, hops, h⟩ := bind_eq_ok.mp h
  cases h
  exact ⟨_, rfl, RegistryRow.facts_update hroot (steps_sameLoc (thrown_ok.mp hops))⟩

/-- The rows that a save leaves were known. -/
theorem known_of_saved {row r : RegistryRow} {reread : Option RegistryRow}
    (h : Inv events (run step start events)) (hrow : Known events row.facts)
    (hreread : ∀ r, reread = some r → Known events r.facts ∧ r.root.id = row.root.id)
    (hr : r ∈ (saveStatement row reread).rows (run step start events).rows) : Known events r.facts := by
  have hstored : ∀ r ∈ (run step start events).rows, Known events r.facts :=
    fun r hr => sometime_now (.stored hr rfl)
  cases reread with
  | none =>
    rcases List.mem_append.mp hr with hr | hr
    · exact hstored r hr
    · exact List.mem_singleton.mp hr ▸ hrow
  | some reread =>
    obtain ⟨r₀, hr₀, rfl⟩ := List.mem_map.mp hr
    split_ifs with hid
    · obtain ⟨hknown, hsame⟩ := hreread reread rfl
      have hid : r₀.root.id = row.root.id := by simpa using hid
      rw [RegistryRow.facts_write (h.unique _ _ hknown hrow hsame)
        (h.unique _ _ (hstored r₀ hr₀) hrow hid)]
      exact hrow
    · exact hstored r₀ hr₀

/-- **One event** keeps the invariant. -/
theorem inv_step (h : Inv events (run step start events))
    (hnew : ∀ u, e.uuid = some u → u ∉ uuids events) :
    Inv (events ++ [e]) (attempt step (run step start events) e) := by
  have hstored : ∀ r ∈ (run step start events).rows, Known events r.facts :=
    fun r hr => sometime_now (.stored hr rfl)
  cases e with
  | createLocRequest id user view onNode sponsorship =>
    refine h.begins id (x := (run step start events).createLocRequest user view onNode sponsorship)
      rfl rfl fun p hp => ⟨createLocRequest_ok hp, ?_⟩
    obtain ⟨_, -, hp⟩ := bind_eq_ok.mp hp
    obtain ⟨_, -, hp⟩ := bind_eq_ok.mp hp
    obtain ⟨_, -, hp⟩ := bind_eq_ok.mp hp
    cases hp
    rfl
  | findIdentity id now =>
    refine h.resumes rfl fun p s' hp hf hs => ?_
    cases p with
    | validated user owner locType view =>
      cases hf
      have hok := h.pending id _ hp
      exact h.proceeds rfl hs fun p =>
        findIdentity_ok hok.1 hok.2
    | _ => cases hf
  | findLogionIdentity id now =>
    refine h.resumes rfl fun p s' hp hf hs => ?_
    cases p with
    | unidentified user owner locType view =>
      cases hf
      have hok := h.pending id _ hp
      exact h.proceeds rfl hs fun p =>
        findLogionIdentity_ok hok.1 hok.2
    | _ => cases hf
  | createOpenLoc id user view onNode now =>
    exact h.begins id (x := (run step start events).createOpenLoc user view onNode now) rfl rfl
      fun p => createOpenLoc_ok
  | findLinks id =>
    refine h.resumes rfl fun p s' hp hf hs => ?_
    cases p with
    | opening user description view =>
      cases hf
      exact h.proceeds rfl hs fun p =>
        findLinks_ok (h.pending id _ hp)
    | _ => cases hf
  | createSofRequest id user loaded itemId itemFound =>
    cases hrow : (run step start events).rowOf loaded with
    | some r =>
      have hmem : ∃ r ∈ (run step start events).rows, r.root = loaded.rootRow :=
        ⟨r, List.mem_of_find?_eq_some hrow, by simpa using List.find?_some hrow⟩
      exact h.begins id (x := createSofRequest user loaded itemId itemFound) rfl
        (by simp only [step, hrow, Option.isSome_some, if_true]; rfl) fun p => createSofRequest_ok hmem
    | none => exact h.stays (attempt_of_ok (by simp only [step, hrow]; rfl))
  | findContributorIdentity id now =>
    refine h.resumes rfl fun p s' hp hf hs => ?_
    cases p with
    | contributing contributor owner target nature =>
      cases hf
      have hok := h.pending id _ hp
      exact h.proceeds rfl hs fun p =>
        findContributorIdentity_ok hok.1 hok.2
    | _ => cases hf
  | addNewRequest id uuid now =>
    refine h.resumes rfl fun p s' hp hf hs => ?_
    cases p with
    | creating creator description sponsorshipId =>
      cases hf
      cases hx : addNewRequest creator description sponsorshipId uuid now with
      | error _ =>
        exact h.goesOn (q := none) rfl (by rw [hs, hx]; rfl) (fun p hp => by cases hp)
          fun row hrow => by cases hrow
      | ok p =>
        obtain ⟨row, rfl, hid, hfacts⟩ := addNewRequest_ok (h.pending id _ hp) hx
        rw [hx, ← run_concat] at hs
        rw [← run_concat]
        refine h.create (fun f hf => ?_) hfacts (by rw [hid]; rfl) (hid ▸ hnew uuid rfl)
          (fun id' p hp => ?_) (by rw [hs]; exact h.constraints)
        · rw [hs] at hf
          cases hf with
          | stored hr hf => exact .inl (hf ▸ hstored _ hr)
          | @inFlight id' p r hp hr hf =>
            subst hf
            rcases holds_update hp hr with hf | hrow
            · exact .inl (sometime_now hf)
            · cases hrow
              exact .inr rfl
        · rw [hs] at hp
          exact pendingOk_update h rfl (fun p hp => Option.some.inj hp ▸ trivial) hp
    | _ => cases hf
  | update id loaded ops =>
    cases hrow : (run step start events).rowOf loaded with
    | some r =>
      cases hx : update r loaded ops with
      | error _ => exact h.stays (attempt_of_error (by simp only [step, hrow, hx]; rfl))
      | ok p =>
        obtain ⟨row, rfl, hfacts⟩ := update_ok (by simpa using List.find?_some hrow) hx
        refine h.goesOn (q := some (.saving row)) rfl (attempt_of_ok (by simp only [step, hrow, hx]; rfl))
          (fun p hp => Option.some.inj hp ▸ trivial) fun row' hrow' => ?_
        cases hrow'
        exact hfacts ▸ hstored r (List.mem_of_find?_eq_some hrow)
    | none => exact h.stays (attempt_of_ok (by simp only [step, hrow]; rfl))
  | save id =>
    refine h.resumes rfl fun p s' hp hf hs => ?_
    cases p with
    | saving row =>
      cases hf
      refine h.goesOn (q := some (.writing row (findLoc (run step start events).rows row.root.id))) rfl
        hs (fun p hp' => ?_) fun row' hrow' => ?_
      · cases hp'
        intro r hr
        obtain ⟨hmem, hid⟩ := findLoc_some hr
        exact ⟨(hstored r hmem).concat _, hid⟩
      · cases hrow'
        exact sometime_now (.inFlight hp rfl rfl)
    | _ => cases hf
  | write id =>
    refine h.resumes rfl fun p s' hp hf hs => ?_
    cases p with
    | writing row reread =>
      cases hf
      exact h.writes _ rfl hs fun r hr =>
        known_of_saved h (sometime_now (.inFlight hp rfl rfl)) (h.pending id _ hp) hr
    | _ => cases hf
  | cancel id user loaded endpoint =>
    by_cases hguard : ((run step start events).rowOf loaded).isSome ∧ endpoint.deletes
    · refine h.begins id (x := cancel user loaded endpoint) rfl
        (by simp only [step, if_pos hguard]; rfl) fun p hp => ?_
      obtain ⟨_, -, hp⟩ := bind_eq_ok.mp hp
      cases hp
      exact ⟨trivial, rfl⟩
    · exact h.stays (attempt_of_ok (by simp only [step, if_neg hguard]; rfl))
  | delete id =>
    refine h.resumes rfl fun p s' hp hf hs => ?_
    cases p with
    | deleting locId =>
      cases hf
      refine h.writes (.delete fun r => r.root.id = locId) rfl hs fun r hr => ?_
      exact hstored r (List.mem_filter.mp hr).1
    | _ => cases hf
  | fail id =>
    exact h.goesOn (q := none) rfl (attempt_of_ok rfl) (fun p hp => by cases hp) fun row hrow => by
      cases hrow

end Step

/-! ### Whole runs -/

theorem inv_start : Inv [] start := by
  have hnone : ∀ f, ¬ Known [] f := by
    rintro f ⟨pre, hpre, hf⟩
    rw [List.prefix_nil.mp hpre] at hf
    cases hf with
    | stored hr hf => cases hr
    | inFlight hp hr hf => cases hp
  exact ⟨fun f hf => absurd hf (hnone f), fun f _ hf => absurd hf (hnone f),
    fun f hf => absurd hf (hnone f), fun _ _ hp => (by cases hp), consistent_nil, rfl⟩

/-- **The invariant of the registry**, when `uuid()` never returns an identifier twice. -/
theorem inv_run (h : (uuids events).Nodup) : Inv events (run step start events) := by
  refine history_induct (I := fun events s => (uuids events).Nodup → Inv events s)
    (fun _ => inv_start) (fun events e ih hnodup => ?_) events h
  rw [uuids_concat] at hnodup
  obtain ⟨hevents, -, hdisjoint⟩ := List.nodup_append.mp hnodup
  refine inv_step (ih hevents) fun u hu hmem => hdisjoint u hmem u ?_ rfl
  rw [hu]
  exact List.mem_singleton.mpr rfl

/-- **Who has requested a LOC.**  Whatever the requests on the node and however their steps interleave,
the request that has created a stored LOC was made by its requester, or by its owner, a legal officer of
the node, for the requester that he names; its sponsorship was then unused on chain and applied to its
owner and to the user, and no other LOC has it. -/
theorem requested_by_party (events : List RegistryEvent) (h : (uuids events).Nodup) {r : RegistryRow}
    (hr : r ∈ (run step start events).rows) :
    Creation events r.root.id (fun before id =>
        RequestedBy before id r.getRequester r.getOwner r.sponsorshipId) ∧
      ∀ r' ∈ (run step start events).rows, r.sponsorshipId.isSome →
        r'.sponsorshipId = r.sponsorshipId → r' = r := by
  have hinv := inv_run h
  refine ⟨(hinv.facts r.facts (sometime_now (.stored hr rfl))).created.mono fun _ _ => And.left,
    fun r' hr' hsome heq => ?_⟩
  by_contra hne
  exact hinv.constraints.consistent.forall hr hr' (Ne.symm hne) (.inr ⟨hsome, heq.symm⟩)

/-! ### The identity that a view shows -/

/-- Whose identity the view of a stored LOC shows. -/
inductive Shows (events : List RegistryEvent) (rows : List RegistryRow) (r : RegistryRow) :
    LocUserPrivateData → Prop
  | own (htype : r.root.locType = .identity) : Shows events rows r ⟨none, r.userIdentity⟩
  | linked {identityLoc : RegistryRow} (htype : r.root.locType ≠ .identity) (hmem : identityLoc ∈ rows)
      (hid : r.requesterIdentityLocId = some identityLoc.root.id)
      (hidentifies : Creation events r.root.id fun before id =>
        Identifies before id r.getRequester r.root.ownerAddress identityLoc.facts) :
      Shows events rows r ⟨some identityLoc.root.id, identityLoc.userIdentity⟩

/-- The identity is found, and it is that of the requester. -/
theorem Inv.shows (h : Inv events (run step start events)) {r : RegistryRow}
    (hr : r ∈ (run step start events).rows) :
    ∃ data, findUserPrivateData (run step start events).rows r = .ok data ∧
      Shows events (run step start events).rows r data := by
  have hstored : ∀ r ∈ (run step start events).rows, Known events r.facts :=
    fun r hr => sometime_now (.stored hr rfl)
  have hfacts := h.facts r.facts (hstored r hr)
  by_cases htype : r.root.locType = .identity
  · exact ⟨_, if_pos htype, .own htype⟩
  · obtain ⟨id, hid⟩ := Option.ne_none_iff_exists'.mp (mt hfacts.typed.mpr htype)
    have hid : r.requesterIdentityLocId = some id := hid
    obtain ⟨identityLoc, hfind⟩ := references_of_mem h.constraints hr hid
    obtain ⟨hmem, rfl⟩ := findLoc_some hfind
    obtain ⟨before, n, now, hprefix, -, hidentified⟩ := hfacts.created
    obtain ⟨f, hf, hidentifies⟩ := hidentified _ hid
    have hknown : Known events f := by
      obtain ⟨pre, hpre, hholds⟩ := hidentifies.known
      exact ⟨pre, hpre.trans ((List.prefix_append before _).trans hprefix), hholds⟩
    obtain rfl := h.unique f identityLoc.facts hknown (hstored identityLoc hmem) hf
    refine ⟨_, ?_, .linked htype hmem hid ⟨before, n, now, hprefix, hidentifies⟩⟩
    simp only [findUserPrivateData, if_neg htype, hid, Option.bind_some, hfind]
    rfl

/-- The same LOC shows the same identity at any other time. -/
theorem Inv.shows_same {pre : List RegistryEvent} (h : Inv events (run step start events))
    (hpre : pre <+: events) (hinv : Inv pre (run step start pre)) {r r₀ : RegistryRow}
    (hr : r ∈ (run step start events).rows) (hr₀ : r₀ ∈ (run step start pre).rows)
    (hid : r₀.root.id = r.root.id) :
    findUserPrivateData (run step start pre).rows r₀ =
      findUserPrivateData (run step start events).rows r := by
  have hstored : ∀ r ∈ (run step start events).rows, Known events r.facts :=
    fun r hr => sometime_now (.stored hr rfl)
  have hbefore : ∀ r ∈ (run step start pre).rows, Known events r.facts :=
    fun r hr => ⟨pre, hpre, .stored hr rfl⟩
  have hsame := h.unique _ _ (hbefore r₀ hr₀) (hstored r hr) hid
  have htype : r₀.root.locType = r.root.locType := congrArg LocFacts.locType hsame
  have hlink : r₀.requesterIdentityLocId = r.requesterIdentityLocId :=
    congrArg LocFacts.requesterIdentityLocId hsame
  have hidentity : r₀.userIdentity = r.userIdentity := congrArg LocFacts.userIdentity hsame
  obtain ⟨data₀, hdata₀, hshows₀⟩ := hinv.shows hr₀
  obtain ⟨data, hdata, hshows⟩ := h.shows hr
  rw [hdata₀, hdata]
  cases hshows₀ with
  | own htype₀ =>
    cases hshows with
    | own _ => rw [hidentity]
    | linked hne _ _ _ => exact absurd (htype ▸ htype₀) hne
  | @linked identityLoc₀ hne₀ hmem₀ hid₀ _ =>
    cases hshows with
    | own htype₁ => exact absurd (htype.trans htype₁) hne₀
    | @linked identityLoc hne hmem hid₁ _ =>
      have hids : identityLoc₀.root.id = identityLoc.root.id := by
        rw [hlink, hid₁] at hid₀
        exact (Option.some.inj hid₀).symm
      have hsame := h.unique _ _ (hbefore _ hmem₀) (hstored _ hmem) hids
      have hperson : identityLoc₀.userIdentity = identityLoc.userIdentity :=
        congrArg LocFacts.userIdentity hsame
      rw [hids, hperson]

/-- **Whose identity a LOC shows.**  Whatever the requests on the node, updates and deletions included,
and however their steps interleave, the view of a stored LOC never fails to find an identity: its own,
or the one of an identity LOC that is stored, that has the same requester and the same owner, or has no
requester, and that was not void, and closed in the second case, when it was looked up by the request that
has created the LOC.  The same LOC shows the same identity at all times. -/
theorem identity_of_requester (events : List RegistryEvent) (h : (uuids events).Nodup)
    {r : RegistryRow} (hr : r ∈ (run step start events).rows) :
    ∃ data, findUserPrivateData (run step start events).rows r = .ok data ∧
      Shows events (run step start events).rows r data ∧
      ∀ pre, pre <+: events → ∀ r₀ ∈ (run step start pre).rows, r₀.root.id = r.root.id →
        findUserPrivateData (run step start pre).rows r₀ = .ok data := by
  have hinv := inv_run h
  obtain ⟨data, hdata, hshows⟩ := hinv.shows hr
  refine ⟨data, hdata, hshows, fun pre hpre r₀ hr₀ hid => ?_⟩
  have hnodup : (uuids pre).Nodup := h.sublist (hpre.sublist.filterMap RegistryEvent.uuid)
  rw [hinv.shows_same hpre (inv_run hnodup) hr hr₀ hid, hdata]

end LocRegistry

/-! ### A run -/

/-- What follows the first event of a request for which no other identity LOC is looked up. -/
def creationEvents (id : ℕ) (uuid : UUID) (now : Moment) : List RegistryEvent :=
  [.findIdentity id now, .addNewRequest id uuid now, .save id, .write id]

def aliceUser : AuthenticatedUser where
  validAccountId := .polkadot "alice"

def aliceView (locType : LocType) (sponsorshipId : Option UUID) : CreateLocRequestView where
  ownerAddress := some "officer"
  locType := some locType
  description := some "description"
  userIdentity := some ⟨"Alice", "Doe", "alice@example.org", "+32"⟩
  template := none
  fees := ⟨none, none, none⟩
  collectionParams := none
  requesterAddress := none
  requesterIdentityLoc := none
  sponsorshipId := sponsorshipId
  draft := some true

/-- Alice requests an identity LOC, then a sponsored transaction LOC. -/
def aliceEvents : List RegistryEvent :=
  .createLocRequest 0 aliceUser (aliceView .identity none) true none :: creationEvents 0 "u1" 1 ++
    .createLocRequest 0 aliceUser (aliceView .transaction (some "s1")) true
      (some ⟨none, .polkadot "officer", .polkadot "alice"⟩) :: creationEvents 0 "u2" 2

/-- The row of the transaction LOC. -/
def aliceTransaction : RegistryRow where
  root := {
    id := "u2", status := .draft, requesterAddress := some "alice"
    requesterAddressType := some .polkadot, ownerAddress := "officer", locType := .transaction
    decisionOn := none, rejectReason := none, createdOn := some 2, closedOn := none
    locCreatedOn := none, voidReason := none, voidedOn := none, idenfyAuthToken := none
    idenfyScanRef := none, idenfyStatus := none, idenfyCallbackPayload := none }
  requesterIdentityLocId := some "u1"
  sponsorshipId := some "s1"
  userIdentity := none

theorem aliceTransaction_mem :
    letI : Hashing := ⟨fun name => name⟩
    letI : RestApi := ⟨fun value _ _ _ => requireDefined value⟩
    aliceTransaction ∈ (run LocRegistry.step LocRegistry.start aliceEvents).rows := by
  decide +kernel

theorem requested_by_party_alice :
    letI : Hashing := ⟨fun name => name⟩
    letI : RestApi := ⟨fun value _ _ _ => requireDefined value⟩
    aliceTransaction ∈ (run LocRegistry.step LocRegistry.start aliceEvents).rows ∧
      LocRegistry.Creation aliceEvents "u2" fun before id => LocRegistry.RequestedBy before id
        (some (.polkadot "alice")) (.polkadot "officer") (some "s1") := by
  let _ : Hashing := ⟨fun name => name⟩
  let _ : RestApi := ⟨fun value _ _ _ => requireDefined value⟩
  exact ⟨aliceTransaction_mem,
    (LocRegistry.requested_by_party aliceEvents (by decide) aliceTransaction_mem).1⟩

theorem identity_of_requester_alice :
    letI : Hashing := ⟨fun name => name⟩
    letI : RestApi := ⟨fun value _ _ _ => requireDefined value⟩
    aliceTransaction ∈ (run LocRegistry.step LocRegistry.start aliceEvents).rows ∧
      ∃ data, findUserPrivateData (run LocRegistry.step LocRegistry.start aliceEvents).rows
          aliceTransaction = .ok data ∧
        LocRegistry.Shows aliceEvents (run LocRegistry.step LocRegistry.start aliceEvents).rows
          aliceTransaction data := by
  let _ : Hashing := ⟨fun name => name⟩
  let _ : RestApi := ⟨fun value _ _ _ => requireDefined value⟩
  obtain ⟨data, hdata, hshows, -⟩ :=
    LocRegistry.identity_of_requester aliceEvents (by decide) aliceTransaction_mem
  exact ⟨aliceTransaction_mem, data, hdata, hshows⟩

end Logion
