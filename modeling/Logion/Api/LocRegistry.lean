import Logion.Api.LocApi
import Logion.Store.LocTables
import Mathlib.Data.List.Sort

/-!
# LocRegistry — the table of the LOCs and their creation (`locrequest.controller.ts`)

All the LOCs of a node, and the requests that create, update and delete them.  A request reads the
table several times before it writes to it, and others may write in between: what it has read so far
is a `Pending`.

* `RegistryRow`, `referencesHold`: the table `loc_request` and its constraints.
* `FetchLocRequestsSpecification`, `getNonVoidIdentityLoc`, `getValidPolkadotIdentityLoc`: queries.
* `LocRegistry.step`: the endpoints `createLocRequest`, `createOpenLoc` and `createSofRequest`, step by
  step, the updates of a LOC, and the two deletions.
* `findUserPrivateData`: the identity that the view of a LOC shows.

The items of a LOC have their own tables: an instance comes with any.  Fees, texts and addresses that
nothing of this reads are left out.
-/

namespace Logion

open Fallible

/-! ### The table -/

/-- A row of `loc_request`, with what refers to other LOCs, to the sponsorship and to the person. -/
structure RegistryRow where
  root : RootRow
  requesterIdentityLocId : Option UUID
  sponsorshipId : Option UUID
  userIdentity : Option UserIdentity
  deriving DecidableEq

namespace RegistryRow

/-- The primary key, and `UQ_loc_request_sponsorship_id`: two NULLs are distinct. -/
def clash (r r' : RegistryRow) : Prop :=
  r.root.id = r'.root.id ∨ (r.sponsorshipId.isSome ∧ r.sponsorshipId = r'.sponsorshipId)

instance : DecidableRel clash := fun r r' =>
  inferInstanceAs (Decidable (r.root.id = r'.root.id ∨ _))

/-- The instance that the factory has built, as it is stored. -/
def created (l : LocRequest) (description : LocRequestDescription) (sponsorshipId : Option UUID) :
    RegistryRow where
  root := l.rootRow
  requesterIdentityLocId := description.requesterIdentityLoc
  sponsorshipId := sponsorshipId
  userIdentity := if description.locType = .identity then description.userIdentity else none

/-- `getVoidInfo() !== null`. -/
def isVoid (r : RegistryRow) : Bool := r.root.voidReason.isSome

/-- `getRequester()`. -/
def getRequester (r : RegistryRow) : Option AccountId :=
  match r.root.requesterAddressType, r.root.requesterAddress with
  | some type, some address => some ⟨type, address⟩
  | _, _ => none

def getOwner (r : RegistryRow) : AccountId := .polkadot r.root.ownerAddress

/-- The row after the UPDATE. -/
def write (entity reread current : RegistryRow) : RegistryRow where
  root := entity.root.write reread.root current.root
  requesterIdentityLocId := writeColumn entity.requesterIdentityLocId reread.requesterIdentityLocId
    current.requesterIdentityLocId
  sponsorshipId := writeColumn entity.sponsorshipId reread.sponsorshipId current.sponsorshipId
  userIdentity := writeColumn entity.userIdentity reread.userIdentity current.userIdentity

end RegistryRow

section Table

variable (rows : List RegistryRow)

/-- `findById`. -/
def findLoc (id : UUID) : Option RegistryRow := rows.find? fun r => r.root.id = id

/-- `FK_loc_request_requester_identity_loc`. -/
def referencesHold : Bool :=
  rows.all fun r => r.requesterIdentityLocId.all fun id => (findLoc rows id).isSome

/-- What a violated constraint throws. -/
def constraintViolated : ApiErr := .thrown (.error "QueryFailedError")

/-- A statement of PostgreSQL, with the constraints of the table. -/
def execute (statement : Table.Statement RegistryRow) : Except ApiErr (List RegistryRow) :=
  match statement.exec RegistryRow.clash rows with
  | .ok rows => if referencesHold rows then .ok rows else .error constraintViolated
  | .error _ => .error constraintViolated

/-- `save`, after the row was read again: the columns that differ are written, or the row is inserted
where there was none. -/
def saveStatement (row : RegistryRow) : Option RegistryRow → Table.Statement RegistryRow
  | none => .insert row
  | some reread => .update (fun r => r.root.id = row.root.id) (row.write reread)

/-- `deleteRequest`. -/
def deleteRequest (id : UUID) : Except ApiErr (List RegistryRow) :=
  execute rows (.delete fun r => r.root.id = id)

end Table

/-! ### Queries -/

/-- `FetchLocRequestsSpecification`, with one owner where there is one. -/
structure FetchLocRequestsSpecification where
  expectedRequesterAddress : Option String := none
  expectedOwnerAddress : Option String := none
  expectedStatuses : List LocRequestStatus := []
  expectedLocTypes : List LocType := []
  expectedIdentityLocType : Option AccountType := none
  expectedSponsorshipId : Option UUID := none

namespace FetchLocRequestsSpecification

/-- The WHERE clause of `createQueryBuilder`. -/
def selects (specification : FetchLocRequestsSpecification) (r : RegistryRow) : Bool :=
  (specification.expectedRequesterAddress.all fun address => r.root.requesterAddress = some address) &&
    (specification.expectedOwnerAddress.all fun address => r.root.ownerAddress = address) &&
    (specification.expectedStatuses.isEmpty || specification.expectedStatuses.contains r.root.status) &&
    (specification.expectedLocTypes.isEmpty || specification.expectedLocTypes.contains r.root.locType) &&
    (specification.expectedIdentityLocType.all fun type =>
      r.root.requesterAddress.isSome && r.root.requesterAddressType = some type) &&
    (specification.expectedSponsorshipId.all fun sponsorshipId =>
      r.sponsorshipId = some sponsorshipId)

end FetchLocRequestsSpecification

/-- `ORDER BY ... DESC NULLS FIRST` on one column: whether the first date may come before. -/
def descNullsFirst (date date' : Option Moment) : Ordering :=
  match date, date' with
  | none, none => .eq
  | none, some _ => .lt
  | some _, none => .gt
  | some t, some t' => compare t' t

/-- The order of the queries, by five dates. -/
def RegistryRow.precedes (r r' : RegistryRow) : Bool :=
  ((((descNullsFirst r.root.voidedOn r'.root.voidedOn).then
    (descNullsFirst r.root.closedOn r'.root.closedOn)).then
    (descNullsFirst r.root.locCreatedOn r'.root.locCreatedOn)).then
    (descNullsFirst r.root.decisionOn r'.root.decisionOn)).then
    (descNullsFirst r.root.createdOn r'.root.createdOn) != .gt

section Queries

variable (rows : List RegistryRow)

/-- `LocRequestRepository.findBy`. -/
def findLocsBy (specification : FetchLocRequestsSpecification) : List RegistryRow :=
  (rows.filter specification.selects).insertionSort fun r r' => r.precedes r'

/-- `existsBy`. -/
def existsLocBy (specification : FetchLocRequestsSpecification) : Bool := rows.any specification.selects

/-- The query of `getValidPolkadotIdentityLoc` and of `getNonVoidIdentityLoc`. -/
def findIdentityLoc (statuses : List LocRequestStatus) (requester owner : AccountId) : Option RegistryRow :=
  (findLocsBy rows {
    expectedLocTypes := [.identity]
    expectedIdentityLocType := some requester.type
    expectedRequesterAddress := some requester.address
    expectedOwnerAddress := some owner.address
    expectedStatuses := statuses }).find? fun r => !r.isVoid

def getValidPolkadotIdentityLoc (requester : Option AccountId) (owner : AccountId) : Option RegistryRow :=
  requester.bind fun requester => findIdentityLoc rows [.closed] requester owner

def getNonVoidIdentityLoc (requester : Option AccountId) (owner : AccountId) : Option RegistryRow :=
  requester.bind fun requester => findIdentityLoc rows [] requester owner

/-- The LOC is the closed and valid identity LOC of a requester without account. -/
def RegistryRow.isValidLogionIdentityLoc (r : RegistryRow) : Bool :=
  r.root.locType = .identity && r.root.status = .closed && !r.isVoid && r.getRequester.isNone

def existsValidLogionIdentityLoc (identityLocId : Option UUID) : Bool :=
  (nonEmpty identityLocId).any fun id => (findLoc rows id).any RegistryRow.isValidLogionIdentityLoc

end Queries

/-! ### What the requests carry -/

/-- `BaseLocView`: what the three requests have in common. -/
structure BaseLocView where
  ownerAddress : Option String
  locType : Option LocType
  description : Option String
  userIdentity : Option UserIdentity
  template : Option String
  fees : LocFees
  collectionParams : Option CollectionParams

structure CreateLocRequestView extends BaseLocView where
  requesterAddress : Option AccountId
  requesterIdentityLoc : Option UUID
  sponsorshipId : Option UUID
  draft : Option Bool

structure AddMetadataView where
  name : Option String
  value : Option String

structure AddLinkView where
  target : UUID
  nature : Option String

structure OpenLocView extends BaseLocView where
  metadata : List AddMetadataView
  links : List AddLinkView

/-- `Sponsorship`, as the chain answers. -/
structure Sponsorship where
  locId : Option UUID
  legalOfficer : AccountId
  sponsoredAccount : AccountId
  deriving DecidableEq

/-! ### Checks of the requests -/

/-- `requireLegalOfficerAddressOnNode`; `onNode` is the answer of the authority service. -/
def requireLegalOfficerAddressOnNode (address : Option String) (onNode : Bool) :
    Except ApiErr AccountId :=
  match nonEmpty address with
  | none => throw (.thrown (.badRequest "Missing Legal Officer address"))
  | some address =>
    if onNode then return .polkadot address
    else throw (.thrown (.badRequest
      ("Address " ++ address ++ " is not the one of a Legal Officer on this node.")))

/-- `SponsorshipService.validateSponsorship`, and what the controller throws instead. -/
def validateSponsorship (rows : List RegistryRow) (sponsorshipId : UUID) (sponsorship : Option Sponsorship)
    (legalOfficer requester : AccountId) : Except ApiErr Unit :=
  match sponsorship with
  | none => throw (.thrown (.badRequest "Error: Sponsorship not found"))
  | some sponsorship =>
    if sponsorship.locId.isSome then throw (.thrown (.badRequest
      "Error: This sponsorship is already used in an open/closed/voided LOC"))
    else if existsLocBy rows { expectedSponsorshipId := some sponsorshipId } then
      throw (.thrown (.badRequest
        "Error: This sponsorship is already used in a draft/requested LOC"))
    else if legalOfficer ≠ sponsorship.legalOfficer ∨ requester ≠ sponsorship.sponsoredAccount then
      throw (.thrown (.badRequest "Error: This sponsorship is not applicable to your request"))
    else return ()

def toLocFees (fees : LocFees) (locType : LocType) : Except ApiErr LocFees :=
  if locType ≠ .collection then return fees
  else if fees.valueFee.isNone then
    throw (.thrown (.badRequest "Value fee must be set for collection LOCs"))
  else if fees.collectionItemFee.isNone then
    throw (.thrown (.badRequest "Collection item fee must be set for collection LOCs"))
  else if fees.tokensRecordFee.isNone then
    throw (.thrown (.badRequest "Tokens record fee must be set for collection LOCs"))
  else return fees

/-- The description that `createLocRequest` and `createOpenLoc` make of their view. -/
def BaseLocView.describe (view : BaseLocView) (locType : LocType) (requester : Option AccountId)
    (requesterIdentityLoc : Option UUID) (owner : AccountId) (now : Moment) :
    Except ApiErr LocRequestDescription := do
  let _ ← thrown (requireDefined view.description)
  let fees ← toLocFees view.fees locType
  return {
    requesterAddress := requester
    requesterIdentityLoc
    ownerAddress := owner
    locType
    createdOn := now
    userIdentity := if locType = .identity then view.userIdentity else none
    collectionParams := view.collectionParams
    fees
    template := view.template }

/-- The account that a LOC is created for. -/
def CreateLocRequestView.requester (view : CreateLocRequestView) (user : AuthenticatedUser)
    (owner : AccountId) : Option AccountId :=
  if user.validAccountId ≠ owner then some user.validAccountId else view.requesterAddress

/-! ### The requests in flight -/

/-- The method of the factory, with its own parameters. -/
inductive LocCreator
  | newLOLocRequest
  | newLocRequest (draft : Bool)
  | newLoc (metadata : List LocRequestFactory.MetadataItemParams)
      (links : List LocRequestFactory.LinkParams)
  | newSofRequest (target : UUID) (submitter : AccountId) (nature : String)

def LocCreator.create [Hashing] (creator : LocCreator) (id : UUID)
    (description : LocRequestDescription) (now : Moment) : Except Err LocRequest :=
  match creator with
  | .newLOLocRequest => LocRequestFactory.newLOLocRequest id description
  | .newLocRequest draft => LocRequestFactory.newLocRequest id description draft
  | .newLoc metadata links => LocRequestFactory.newLoc id description metadata links now
  | .newSofRequest target submitter nature =>
    LocRequestFactory.newSofRequest id description target submitter nature now

/-- A request between two accesses to the database. -/
inductive Pending
  /-- `createLocRequest` has checked the owner and the sponsorship. -/
  | validated (user : AuthenticatedUser) (owner : AccountId) (locType : LocType)
      (view : CreateLocRequestView)
  /-- It has found no identity LOC of the requester. -/
  | unidentified (user : AuthenticatedUser) (owner : AccountId) (locType : LocType)
      (view : CreateLocRequestView)
  /-- `createOpenLoc` has found the identity LOC. -/
  | opening (user : AuthenticatedUser) (description : LocRequestDescription) (view : OpenLocView)
  /-- `createSofRequest` has checked the contributor. -/
  | contributing (contributor owner : AccountId) (target : UUID) (nature : String)
  /-- The description is complete. -/
  | creating (creator : LocCreator) (description : LocRequestDescription)
      (sponsorshipId : Option UUID)
  /-- The instance is to be saved: a new one, or one that an update has mutated. -/
  | saving (row : RegistryRow)
  /-- Its row was read again. -/
  | writing (row : RegistryRow) (reread : Option RegistryRow)
  /-- A deletion has checked the instance that it had loaded. -/
  | deleting (id : UUID)

/-- The table and the requests in flight. -/
structure LocRegistry where
  rows : List RegistryRow
  inFlight : ℕ → Option Pending

/-- What can happen: a request comes in, or goes on. -/
inductive RegistryEvent
  | createLocRequest (id : ℕ) (user : AuthenticatedUser) (view : CreateLocRequestView) (onNode : Bool)
      (sponsorship : Option Sponsorship)
  | findIdentity (id : ℕ) (now : Moment)
  | findLogionIdentity (id : ℕ) (now : Moment)
  | createOpenLoc (id : ℕ) (user : AuthenticatedUser) (view : OpenLocView) (onNode : Bool) (now : Moment)
  | findLinks (id : ℕ)
  | createSofRequest (id : ℕ) (user : AuthenticatedUser) (loaded : LocRequest) (itemId : Option Hash)
      (itemFound : Bool)
  | findContributorIdentity (id : ℕ) (now : Moment)
  | addNewRequest (id : ℕ) (uuid : UUID) (now : Moment)
  | update (id : ℕ) (loaded : LocRequest) (ops : List LocOp)
  | save (id : ℕ)
  | write (id : ℕ)
  | cancel (id : ℕ) (user : AuthenticatedUser) (loaded : LocRequest) (endpoint : LocEndpoint)
  | delete (id : ℕ)
  | fail (id : ℕ)

namespace LocRegistry

/-- The registry of a new node. -/
def start : LocRegistry where
  rows := []
  inFlight := fun _ => none

/-- A new request is in flight. -/
def begin (s : LocRegistry) (id : ℕ) (request : Pending) : LocRegistry :=
  { s with inFlight := Function.update s.inFlight id (some request) }

/-- A request goes on, or is over because it throws. -/
def proceed (s : LocRegistry) (id : ℕ) (request : Except ApiErr Pending) : LocRegistry :=
  { s with inFlight := Function.update s.inFlight id request.toOption }

/-- A request is resumed, if it is at this point. -/
def resume (s : LocRegistry) (id : ℕ) (next : Pending → Option LocRegistry) : LocRegistry :=
  ((s.inFlight id).bind next).getD s

/-- A request ends with a write, and changes nothing when it throws. -/
def finish (s : LocRegistry) (id : ℕ) (rows : Except ApiErr (List RegistryRow)) : LocRegistry where
  rows := rows.toOption.getD s.rows
  inFlight := Function.update s.inFlight id none

/-! ### `createLocRequest` -/

/-- The first checks of `createLocRequest`. -/
def createLocRequest (s : LocRegistry) (user : AuthenticatedUser) (view : CreateLocRequestView)
    (onNode : Bool) (sponsorship : Option Sponsorship) : Except ApiErr Pending := do
  let owner ← requireLegalOfficerAddressOnNode view.ownerAddress onNode
  let locType ← thrown (requireDefined view.locType)
  let _ ← (
    match view.sponsorshipId with
    | none => pure ()
    | some sponsorshipId =>
      validateSponsorship s.rows sponsorshipId sponsorship owner user.validAccountId)
  return .validated user owner locType view

/-- The description, and the method of the factory that will be called. -/
def described (user : AuthenticatedUser) (owner : AccountId) (locType : LocType)
    (view : CreateLocRequestView) (identity : Option RegistryRow) (now : Moment) :
    Except ApiErr Pending := do
  let description ← view.describe locType (view.requester user owner)
    ((identity.map fun r => r.root.id).or (nonEmpty view.requesterIdentityLoc)) owner now
  let creator := if user.validAccountId = owner then LocCreator.newLOLocRequest
    else .newLocRequest (view.draft = some true)
  return .creating creator description view.sponsorshipId

/-- The identity LOC of the requester is looked up. -/
def findIdentity (s : LocRegistry) (user : AuthenticatedUser) (owner : AccountId) (locType : LocType)
    (view : CreateLocRequestView) (now : Moment) : Except ApiErr Pending :=
  let requester := view.requester user owner
  let identity := getNonVoidIdentityLoc s.rows requester owner
  if locType = .identity then
    if requester.isSome ∧ identity.isSome then throw (.thrown (.badRequest
      "Only one Polkadot Identity LOC is allowed per Legal Officer."))
    else described user owner locType view identity now
  else if requester.any fun requester => requester.type ≠ .polkadot then throw (.thrown (.badRequest
    "Only Polkadot address can request a Transaction/Collection LOC"))
  else if identity.isSome then described user owner locType view identity now
  else return .unidentified user owner locType view

def invalidIdentity : ApiErr :=
  .thrown (.badRequest "Unable to find a valid (closed) identity LOC.")

/-- The identity LOC that the request refers to is looked up. -/
def findLogionIdentity (s : LocRegistry) (user : AuthenticatedUser) (owner : AccountId)
    (locType : LocType) (view : CreateLocRequestView) (now : Moment) : Except ApiErr Pending :=
  if !existsValidLogionIdentityLoc s.rows view.requesterIdentityLoc then throw invalidIdentity
  else described user owner locType view none now

/-! ### `createOpenLoc` -/

def createOpenLoc (s : LocRegistry) (user : AuthenticatedUser) (view : OpenLocView) (onNode : Bool)
    (now : Moment) : Except ApiErr Pending := do
  let owner ← requireLegalOfficerAddressOnNode view.ownerAddress onNode
  let locType ← thrown (requireDefined view.locType)
  let identity := getValidPolkadotIdentityLoc s.rows (some user.validAccountId) owner
  if identity.isSome ∧ locType = .identity then throw (.thrown (.badRequest
    "Only one Polkadot Identity LOC is allowed per Legal Officer."))
  if identity.isNone ∧ locType ≠ .identity then throw invalidIdentity
  let description ← view.describe locType (some user.validAccountId)
    (identity.map fun r => r.root.id) owner now
  return .opening user description view

variable [RestApi]

/-- `toMetadata`. -/
def toMetadata (submitter : AccountId) (view : AddMetadataView) :
    Except ApiErr LocRequestFactory.MetadataItemParams := do
  let name ← thrown (RestApi.requireLength view.name "name" 3 255)
  let value ← thrown (RestApi.requireLength view.value "value" 1 4096)
  return { submitter, name, value }

omit [RestApi] in
/-- `toLink`. -/
def toLink (s : LocRegistry) (submitter : AccountId) (view : AddLinkView) :
    Except ApiErr LocRequestFactory.LinkParams := do
  let target ← thrown (requireDefined (findLoc s.rows view.target))
  return { submitter, target := target.root.id, nature := view.nature.getD "" }

/-- The metadata and the links are checked. -/
def findLinks (s : LocRegistry) (user : AuthenticatedUser) (description : LocRequestDescription)
    (view : OpenLocView) : Except ApiErr Pending := do
  let metadata ← view.metadata.mapM (toMetadata user.validAccountId)
  let links ← view.links.mapM (s.toLink user.validAccountId)
  return .creating (.newLoc metadata links) description none

/-! ### `createSofRequest` -/

omit [RestApi] in
/-- The LOC has been loaded. -/
def createSofRequest (user : AuthenticatedUser) (loaded : LocRequest) (itemId : Option Hash)
    (itemFound : Bool) : Except ApiErr Pending := do
  let contributor ← Contribution.locContribution.ensureContributor loaded user
  let nature ← (
    if loaded.locType = .collection then
      match itemId with
      | none => throw (.thrown (.badRequest "Missing itemId"))
      | some itemId =>
        if itemFound then return "Original LOC - Collection Item: " ++ itemId
        else throw (.thrown (.badRequest "Item not found"))
    else return "Original LOC")
  return .contributing contributor loaded.getOwner loaded.id nature

omit [RestApi] in
/-- The identity LOC of the contributor is looked up. -/
def findContributorIdentity (s : LocRegistry) (contributor owner : AccountId) (target : UUID)
    (nature : String) (now : Moment) : Except ApiErr Pending :=
  let identity := getValidPolkadotIdentityLoc s.rows (some contributor) owner
  return .creating (.newSofRequest target contributor nature) {
    requesterAddress := some contributor
    requesterIdentityLoc := identity.map fun r => r.root.id
    ownerAddress := owner
    locType := .transaction
    createdOn := now
    userIdentity := none
    collectionParams := none
    fees := ⟨none, none, none⟩ } none

/-! ### Creation, update and deletion -/

variable [Hashing]

omit [RestApi] in
/-- The factory is called. -/
def addNewRequest (creator : LocCreator) (description : LocRequestDescription)
    (sponsorshipId : Option UUID) (uuid : UUID) (now : Moment) : Except ApiErr Pending := do
  let l ← thrown (creator.create uuid description now)
  return .saving (.created l description sponsorshipId)

omit [RestApi] in
/-- An update mutates the instance that it has loaded from a row; `ops` are the operations of the
aggregate that it makes. -/
def update (r : RegistryRow) (loaded : LocRequest) (ops : List LocOp) : Except ApiErr Pending := do
  let l ← thrown (ops.foldlM LocRequest.step loaded)
  return .saving { r with root := l.rootRow }

/-- `cancelLocRequest` and `cancelCreateOpenLoc`, up to the deletion. -/
def cancel (user : AuthenticatedUser) (loaded : LocRequest) (endpoint : LocEndpoint) :
    Except ApiErr Pending := do
  let _ ← endpoint.perform user loaded
  return .deleting loaded.id

omit [RestApi] [Hashing] in
/-- The row that an instance has been loaded from. -/
def rowOf (s : LocRegistry) (loaded : LocRequest) : Option RegistryRow :=
  s.rows.find? fun r => r.root = loaded.rootRow

/-- One event.  A request that throws at its first checks was never in flight; an event for a request
that is at another point, or with something else than an instance of a stored LOC, changes nothing. -/
def step (s : LocRegistry) : RegistryEvent → Except ApiErr LocRegistry
  | .createLocRequest id user view onNode sponsorship => do
    return s.begin id (← s.createLocRequest user view onNode sponsorship)
  | .findIdentity id now => return s.resume id fun
    | .validated user owner locType view =>
      some (s.proceed id (s.findIdentity user owner locType view now))
    | _ => none
  | .findLogionIdentity id now => return s.resume id fun
    | .unidentified user owner locType view =>
      some (s.proceed id (s.findLogionIdentity user owner locType view now))
    | _ => none
  | .createOpenLoc id user view onNode now => do
    return s.begin id (← s.createOpenLoc user view onNode now)
  | .findLinks id => return s.resume id fun
    | .opening user description view => some (s.proceed id (s.findLinks user description view))
    | _ => none
  | .createSofRequest id user loaded itemId itemFound => do
    if (s.rowOf loaded).isSome then return s.begin id (← createSofRequest user loaded itemId itemFound)
    else return s
  | .findContributorIdentity id now => return s.resume id fun
    | .contributing contributor owner target nature =>
      some (s.proceed id (s.findContributorIdentity contributor owner target nature now))
    | _ => none
  | .addNewRequest id uuid now => return s.resume id fun
    | .creating creator description sponsorshipId =>
      some (s.proceed id (addNewRequest creator description sponsorshipId uuid now))
    | _ => none
  | .update id loaded ops => match s.rowOf loaded with
    | some r => return s.begin id (← update r loaded ops)
    | none => return s
  | .save id => return s.resume id fun
    | .saving row => some (s.proceed id (.ok (.writing row (findLoc s.rows row.root.id))))
    | _ => none
  | .write id => return s.resume id fun
    | .writing row reread => some (s.finish id (execute s.rows (saveStatement row reread)))
    | _ => none
  | .cancel id user loaded endpoint => do
    if (s.rowOf loaded).isSome ∧ endpoint.deletes then
      return s.begin id (← cancel user loaded endpoint)
    else return s
  | .delete id => return s.resume id fun
    | .deleting locId => some (s.finish id (deleteRequest s.rows locId))
    | _ => none
  | .fail id => return { s with inFlight := Function.update s.inFlight id none }

end LocRegistry

namespace RegistryEvent

/-- The identifier that `uuid()` returns in an event. -/
def uuid : RegistryEvent → Option UUID
  | .addNewRequest _ uuid _ => some uuid
  | _ => none

/-- The request that an event belongs to. -/
def request : RegistryEvent → ℕ
  | .createLocRequest id _ _ _ _ | .findIdentity id _ | .findLogionIdentity id _
  | .createOpenLoc id _ _ _ _ | .findLinks id | .createSofRequest id _ _ _ _
  | .findContributorIdentity id _ | .addNewRequest id _ _ | .update id _ _ | .save id | .write id
  | .cancel id _ _ _ | .delete id | .fail id => id

/-- A request comes in. -/
def isFirst : RegistryEvent → Bool
  | .createLocRequest .. | .createOpenLoc .. | .createSofRequest .. | .update .. | .cancel .. => true
  | _ => false

/-- A request looks for the identity LOC of its requester. -/
def looksUpIdentity : RegistryEvent → Bool
  | .findIdentity .. | .findLogionIdentity .. | .createOpenLoc .. | .findContributorIdentity .. => true
  | _ => false

end RegistryEvent

/-! ### The identity that a view shows -/

/-- `UserPrivateData` of `locrequestadapter.ts`. -/
structure LocUserPrivateData where
  identityLocId : Option UUID
  userIdentity : Option UserIdentity
  deriving DecidableEq

/-- `findUserPrivateData` and `getUserPrivateData`. -/
def findUserPrivateData (rows : List RegistryRow) (r : RegistryRow) : Except Err LocUserPrivateData :=
  if r.root.locType = .identity then return ⟨none, r.userIdentity⟩
  else
    match r.requesterIdentityLocId.bind (findLoc rows) with
    | none => throw (.error ("Unable to find ID LOC " ++ r.requesterIdentityLocId.getD "undefined"))
    | some identityLoc => return ⟨some identityLoc.root.id, identityLoc.userIdentity⟩

end Logion
