import Logion.Loc.Consent
import Logion.Loc.Contents
import Logion.Loc.Idenfy
import Logion.Sync.Synchronizers

/-!
# LocApi — the REST interface of a LOC (`locrequest.controller.ts`, `locauthorization.service.ts`)

One LOC, the requests that users send about it, the callbacks of iDenfy and the extrinsics that the
synchroniser reads.  An upload and the start of an iDenfy session check the caller on a first load of
the LOC and update it later; every other request is one update.

* `AuthenticatedUser`, `Contribution`: who calls, and who may contribute.
* `LocEndpoint`, `LocEndpoint.perform`: the endpoints, with their checks.
* `LocApi`, `LocApi.step`: the LOC with the requests in flight, one event.
* `LocEndpoint.ops`, `perform_ok`: the operations of the aggregate that an endpoint makes.

Views, notifications and the creation of LOCs are left out.
-/

namespace Logion

open Fallible Keyed

/-! ### Users -/

/-- What a request throws: an error of the REST layer, or one of the model. -/
inductive ApiErr
  | unauthorized (message : String)
  | forbidden (message : String)
  | thrown (e : Err)
  deriving DecidableEq, Repr

/-- An error of the model leaves the endpoint as it is. -/
def thrown {α : Type} (x : Except Err α) : Except ApiErr α := x.mapError ApiErr.thrown

/-- `toBadRequest`: a `catch` that throws the message of the error as a bad request. -/
def toBadRequest {α : Type} (x : Except Err α) : Except ApiErr α :=
  x.mapError fun
    | .error message | .badRequest message => .thrown (.badRequest message)

/-- The authenticated user of a request, with what the authority service and the chain answer about
the account while it is served: whether it is a legal officer on this node, a selected issuer of the
LOC, an invited contributor. -/
structure AuthenticatedUser where
  validAccountId : AccountId
  isLegalOfficerOnNode : Bool := false
  selectedIssuer : Bool := false
  invitedContributor : Bool := false
  deriving DecidableEq, Repr

namespace AuthenticatedUser

/-- `authenticatedUser.require(predicate, message)`. -/
def require (condition : Bool) (message : String) : Except ApiErr Unit :=
  if condition then return () else throw (.unauthorized message)

/-- `isSelectedIssuer(request, submitter)`. -/
def isSelectedIssuer (u : AuthenticatedUser) : Bool :=
  u.validAccountId.type = .polkadot && u.selectedIssuer

/-- `isInvitedContributor(request, submitter)`. -/
def isInvitedContributor (u : AuthenticatedUser) : Bool :=
  u.validAccountId.type = .polkadot && u.invitedContributor

end AuthenticatedUser

/-- What is contributed to: whether invited contributors and the owner are allowed to. -/
structure Contribution where
  allowInvitedContributor : Bool
  allowOwner : Bool
  deriving DecidableEq, Repr

namespace Contribution

def itemContribution : Contribution := ⟨false, false⟩

def locContribution : Contribution := ⟨false, true⟩

def recordContribution : Contribution := ⟨true, true⟩

def ownerCanContributeItems (c : Contribution) (l : LocRequest) : Bool :=
  if c.allowOwner then true
  else l.getRequester.all fun requester => requester.type ≠ .polkadot

def isContributor (c : Contribution) (l : LocRequest) (u : AuthenticatedUser) : Bool :=
  (l.isOwner u.validAccountId && c.ownerCanContributeItems l) ||
    l.isRequester u.validAccountId || u.isSelectedIssuer

def ensureContributor (c : Contribution) (l : LocRequest) (u : AuthenticatedUser) :
    Except ApiErr AccountId :=
  if c.isContributor l u then return u.validAccountId
  else if c.allowInvitedContributor && u.isInvitedContributor then return u.validAccountId
  else throw (.forbidden "Authenticated user is not allowed to contribute to this LOC")

end Contribution

/-! ### Endpoints -/

/-- `requireLength` of the REST layer is a parameter of the model. -/
class RestApi where
  requireLength : Option String → String → ℕ → ℕ → Except Err String

/-- `ReviewItemView`. -/
structure ReviewItemView where
  decision : Option String
  rejectReason : Option String
  deriving DecidableEq, Repr

/-- The requests that are one update of the LOC, the account of the caller apart; those on an item
stand for the three handlers of files, metadata items and links.  `now` is the time of the call. -/
inductive LocEndpoint
  | rejectLocRequest (rejectReason : String) (now : Moment)
  | acceptLocRequest (autoPublish : Bool) (now : Moment)
  | submitLocRequest
  | cancelLocRequest
  | reworkLocRequest
  | cancelCreateOpenLoc
  | openLoc (autoPublish : Bool)
  | cancelOpenLoc (autoPublish : Bool)
  | closeLoc (autoAck : Bool)
  | cancelCloseLoc (autoAck : Bool)
  | voidLoc (reason : String)
  | cancelVoidLoc
  | addLink (target : Option UUID) (nature : Option String) (now : Moment)
  | addMetadata (name value : Option String) (now : Moment)
  | deleteItem (k : ItemKind) (key : String)
  | requestItemReview (k : ItemKind) (key : String)
  | reviewItem (k : ItemKind) (key : String) (view : ReviewItemView) (now : Moment)
  | prePublishOrAcknowledgeItem (k : ItemKind) (key : String)
  | cancelPrePublishOrAcknowledgeItem (k : ItemKind) (key : String)
  | preAcknowledgeItem (k : ItemKind) (key : String)
  | cancelPreAcknowledgeItem (k : ItemKind) (key : String)
  | updateCollectionFile (hash : Hash) (restrictedDelivery : Bool)
  | addSecret (name value : String)
  | removeSecret (secretName : String)

namespace LocEndpoint

/-- `authenticatedUserIsLegalOfficerOnNode` for some endpoints, `authenticatedUser` for the others. -/
def authenticates (u : AuthenticatedUser) : LocEndpoint → Bool
  | rejectLocRequest .. | acceptLocRequest .. | closeLoc .. | cancelCloseLoc .. | voidLoc ..
  | cancelVoidLoc => u.isLegalOfficerOnNode
  | _ => true

/-- The message when a contributor may not cancel a publication. -/
def cannotCancelPublication : ItemKind → String
  | .file => "Contributor cannot cancel"
  | .metadata => "Contributor cannot confirm"
  | .link => "Contributor cannot cancel"

/-- The check made before an item is published or acknowledged, and the operation. -/
def ifAllowed (check : Except Err Bool) (message : String) (x : Except Err LocRequest) :
    Except ApiErr LocRequest := do
  if ← thrown check then thrown x else throw (.unauthorized message)

/-- `submissionType` of `addLink` and `addMetadata`. -/
def submissionType (l : LocRequest) (contributor : AccountId) : SubmissionType :=
  if contributor = l.getOwner then .manualByOwner else .manualByUser

/-- The endpoint deletes the LOC that it has loaded and checked. -/
def deletes : LocEndpoint → Bool
  | cancelLocRequest | cancelCreateOpenLoc => true
  | _ => false

variable [Hashing] [RestApi]

/-- What an endpoint checks and does on the loaded LOC. -/
def perform (u : AuthenticatedUser) (l : LocRequest) : LocEndpoint → Except ApiErr LocRequest
  | rejectLocRequest rejectReason now => do
    AuthenticatedUser.require (l.isOwner u.validAccountId) ""
    thrown (l.reject rejectReason now)
  | acceptLocRequest autoPublish now => do
    AuthenticatedUser.require (l.isOwner u.validAccountId) ""
    let l ← thrown (l.accept now)
    if !l.canOpen l.getRequester then thrown (l.preOpen autoPublish) else return l
  | submitLocRequest => do
    AuthenticatedUser.require (l.isRequester u.validAccountId) ""
    thrown l.submit
  | cancelLocRequest => do
    AuthenticatedUser.require (l.isRequester u.validAccountId) ""
    thrown l.deleteDraftRejectedOrAccepted
    return l
  | reworkLocRequest => do
    AuthenticatedUser.require (l.isRequester u.validAccountId) ""
    thrown l.rework
  | cancelCreateOpenLoc => do
    if !l.isRequester u.validAccountId then
      throw (.unauthorized "Only requester can cancel request")
    thrown l.deleteOpen
    return l
  | openLoc autoPublish => do
    AuthenticatedUser.require (l.canOpen u.validAccountId) "LOC must be opened by Polkadot requester"
    thrown (l.preOpen autoPublish)
  | cancelOpenLoc autoPublish => do
    AuthenticatedUser.require (l.canOpen u.validAccountId) "LOC must be opened by Polkadot requester"
    thrown (l.cancelPreOpen autoPublish)
  | closeLoc autoAck => do
    AuthenticatedUser.require (l.isOwner u.validAccountId) ""
    toBadRequest (l.preClose autoAck)
  | cancelCloseLoc autoAck => do
    AuthenticatedUser.require (l.isOwner u.validAccountId) ""
    thrown (l.cancelPreClose autoAck)
  | voidLoc reason => do
    AuthenticatedUser.require (l.isOwner u.validAccountId) ""
    thrown (l.preVoid reason)
  | cancelVoidLoc => do
    AuthenticatedUser.require (l.isOwner u.validAccountId) ""
    thrown l.cancelPreVoid
  | addLink target nature now => do
    let contributor ← Contribution.itemContribution.ensureContributor l u
    let target ← thrown (requireDefined target)
    thrown (l.addLink target contributor (nature.getD "") (submissionType l contributor) now)
  | addMetadata name value now => do
    let contributor ← Contribution.itemContribution.ensureContributor l u
    let name ← thrown (RestApi.requireLength name "name" 3 255)
    let value ← thrown (RestApi.requireLength value "value" 1 4096)
    thrown (l.addMetadataItem contributor name value (submissionType l contributor) now)
  | deleteItem k key => do
    let contributor ← Contribution.itemContribution.ensureContributor l u
    thrown (l.removeItem k contributor key)
  | requestItemReview k key => do
    if l.status ≠ .opened then
      throw (.thrown (.badRequest "LOC must be OPEN for requesting item review"))
    let _ ← Contribution.itemContribution.ensureContributor l u
    thrown (l.requestItemReview k key)
  | reviewItem k key view now => do
    AuthenticatedUser.require (l.isOwner u.validAccountId) ""
    if view.decision = some "ACCEPT" then thrown (l.acceptItem k key now)
    else match view.rejectReason with
      | none => throw (.thrown (.badRequest "Reason is required"))
      | some reason => thrown (l.rejectItem k key reason now)
  | prePublishOrAcknowledgeItem k key => do
    let contributor ← Contribution.locContribution.ensureContributor l u
    ifAllowed (l.canPrePublishOrAcknowledgeItem k key contributor) "Contributor cannot confirm"
      (l.prePublishOrAcknowledgeItem k key contributor)
  | cancelPrePublishOrAcknowledgeItem k key => do
    let contributor ← Contribution.locContribution.ensureContributor l u
    ifAllowed (l.canPrePublishOrAcknowledgeItem k key contributor) (cannotCancelPublication k)
      (l.cancelPrePublishOrAcknowledgeItem k key contributor)
  | preAcknowledgeItem k key => do
    let contributor ← Contribution.locContribution.ensureContributor l u
    ifAllowed (l.canPreAcknowledgeItem k key contributor)
      "Only owner or Verified Issuer are allowed to acknowledge"
      (l.preAcknowledgeItem k key contributor none)
  | cancelPreAcknowledgeItem k key => do
    let contributor ← Contribution.locContribution.ensureContributor l u
    ifAllowed (l.canPreAcknowledgeItem k key contributor)
      "Only owner or Verified Issuer are allowed to acknowledge"
      (l.cancelPreAcknowledgeItem k key contributor)
  | updateCollectionFile hash restrictedDelivery => do
    AuthenticatedUser.require (l.isOwner u.validAccountId) ""
    thrown (l.setFileRestrictedDelivery hash restrictedDelivery)
  | addSecret name value => do
    if !l.isRequester u.validAccountId then
      throw (.unauthorized "Only requester can add recoverable secrets")
    toBadRequest (l.addSecret name value)
  | removeSecret secretName => do
    if !l.isRequester u.validAccountId then
      throw (.unauthorized "Only requester can add recoverable secrets")
    toBadRequest (l.removeSecret secretName)

/-- The operations of the aggregate that an endpoint makes when it returns. -/
def ops (u : AuthenticatedUser) (l : LocRequest) : LocEndpoint → List LocOp
  | rejectLocRequest rejectReason now => [.reject rejectReason now]
  | acceptLocRequest autoPublish now =>
    if l.getRequester.any fun requester => requester.type = .polkadot then [.accept now]
    else [.accept now, .preOpen autoPublish]
  | submitLocRequest => [.submit]
  | cancelLocRequest => [.deleteDraftRejectedOrAccepted]
  | reworkLocRequest => [.rework]
  | cancelCreateOpenLoc => [.deleteOpen]
  | openLoc autoPublish => [.preOpen autoPublish]
  | cancelOpenLoc autoPublish => [.cancelPreOpen autoPublish]
  | closeLoc autoAck => [.preClose autoAck]
  | cancelCloseLoc autoAck => [.cancelPreClose autoAck]
  | voidLoc reason => [.preVoid reason]
  | cancelVoidLoc => [.cancelPreVoid]
  | addLink target nature now => target.toList.map fun target =>
    .addLink target u.validAccountId (nature.getD "") (submissionType l u.validAccountId) now
  | addMetadata name value now =>
    match RestApi.requireLength name "name" 3 255, RestApi.requireLength value "value" 1 4096 with
    | .ok name, .ok value =>
      [.addMetadataItem u.validAccountId name value (submissionType l u.validAccountId) now]
    | _, _ => []
  | deleteItem k key => [.removeItem k u.validAccountId key]
  | requestItemReview k key => [.requestItemReview k key]
  | reviewItem k key view now =>
    if view.decision = some "ACCEPT" then [.acceptItem k key now]
    else view.rejectReason.toList.map fun reason => .rejectItem k key reason now
  | prePublishOrAcknowledgeItem k key => [.prePublishOrAcknowledgeItem k key u.validAccountId]
  | cancelPrePublishOrAcknowledgeItem k key =>
    [.cancelPrePublishOrAcknowledgeItem k key u.validAccountId]
  | preAcknowledgeItem k key => [.preAcknowledgeItem k key u.validAccountId none]
  | cancelPreAcknowledgeItem k key => [.cancelPreAcknowledgeItem k key u.validAccountId]
  | updateCollectionFile hash restrictedDelivery =>
    [.setFileRestrictedDelivery hash restrictedDelivery]
  | addSecret name value => [.addSecret name value]
  | removeSecret secretName => [.removeSecret secretName]

end LocEndpoint

/-! ### Uploads, iDenfy sessions and extrinsics -/

/-- `AddFileView`. -/
structure AddFileView where
  hash : Option Hash
  nature : Option String
  restrictedDelivery : Option Bool
  direct : Option String
  deriving DecidableEq, Repr

/-- `StoredFile`: the uploaded file, once it is imported. -/
structure UploadedFile where
  name : String
  size : ℕ
  contentType : Option String
  cid : Option String
  deriving DecidableEq, Repr

namespace AddFileView

/-- The checks of `addFile` before the file is imported; the hash of the file when they pass. -/
def check (view : AddFileView) (u : AuthenticatedUser) (l : LocRequest) : Except ApiErr Hash := do
  let _ ← Contribution.itemContribution.ensureContributor l u
  match view.hash with
  | none => throw (.thrown (.badRequest "No hash found for upload file"))
  | some hash =>
    if (l.item? .file hash).isSome then throw (.thrown (.error "File already present"))
    else return hash

/-- `toFile`. -/
def toFile (view : AddFileView) (file : UploadedFile) : FileData where
  name := file.name
  size := file.size
  contentType := file.contentType
  cid := file.cid
  nature := view.nature.getD ""
  restrictedDelivery := view.restrictedDelivery.getD false

def submissionType (view : AddFileView) (l : LocRequest) (contributor : AccountId) :
    SubmissionType :=
  if l.isRequester contributor && view.direct = some "true" then .directByRequester
  else if contributor = l.getOwner then .manualByOwner
  else .manualByUser

end AddFileView

namespace LocRequest

def canInitIdenfyVerification (l : LocRequest) : Except Err Unit :=
  if l.status ≠ .draft then throw (.error "LOC must be draft")
  else if l.locType ≠ .identity then throw (.error "Not an identity LOC")
  else if l.iDenfyVerification.any (fun v => v.status = some .pending) then
    throw (.error "A verification is already in progress")
  else if l.iDenfyVerification.any (fun v => v.status = some .approved) then
    throw (.error "A previous verification was already approved")
  else return ()

/-- The checks of `createVerificationSession` before iDenfy is asked for a token. -/
def checkVerificationSession (u : AuthenticatedUser) (l : LocRequest) : Except ApiErr Unit := do
  let requester ← thrown (requireDefined l.getRequester)
  AuthenticatedUser.require (requester = u.validAccountId)
    "Only LOC requester can start an identity verification session"
  thrown l.canInitIdenfyVerification

end LocRequest

/-- The LOC that an extrinsic updates, and how. -/
def syncMutator (e : JsonExtrinsic) (timestamp : Moment) :
    LocCall → Option (UUID × (LocRequest → Except Err LocRequest))
  | .create _ locId items => some (locId, fun loc => do
    let _ ← inclusionFee e
    loc.openLoc timestamp (items.getD emptyItems))
  | .addMetadata locId nameHash => some (locId, updateMetadataItem e nameHash timestamp)
  | .addFile locId file => some (locId, updateFile e file timestamp)
  | .addLink locId target => some (locId, updateLink e target timestamp)
  | .close locId | .closeAndSeal locId => some (locId, fun loc => .ok (loc.close timestamp))
  | .makeVoid locId | .makeVoidAndReplace locId =>
    some (locId, fun loc => .ok (loc.voidLoc timestamp))
  | .acknowledgeFile locId hash => some (locId, acknowledge .file hash)
  | .acknowledgeMetadata locId nameHash => some (locId, acknowledge .metadata nameHash)
  | .acknowledgeLink locId target => some (locId, acknowledge .link target)
  | _ => none
where
  acknowledge (k : ItemKind) (key : String) (loc : LocRequest) : Except Err LocRequest := do
    let signer ← requireDefined e.signer
    loc.preAcknowledgeItem k key (.polkadot signer) (some timestamp)

/-! ### The system -/

/-- A request between its checks and its update. -/
inductive InFlight
  | upload (user : AuthenticatedUser) (view : AddFileView) (hash : Hash)
  | session (user : AuthenticatedUser)
  deriving DecidableEq, Repr

/-- The rows of a LOC, none once it is deleted, and the requests in flight. -/
structure LocApi where
  loc : Option LocRequest
  inFlight : ℕ → Option InFlight

/-- What can happen.  A request that is not one update has an identifier. -/
inductive LocEvent
  | call (user : AuthenticatedUser) (endpoint : LocEndpoint)
  | addFile (id : ℕ) (user : AuthenticatedUser) (view : AddFileView)
  | fileImported (id : ℕ) (file : UploadedFile) (now : Moment)
  | createVerificationSession (id : ℕ) (user : AuthenticatedUser)
  | sessionCreated (id : ℕ) (authToken scanRef : String)
  | callback (payload : IdenfyCallback)
  | sync (e : JsonExtrinsic) (timestamp : Moment) (call : LocCall)

namespace LocApi

/-- A LOC that has just been created. -/
def start (l : LocRequest) : LocApi where
  loc := some l.stored
  inFlight := fun _ => none

/-- `LocRequestService.update`, in one transaction. -/
def update (s : LocApi) (mutator : LocRequest → Except ApiErr LocRequest) : Except ApiErr LocApi := do
  let l ← thrown (requireDefined s.loc)
  let l ← mutator l
  return { s with loc := some l.stored }

/-- The request is over, whether or not its update throws. -/
def finish (s : LocApi) (id : ℕ) (mutator : LocRequest → Except ApiErr LocRequest) : LocApi :=
  attempt update { s with inFlight := Function.update s.inFlight id none } mutator

/-- The request has passed its checks. -/
def begin (s : LocApi) (id : ℕ) (request : InFlight) : LocApi :=
  { s with inFlight := Function.update s.inFlight id (some request) }

variable [Hashing] [RestApi]

def call (s : LocApi) (user : AuthenticatedUser) (endpoint : LocEndpoint) : Except ApiErr LocApi := do
  AuthenticatedUser.require (endpoint.authenticates user) ""
  if endpoint.deletes then
    let l ← thrown (requireDefined s.loc)
    let _ ← endpoint.perform user l
    return { s with loc := none }
  else s.update fun l => endpoint.perform user l

/-- The first half of `addFile`. -/
def addFile (s : LocApi) (id : ℕ) (user : AuthenticatedUser) (view : AddFileView) :
    Except ApiErr LocApi := do
  let l ← thrown (requireDefined s.loc)
  let hash ← view.check user l
  return s.begin id (.upload user view hash)

/-- The second half of `addFile`, once the file is imported. -/
def fileImported (s : LocApi) (id : ℕ) (file : UploadedFile) (now : Moment) : LocApi :=
  match s.inFlight id with
  | some (.upload user view hash) => s.finish id fun l =>
    thrown (l.addFile hash user.validAccountId (view.toFile file)
      (view.submissionType l user.validAccountId) now)
  | _ => s

def createVerificationSession (s : LocApi) (id : ℕ) (user : AuthenticatedUser) :
    Except ApiErr LocApi := do
  let l ← thrown (requireDefined s.loc)
  LocRequest.checkVerificationSession user l
  return s.begin id (.session user)

/-- The second half of `createVerificationSession`, once iDenfy has answered. -/
def sessionCreated (s : LocApi) (id : ℕ) (authToken scanRef : String) : LocApi :=
  match s.inFlight id with
  | some (.session _) => s.finish id fun l => .ok (l.initIdenfyVerification authToken scanRef)
  | _ => s

def sync (s : LocApi) (e : JsonExtrinsic) (timestamp : Moment) (call : LocCall) :
    Except ApiErr LocApi :=
  match syncMutator e timestamp call with
  | none => .ok s
  | some (locId, mutator) =>
    if s.loc.any fun l => l.id = locId then s.update fun l => thrown (mutator l) else .ok s

/-- One event; what throws leaves the state as it is. -/
def step (s : LocApi) : LocEvent → Except ApiErr LocApi
  | .call user endpoint => s.call user endpoint
  | .addFile id user view => s.addFile id user view
  | .fileImported id file now => .ok (s.fileImported id file now)
  | .createVerificationSession id user => s.createVerificationSession id user
  | .sessionCreated id authToken scanRef => .ok (s.sessionCreated id authToken scanRef)
  | .callback payload => s.update fun l => thrown (l.callback payload)
  | .sync e timestamp call => s.sync e timestamp call

end LocApi

/-! ### The stored LOC -/

theorem Item.stored_content {k : ItemKind} (item : Item k) :
    item.stored.data.content = item.data.content := by
  cases k <;> rfl

namespace LocRequest

theorem item?_stored (l : LocRequest) (k : ItemKind) (key : String) :
    l.stored.item? k key = (l.item? k key).map Item.stored := by
  cases k <;> exact lookup_map fun _ => rfl

theorem stored_distinctKeys {l : LocRequest} (hd : l.DistinctKeys) : l.stored.DistinctKeys := by
  intro k
  have hkeys : (l.stored.items k).map Item.key = (l.items k).map Item.key := by
    cases k <;> exact List.map_map ..
  rw [hkeys]
  exact hd k

end LocRequest

/-! ### What an endpoint does -/

section

variable {α : Type} {u : AuthenticatedUser} {l l' : LocRequest}

theorem thrown_ok {x : Except Err α} {a : α} : thrown x = .ok a ↔ x = .ok a := mapError_eq_ok

theorem toBadRequest_ok {x : Except Err α} {a : α} : toBadRequest x = .ok a ↔ x = .ok a := mapError_eq_ok

theorem AuthenticatedUser.require_ok {condition : Bool} {message : String} {a : Unit} :
    require condition message = .ok a ↔ condition = true := by
  unfold require
  split_ifs with h
  · exact iff_of_true rfl h
  · exact iff_of_false (fun h' => by cases h') h

theorem require_bind_ok {condition : Bool} {message : String} {x : Except ApiErr α} {a : α} :
    (AuthenticatedUser.require condition message >>= fun _ => x) = .ok a ↔
      condition = true ∧ x = .ok a := by
  rw [bind_eq_ok]
  simp only [AuthenticatedUser.require_ok, exists_const]

/-- Items and the LOC itself are not contributed to by invited contributors. -/
theorem ensureContributor_ok {c : Contribution} (hc : c.allowInvitedContributor = false)
    {account : AccountId} :
    c.ensureContributor l u = .ok account ↔
      c.isContributor l u = true ∧ account = u.validAccountId := by
  unfold Contribution.ensureContributor
  rw [hc, Bool.false_and]
  by_cases h : c.isContributor l u = true
  · rw [if_pos h, and_iff_right h]
    exact ⟨fun h' => (Except.ok.inj h').symm, fun h' => h' ▸ rfl⟩
  · rw [if_neg h, if_neg Bool.false_ne_true]
    exact iff_of_false (fun h' => by cases h') fun h' => h h'.1

theorem contributor_bind_ok {c : Contribution} (hc : c.allowInvitedContributor = false)
    {f : AccountId → Except ApiErr α} {a : α} :
    (c.ensureContributor l u >>= f) = .ok a ↔
      c.isContributor l u = true ∧ f u.validAccountId = .ok a := by
  rw [bind_eq_ok]
  simp only [ensureContributor_ok hc, and_assoc]
  constructor
  · rintro ⟨_, hcontributor, rfl, h⟩
    exact ⟨hcontributor, h⟩
  · rintro ⟨hcontributor, h⟩
    exact ⟨_, hcontributor, rfl, h⟩

namespace LocEndpoint

theorem ifAllowed_ok {check : Except Err Bool} {message : String} {x : Except Err LocRequest}
    (h : ifAllowed check message x = .ok l') : x = .ok l' := by
  obtain ⟨allowed, -, h⟩ := bind_eq_ok.mp h
  cases allowed with
  | false => cases h
  | true => exact thrown_ok.mp h

/-- Who may call an endpoint, besides what `authenticates` asks. -/
def entitled (u : AuthenticatedUser) (l : LocRequest) : LocEndpoint → Bool
  | rejectLocRequest .. | acceptLocRequest .. | closeLoc .. | cancelCloseLoc .. | voidLoc ..
  | cancelVoidLoc | reviewItem .. | updateCollectionFile .. => l.isOwner u.validAccountId
  | submitLocRequest | cancelLocRequest | reworkLocRequest | cancelCreateOpenLoc | addSecret ..
  | removeSecret .. => l.isRequester u.validAccountId
  | openLoc .. | cancelOpenLoc .. => l.canOpen u.validAccountId
  | addLink .. | addMetadata .. | deleteItem .. | requestItemReview .. =>
    Contribution.itemContribution.isContributor l u
  | prePublishOrAcknowledgeItem .. | cancelPrePublishOrAcknowledgeItem .. | preAcknowledgeItem ..
  | cancelPreAcknowledgeItem .. => Contribution.locContribution.isContributor l u

/-- All that the endpoint checks of its caller. -/
structure MayCall (endpoint : LocEndpoint) (u : AuthenticatedUser) (l : LocRequest) : Prop where
  authenticated : endpoint.authenticates u = true
  entitled : endpoint.entitled u l = true

/-- The requester who opens the LOC himself after it is accepted. -/
theorem canOpen_requester (haccepted : l.status = .reviewAccepted) :
    l.canOpen l.getRequester = l.getRequester.any fun requester => requester.type = .polkadot := by
  unfold LocRequest.canOpen LocRequest.isRequester
  cases l.getRequester with
  | none => rfl
  | some requester => simp [haccepted]

variable [Hashing]

theorem one_op {op : LocOp} (h : l.step op = .ok l') : [op].foldlM LocRequest.step l = .ok l' := by
  rw [List.foldlM_cons, h]
  rfl

/-- `require(condition)` before the operation. -/
theorem require_op {condition : Bool} {message : String} {op : LocOp} {x : Except ApiErr LocRequest}
    (h : (AuthenticatedUser.require condition message >>= fun _ => x) = .ok l')
    (hop : x = .ok l' → l.step op = .ok l') :
    condition = true ∧ [op].foldlM LocRequest.step l = .ok l' := by
  obtain ⟨hcondition, h⟩ := require_bind_ok.mp h
  exact ⟨hcondition, one_op (hop h)⟩

/-- `if(!condition) { throw }` before the operation. -/
theorem unless_op {condition : Bool} {message : String} {op : LocOp}
    (h : (if (!condition) = true then throw (.unauthorized message)
      else toBadRequest (l.step op)) = .ok l') :
    condition = true ∧ [op].foldlM LocRequest.step l = .ok l' := by
  obtain ⟨hcondition, h⟩ := refused_eq_ok.mp h
  exact ⟨by simpa using hcondition, one_op (toBadRequest_ok.mp h)⟩

/-- A deletion guard that has accepted. -/
theorem deletion_op {guard : Except Err Unit} {op : LocOp}
    (hop : l.step op = guard >>= fun _ => .ok l)
    (h : (thrown guard >>= fun _ => .ok l) = Except.ok l') :
    [op].foldlM LocRequest.step l = .ok l' := by
  obtain ⟨_, hguard, h⟩ := bind_eq_ok.mp h
  refine one_op ?_
  rw [hop, thrown_ok.mp hguard]
  exact congrArg Except.ok (Except.ok.inj h)

variable [RestApi]

/-- **What an endpoint does.**  An endpoint that returns was called by someone entitled, and has made
its operations. -/
theorem perform_ok {endpoint : LocEndpoint} (h : endpoint.perform u l = .ok l') :
    endpoint.entitled u l = true ∧ (endpoint.ops u l).foldlM LocRequest.step l = .ok l' := by
  cases endpoint with
  | acceptLocRequest autoPublish now =>
    obtain ⟨howner, h⟩ := require_bind_ok.mp h
    obtain ⟨l₁, haccept, h⟩ := bind_eq_ok.mp h
    have haccept : l.step (.accept now) = .ok l₁ := thrown_ok.mp haccept
    have haccepted : l₁.status = .reviewAccepted := (LocRequest.step_status haccept).2
    have hrequester : l₁.getRequester = l.getRequester := (LocRequest.step_parties haccept).2.2
    rw [canOpen_requester haccepted, hrequester] at h
    refine ⟨howner, ?_⟩
    simp only [ops]
    cases hcan : l.getRequester.any fun requester => requester.type = .polkadot with
    | true =>
      rw [hcan] at h
      cases h
      exact one_op haccept
    | false =>
      rw [hcan] at h
      have hopen : l₁.step (.preOpen autoPublish) = .ok l' := thrown_ok.mp h
      show (l.step (.accept now) >>= fun l => [LocOp.preOpen autoPublish].foldlM LocRequest.step l) = _
      rw [haccept]
      exact one_op hopen
  | cancelLocRequest =>
    obtain ⟨hrequester, h⟩ := require_bind_ok.mp h
    exact ⟨hrequester, deletion_op rfl h⟩
  | cancelCreateOpenLoc =>
    obtain ⟨hrequester, h⟩ := refused_eq_ok.mp h
    exact ⟨by simpa [entitled] using hrequester, deletion_op rfl h⟩
  | addLink target nature now =>
    obtain ⟨hcontributor, h⟩ := (contributor_bind_ok rfl).mp h
    obtain ⟨target', htarget, h⟩ := bind_eq_ok.mp h
    cases target with
    | none => cases htarget
    | some target =>
      cases htarget
      exact ⟨hcontributor, one_op (thrown_ok.mp h)⟩
  | addMetadata name value now =>
    obtain ⟨hcontributor, h⟩ := (contributor_bind_ok rfl).mp h
    obtain ⟨name', hname, h⟩ := bind_eq_ok.mp h
    obtain ⟨value', hvalue, h⟩ := bind_eq_ok.mp h
    refine ⟨hcontributor, ?_⟩
    simp only [ops, thrown_ok.mp hname, thrown_ok.mp hvalue]
    exact one_op (thrown_ok.mp h)
  | requestItemReview k key =>
    obtain ⟨-, h⟩ := refused_eq_ok.mp h
    obtain ⟨hcontributor, h⟩ := (contributor_bind_ok rfl).mp h
    exact ⟨hcontributor, one_op (thrown_ok.mp h)⟩
  | reviewItem k key view now =>
    obtain ⟨howner, h⟩ := require_bind_ok.mp h
    refine ⟨howner, ?_⟩
    simp only [ops]
    split_ifs at h ⊢ with haccept
    · exact one_op (thrown_ok.mp h)
    · cases hreason : view.rejectReason with
      | none => rw [hreason] at h; cases h
      | some reason => rw [hreason] at h; exact one_op (thrown_ok.mp h)
  | deleteItem k key =>
    obtain ⟨hcontributor, h⟩ := (contributor_bind_ok rfl).mp h
    exact ⟨hcontributor, one_op (thrown_ok.mp h)⟩
  | prePublishOrAcknowledgeItem k key | cancelPrePublishOrAcknowledgeItem k key
  | preAcknowledgeItem k key | cancelPreAcknowledgeItem k key =>
    obtain ⟨hcontributor, h⟩ := (contributor_bind_ok rfl).mp h
    exact ⟨hcontributor, one_op (ifAllowed_ok h)⟩
  | addSecret name value => exact unless_op h
  | removeSecret secretName => exact unless_op h
  | closeLoc autoAck => exact require_op h toBadRequest_ok.mp
  | _ => exact require_op h thrown_ok.mp

end LocEndpoint

end

/-! ### What an event does -/

/-- The operations that an extrinsic makes on its LOC. -/
def syncOps (e : JsonExtrinsic) (timestamp : Moment) : LocCall → List LocOp
  | .create _ _ items => [.openLoc timestamp (items.getD emptyItems)]
  | .addMetadata _ nameHash => .setItemAddedOn .metadata nameHash timestamp ::
    e.partialFee.toList.map fun fee => .setMetadataItemFee nameHash fee
  | .addFile _ file => match getFileHash file with
    | .ok hash => .setItemAddedOn .file hash timestamp :: e.partialFee.toList.map fun fee =>
      .setFileFees hash ⟨fee, e.storageFee.map Fee.fee⟩ (e.storageFee.map Fee.withdrawnFrom)
    | .error _ => []
  | .addLink _ target => .setItemAddedOn .link target timestamp ::
    e.partialFee.toList.map fun fee => .setLinkFee target fee
  | .close _ | .closeAndSeal _ => [.close timestamp]
  | .makeVoid _ | .makeVoidAndReplace _ => [.voidLoc timestamp]
  | .acknowledgeFile _ hash => acknowledge .file hash
  | .acknowledgeMetadata _ nameHash => acknowledge .metadata nameHash
  | .acknowledgeLink _ target => acknowledge .link target
  | _ => []
where
  acknowledge (k : ItemKind) (key : String) : List LocOp :=
    e.signer.toList.map fun signer =>
      .preAcknowledgeItem k key (.polkadot signer) (some timestamp)

/-- The operations that a callback of iDenfy makes on the LOC. -/
def callbackOps (l : LocRequest) (c : IdenfyCallback) : List LocOp :=
  .updateIdenfyVerification c.final c.overall.toStatus c.raw ::
    (if c.Approving then c.downloadFiles l.getOwner else []).map fun file =>
      .addFile file.hash file.submitter file.data .manualByUser c.now

namespace LocApi

variable [RestApi]

/-- The operations that an event makes on the LOC when it returns. -/
def ops (s : LocApi) (l : LocRequest) : LocEvent → List LocOp
  | .call user endpoint => endpoint.ops user l
  | .fileImported id file now => match s.inFlight id with
    | some (.upload user view hash) => [.addFile hash user.validAccountId (view.toFile file)
      (view.submissionType l user.validAccountId) now]
    | _ => []
  | .sessionCreated _ authToken scanRef => [.initIdenfyVerification authToken scanRef]
  | .callback payload => callbackOps l payload
  | .sync e timestamp call => syncOps e timestamp call
  | .addFile .. | .createVerificationSession .. => []

end LocApi

section

variable [Hashing] {l l' : LocRequest}

theorem two_ops {op op' : LocOp} {l₁ : LocRequest} (h : l.step op = .ok l₁)
    (h' : l₁.step op' = .ok l') : [op, op'].foldlM LocRequest.step l = .ok l' := by
  rw [List.foldlM_cons, h]
  exact LocEndpoint.one_op h'

/-- An extrinsic makes its operations. -/
theorem syncMutator_ok {e : JsonExtrinsic} {timestamp : Moment} {call : LocCall} {locId : UUID}
    {mutator : LocRequest → Except Err LocRequest}
    (hcall : syncMutator e timestamp call = some (locId, mutator)) (h : mutator l = .ok l') :
    (syncOps e timestamp call).foldlM LocRequest.step l = .ok l' := by
  have hfee : ∀ {fee : ℕ}, inclusionFee e = .ok fee → e.partialFee = some fee := by
    intro fee hfee
    unfold inclusionFee at hfee
    split at hfee
    · exact (Except.ok.inj hfee) ▸ ‹_›
    · cases hfee
  have hack : ∀ {k : ItemKind} {key : String}, syncMutator.acknowledge e timestamp k key l = .ok l' →
      (syncOps.acknowledge e timestamp k key).foldlM LocRequest.step l = .ok l' := by
    intro k key hack
    obtain ⟨signer, hsigner, hack⟩ := bind_eq_ok.mp hack
    unfold syncOps.acknowledge
    cases hs : e.signer with
    | none => rw [hs] at hsigner; cases hsigner
    | some signer' =>
      rw [hs] at hsigner
      cases hsigner
      exact LocEndpoint.one_op hack
  cases call with
  | create method locId' items =>
    cases hcall
    obtain ⟨_, -, h⟩ := bind_eq_ok.mp h
    exact LocEndpoint.one_op h
  | addMetadata locId' nameHash =>
    cases hcall
    obtain ⟨fee, hf, h⟩ := bind_eq_ok.mp h
    simp only [syncOps, hfee hf]
    exact two_ops rfl h
  | addFile locId' file =>
    cases hcall
    obtain ⟨hash, hhash, h⟩ := bind_eq_ok.mp h
    obtain ⟨fee, hf, h⟩ := bind_eq_ok.mp h
    simp only [syncOps, hhash, hfee hf]
    exact two_ops rfl h
  | addLink locId' target =>
    cases hcall
    obtain ⟨fee, hf, h⟩ := bind_eq_ok.mp h
    simp only [syncOps, hfee hf]
    exact two_ops rfl h
  | close locId' | closeAndSeal locId' | makeVoid locId' | makeVoidAndReplace locId' =>
    cases hcall
    exact LocEndpoint.one_op h
  | acknowledgeFile locId' hash | acknowledgeMetadata locId' nameHash
  | acknowledgeLink locId' target =>
    cases hcall
    exact hack h
  | _ => cases hcall

/-- A callback makes its operations. -/
theorem callback_ok {c : IdenfyCallback} (h : l.callback c = .ok l') :
    (callbackOps l c).foldlM LocRequest.step l = .ok l' := by
  obtain ⟨l₁, hupdate, h⟩ := bind_eq_ok.mp h
  show (l.step (.updateIdenfyVerification c.final c.overall.toStatus c.raw) >>= fun l₁ => _) = _
  have hstep : l.step (.updateIdenfyVerification c.final c.overall.toStatus c.raw) = .ok l₁ := hupdate
  rw [hstep, ok_bind, List.foldlM_map]
  exact h

open Effect in
omit [Hashing] in
/-- **The extrinsics of the system** are those of the synchroniser: with the LOC in the database,
`updateLoc` makes the update of the event `sync`, and throws what it throws. -/
theorem exec_updateLoc [LegalOfficers] {store : Store} {e : JsonExtrinsic} {timestamp : Moment}
    {call : LocCall} {locId : UUID} {mutator : LocRequest → Except Err LocRequest}
    (hcall : syncMutator e timestamp call = some (locId, mutator))
    (hl : store.db.findLoc locId = some l) :
    exec (updateLoc e timestamp call) store = match mutator l with
      | .ok l' => (.ok (), store.save (store.db.saveLoc locId l'))
      | .error err => (.error err, store) := by
  have hmutate : ∀ {mutator : LocRequest → Except Err LocRequest},
      exec (mutateLoc locId mutator) store = match mutator l with
        | .ok l' => (.ok (), store.save (store.db.saveLoc locId l'))
        | .error err => (.error err, store) := by
    intro mutator
    unfold mutateLoc
    cases hm : mutator l with
    | ok l' => exact exec_transactional_ok (by simp only [hl, hm]; rfl)
    | error err => exact exec_transactional_error (by simp only [hl, hm]; rfl)
  have hack : ∀ {k : ItemKind} {key : String},
      exec (confirmAcknowledgedItem e k locId key timestamp) store =
        match syncMutator.acknowledge e timestamp k key l with
        | .ok l' => (.ok (), store.save (store.db.saveLoc locId l'))
        | .error err => (.error err, store) := by
    intro k key
    unfold confirmAcknowledgedItem syncMutator.acknowledge
    cases hs : requireDefined e.signer with
    | ok signer => exact (exec_bind_ok (exec_liftExcept_ok signer)).trans hmutate
    | error err => exact exec_bind_error (exec_liftExcept_error err)
  cases call with
  | create method locId' items =>
    cases hcall
    unfold updateLoc handleLocCreation
    cases hf : inclusionFee e with
    | ok fee => exact (exec_bind_ok (exec_liftExcept_ok fee)).trans hmutate
    | error err => exact exec_bind_error (exec_liftExcept_error err)
  | addMetadata | addFile | addLink | close | closeAndSeal | makeVoid | makeVoidAndReplace =>
    cases hcall
    exact hmutate
  | acknowledgeFile | acknowledgeMetadata | acknowledgeLink =>
    cases hcall
    exact hack
  | _ => cases hcall

namespace LocApi

variable [RestApi] {s s' : LocApi} {e : LocEvent}

omit [Hashing] [RestApi] in
theorem requireDefined_loc (h : thrown (requireDefined s.loc) = .ok l) : s.loc = some l := by
  cases hloc : s.loc with
  | none => rw [hloc] at h; cases h
  | some l₀ => rw [hloc] at h; cases h; rfl

omit [Hashing] [RestApi] in
theorem update_ok {mutator : LocRequest → Except ApiErr LocRequest} (h : s.update mutator = .ok s') :
    ∃ l l', s.loc = some l ∧ mutator l = .ok l' ∧ s' = { s with loc := some l'.stored } := by
  obtain ⟨l, hl, h⟩ := bind_eq_ok.mp h
  obtain ⟨l', hl', h⟩ := bind_eq_ok.mp h
  exact ⟨l, l', requireDefined_loc hl, hl', (Except.ok.inj h).symm⟩

omit [Hashing] [RestApi] in
theorem finish_loc (id : ℕ) (mutator : LocRequest → Except ApiErr LocRequest) :
    (s.finish id mutator).loc = s.loc ∨
      ∃ l l', s.loc = some l ∧ mutator l = .ok l' ∧ (s.finish id mutator).loc = some l'.stored := by
  unfold finish
  rcases attempt_cases update { s with inFlight := Function.update s.inFlight id none } mutator with
    ⟨_, -, heq⟩ | hok
  · exact .inl (by rw [heq])
  · obtain ⟨l, l', hl, hl', heq⟩ := update_ok hok
    exact .inr ⟨l, l', hl, hl', by rw [heq]⟩

/-- What an event may do to the LOC. -/
inductive Effect (s : LocApi) (e : LocEvent) (s' : LocApi) : Prop
  | same (hloc : s'.loc = s.loc)
  | deleted {u : AuthenticatedUser} {endpoint : LocEndpoint} {l l' : LocRequest}
      (he : e = .call u endpoint) (hdeletes : endpoint.deletes = true) (hl : s.loc = some l)
      (hops : (endpoint.ops u l).foldlM LocRequest.step l = .ok l')
      (hu : endpoint.MayCall u l) (hloc : s'.loc = none)
  | updated {l l' : LocRequest} (hl : s.loc = some l)
      (hops : (s.ops l e).foldlM LocRequest.step l = .ok l')
      (hu : ∀ u endpoint, e = .call u endpoint → endpoint.MayCall u l)
      (hloc : s'.loc = some l'.stored)

/-- **What an event does.** -/
theorem step_effect (h : s.step e = .ok s') : Effect s e s' := by
  have hfinish : ∀ {id : ℕ} {mutator : LocRequest → Except ApiErr LocRequest},
      (∀ u endpoint, e ≠ .call u endpoint) → s' = s.finish id mutator →
      (∀ l l', s.loc = some l → mutator l = .ok l' →
        (s.ops l e).foldlM LocRequest.step l = .ok l') → Effect s e s' := by
    intro id mutator he hs' hops
    rcases finish_loc (s := s) id mutator with heq | ⟨l, l', hl, hl', heq⟩
    · exact .same (by rw [hs', heq])
    · exact .updated hl (hops l l' hl hl') (fun u endpoint h' => absurd h' (he u endpoint))
        (by rw [hs', heq])
  cases e with
  | call user endpoint =>
    obtain ⟨hauth, h⟩ := require_bind_ok.mp h
    split_ifs at h with hdeletes
    · obtain ⟨l, hl, h⟩ := bind_eq_ok.mp h
      obtain ⟨l', hperform, h⟩ := bind_eq_ok.mp h
      obtain ⟨hu, hops⟩ := LocEndpoint.perform_ok hperform
      exact .deleted rfl hdeletes (requireDefined_loc hl) hops ⟨hauth, hu⟩ (by rw [← Except.ok.inj h])
    · obtain ⟨l, l', hl, hl', rfl⟩ := update_ok h
      obtain ⟨hu, hops⟩ := LocEndpoint.perform_ok hl'
      refine .updated hl hops ?_ rfl
      rintro u endpoint' heq
      cases heq
      exact ⟨hauth, hu⟩
  | addFile id user view =>
    obtain ⟨l, -, h⟩ := bind_eq_ok.mp h
    obtain ⟨hash, -, h⟩ := bind_eq_ok.mp h
    exact .same (by rw [← Except.ok.inj h]; rfl)
  | fileImported id file now =>
    have hs' : s' = s.fileImported id file now := (Except.ok.inj h).symm
    unfold fileImported at hs'
    split at hs'
    · rename_i user view hash hflight
      refine hfinish (fun _ _ => by simp) hs' fun l l' _ hl' => ?_
      simp only [ops, hflight]
      exact LocEndpoint.one_op (thrown_ok.mp hl')
    · exact .same (by rw [hs'])
  | createVerificationSession id user =>
    obtain ⟨l, -, h⟩ := bind_eq_ok.mp h
    obtain ⟨_, -, h⟩ := bind_eq_ok.mp h
    exact .same (by rw [← Except.ok.inj h]; rfl)
  | sessionCreated id authToken scanRef =>
    have hs' : s' = s.sessionCreated id authToken scanRef := (Except.ok.inj h).symm
    unfold sessionCreated at hs'
    split at hs'
    · exact hfinish (fun _ _ => by simp) hs' fun l l' _ hl' =>
        LocEndpoint.one_op (congrArg Except.ok (Except.ok.inj hl'))
    · exact .same (by rw [hs'])
  | callback payload =>
    obtain ⟨l, l', hl, hl', rfl⟩ := update_ok h
    exact .updated hl (callback_ok (thrown_ok.mp hl')) (fun _ _ h' => by cases h') rfl
  | sync extrinsic timestamp call =>
    change s.sync extrinsic timestamp call = .ok s' at h
    unfold sync at h
    split at h
    · exact .same (by rw [← Except.ok.inj h])
    · rename_i locId mutator hcall
      split_ifs at h
      · obtain ⟨l, l', hl, hl', rfl⟩ := update_ok h
        exact .updated hl (syncMutator_ok hcall (thrown_ok.mp hl')) (fun _ _ h' => by cases h') rfl
      · exact .same (by rw [← Except.ok.inj h])

end LocApi

end

end Logion
