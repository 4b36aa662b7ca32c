import Logion.Model.LocStep

/-!
# Factory — the creation of a LOC (`LocRequestFactory`) and its reloading

`LocRequestFactory` builds the instance that is saved first.  From then on every call loads the LOC
from its rows: `Reloads l l'` says what an instance `l'` loaded from the rows of `l` looks like.
`Reachable` is what a LOC can become, from its creation, through operations and reloads.

The identity, the postal address, the seal and the fees are written once and read by no other method
of the model: only the checks made on them are kept.
-/

namespace Logion

/-- The part of `UserIdentity` that the factory checks. -/
structure UserIdentity where
  firstName : String
  lastName : String
  email : String
  phoneNumber : String
  deriving DecidableEq, Repr

structure CollectionParams where
  lastBlockSubmission : Option ℕ
  maxSize : Option ℕ
  deriving DecidableEq, Repr

structure LocFees where
  valueFee : Option ℕ
  collectionItemFee : Option ℕ
  tokensRecordFee : Option ℕ
  deriving DecidableEq, Repr

/-- `LocRequestDescription`. -/
structure LocRequestDescription where
  requesterAddress : Option AccountId
  requesterIdentityLoc : Option UUID
  ownerAddress : AccountId
  locType : LocType
  createdOn : Moment
  userIdentity : Option UserIdentity
  collectionParams : Option CollectionParams
  fees : LocFees
  template : Option String := none
  deriving DecidableEq, Repr

namespace LocRequestFactory

def ensureCorrectRequester (description : LocRequestDescription)
    (allowRequesterWithLogionIdentity : Bool) : Except Err Unit :=
  if description.requesterAddress.isNone && !allowRequesterWithLogionIdentity then
    throw (.error "UnexpectedRequester: LOC must have one requester")
  else match description.locType with
    | .identity =>
      if description.requesterIdentityLoc.isSome then
        throw (.error "UnexpectedRequester: Identity LOC cannot have a LOC as requester")
      else return ()
    | _ =>
      if description.requesterIdentityLoc.isNone then
        throw (.error
          "UnexpectedRequester: Transaction/Collection LOC must refer the ID LOC of the requester")
      else return ()

def ensureUserIdentityPresent (description : LocRequestDescription) : Except Err Unit :=
  if description.userIdentity.all (fun u =>
      u.firstName = "" || u.lastName = "" || u.email = "" || u.phoneNumber = "") then
    throw (.error
      "Logion Identity LOC request must contain first name, last name, email and phone number.")
  else return ()

def ensureCorrectCollectionParams (description : LocRequestDescription) : Except Err Unit :=
  if description.locType ≠ .collection then
    if description.collectionParams.isSome then
      throw (.badRequest "Collection Params are for collections only.")
    else return ()
  else match description.collectionParams with
    | none => throw (.error "Missing Collection Params.")
    | some params =>
      if params.lastBlockSubmission.isNone && params.maxSize.isNone then
        throw (.error "Missing Collection upper bound.")
      else return ()

/-- The three `requireDefined` on the fees of a collection. -/
def ensureCollectionFees (description : LocRequestDescription) : Except Err Unit :=
  if description.locType ≠ .collection then return ()
  else if description.fees.valueFee.isNone then
    throw (.error "Collection LOC must have a value fee")
  else if description.fees.collectionItemFee.isNone then
    throw (.error "Collection LOC must have a collection item fee")
  else if description.fees.tokensRecordFee.isNone then
    throw (.error "Collection LOC must have a tokens record fee")
  else return ()

/-- The new instance and the fields that `createLocRequest` sets. -/
def newInstance (id : UUID) (description : LocRequestDescription) (draft : Bool)
    (submissionType : SubmissionType) : LocRequest :=
  let nonDraftStatus : LocRequestStatus :=
    if submissionType = .manualByUser then .reviewPending else .opened
  { id := id
    status := if draft then .draft else nonDraftStatus
    requester := description.requesterAddress
    ownerAddress := description.ownerAddress.address
    locType := description.locType
    createdOn := some description.createdOn
    template := description.template }

def createLocRequest (id : UUID) (description : LocRequestDescription) (draft : Bool)
    (submissionType : SubmissionType) : Except Err LocRequest := do
  ensureCorrectCollectionParams description
  if description.locType = .identity then ensureUserIdentityPresent description
  ensureCollectionFees description
  return newInstance id description draft submissionType

def newLOLocRequest (id : UUID) (description : LocRequestDescription) : Except Err LocRequest := do
  ensureCorrectRequester description true
  createLocRequest id description false .manualByOwner

def newSofRequest (id : UUID) (description : LocRequestDescription) (target : UUID)
    (submitter : AccountId) (nature : String) (now : Moment) : Except Err LocRequest := do
  ensureCorrectRequester description false
  let request ← createLocRequest id { description with template := some "statement_of_facts" } true
    .manualByUser
  let request ← request.addLink target submitter nature .manualByUser now
  request.submit

/-- `MetadataItemParams`. -/
structure MetadataItemParams where
  submitter : AccountId
  name : String
  value : String

/-- `LinkParams`. -/
structure LinkParams where
  submitter : AccountId
  target : UUID
  nature : String

def newLoc [Hashing] (id : UUID) (description : LocRequestDescription)
    (metadata : List MetadataItemParams) (links : List LinkParams) (now : Moment) :
    Except Err LocRequest := do
  ensureCorrectRequester description false
  let request ← createLocRequest id description false .directByRequester
  let request ← metadata.foldlM
    (fun request item =>
      request.addMetadataItem item.submitter item.name item.value .directByRequester now) request
  links.foldlM
    (fun request item =>
      request.addLink item.target item.submitter item.nature .directByRequester now) request

def newLocRequest (id : UUID) (description : LocRequestDescription) (draft : Bool) :
    Except Err LocRequest := do
  ensureCorrectRequester description false
  createLocRequest id description draft .manualByUser

end LocRequestFactory

open LocRequestFactory in
/-- The LOCs that the factory creates. -/
inductive Created [Hashing] (l : LocRequest) : Prop
  | newLOLocRequest (id : UUID) (description : LocRequestDescription)
      (h : newLOLocRequest id description = .ok l)
  | newSofRequest (id : UUID) (description : LocRequestDescription) (target : UUID)
      (submitter : AccountId) (nature : String) (now : Moment)
      (h : newSofRequest id description target submitter nature now = .ok l)
  | newLoc (id : UUID) (description : LocRequestDescription) (metadata : List MetadataItemParams)
      (links : List LinkParams) (now : Moment) (h : newLoc id description metadata links now = .ok l)
  | newLocRequest (id : UUID) (description : LocRequestDescription) (draft : Bool)
      (h : newLocRequest id description draft = .ok l)

/-! ### Reloading -/

/-- The columns of each kind of item; the delivered copies of a file have their own table. -/
def ItemData.columns : {k : ItemKind} → ItemData k → ItemData k
  | .metadata, data => data
  | .file, data =>
    let data : FileData := data
    ({ data with delivered := [] } : FileData)
  | .link, data => data

/-- The row of an item: its columns, without its markers. -/
def Item.row {k : ItemKind} (item : Item k) : Item k :=
  { item with data := item.data.columns, toAdd := false, toUpdate := false }

def RecoverableSecret.row (secret : RecoverableSecret) : RecoverableSecret :=
  { secret with toAdd := false }

/-- The two columns of the void information; without an instance both are NULL. -/
def voidColumns (voidInfo : Option VoidInfo) : Option String × Option Moment :=
  (voidInfo.bind VoidInfo.reason, voidInfo.bind VoidInfo.voidedOn)

/-- `l'` is an instance loaded from the rows of `l`.  The rows of a collection come back in any
order; two NULL columns of the void information come back as no instance or as an instance of
nulls. -/
structure Reloads (l l' : LocRequest) : Prop where
  items : ∀ k, ((l'.items k).map Item.row).Perm ((l.items k).map Item.row)
  unmarked : ∀ k, ∀ item ∈ l'.items k, item.toAdd = false ∧ item.toUpdate = false
  secrets : l'.secrets.Perm (l.secrets.map RecoverableSecret.row)
  voidInfo : voidColumns l'.voidInfo = voidColumns l.voidInfo
  rest : l' = { l with
    metadata := l'.metadata, files := l'.files, links := l'.links, secrets := l'.secrets
    voidInfo := l'.voidInfo
    metadataToDelete := [], filesToDelete := [], linksToDelete := [], secretsToDelete := [] }

/-- `l'` can be reached from `l` through operations that return and reloads. -/
inductive Evolves [Hashing] (l : LocRequest) : LocRequest → Prop
  | refl : Evolves l l
  | operation {l' l'' : LocRequest} (op : LocOp) (h : Evolves l l') (hop : l'.step op = .ok l'') :
    Evolves l l''
  | reload {l' l'' : LocRequest} (h : Evolves l l') (hre : Reloads l' l'') : Evolves l l''

/-- A LOC created by the factory, after any history. -/
def Reachable [Hashing] (l : LocRequest) : Prop := ∃ l₀, Created l₀ ∧ Evolves l₀ l

end Logion
