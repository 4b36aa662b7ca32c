import Logion.Model.LocItems

/-!
# LocRequest — the aggregate root of a LOC (`locrequest.model.ts`)

`LocRequest` holds what the methods of `LocRequestAggregateRoot` read and write, and this file
translates these methods.  A method that throws is an `Except.error`, and the caller then drops the
instance: the stored LOC stays as it was.

Methods that exist once for each of the three collections are one definition over `ItemKind`, with
the messages of each collection, and keep their own names (`addFile`, `addMetadataItem`, ...).
-/

namespace Logion

open Keyed

/-- `LocRequestStatus`. -/
inductive LocRequestStatus
  | draft
  | reviewPending
  | reviewRejected
  | reviewAccepted
  | opened
  | closed
  deriving DecidableEq, Repr

def LocRequestStatus.text : LocRequestStatus → String
  | draft => "DRAFT"
  | reviewPending => "REVIEW_PENDING"
  | reviewRejected => "REVIEW_REJECTED"
  | reviewAccepted => "REVIEW_ACCEPTED"
  | opened => "OPEN"
  | closed => "CLOSED"

/-- `LocType`. -/
inductive LocType
  | identity
  | transaction
  | collection
  deriving DecidableEq, Repr

/-- `EmbeddableIdenfyVerificationStatus`. -/
inductive IdenfyStatus
  | pending
  | approved
  | denied
  | suspected
  | expired
  deriving DecidableEq, Repr

/-- `EmbeddableIdenfyVerification`. -/
structure IdenfyVerification where
  authToken : Option String
  scanRef : Option String
  status : Option IdenfyStatus
  callbackPayload : Option String
  deriving DecidableEq, Repr

/-- `EmbeddableVoidInfo`. -/
structure VoidInfo where
  reason : Option String
  voidedOn : Option Moment
  deriving DecidableEq, Repr

/-- `RecoverableSecretEntity`. -/
structure RecoverableSecret where
  name : String
  value : String
  toAdd : Bool
  deriving DecidableEq, Repr

/-- `LocRequestAggregateRoot`. -/
structure LocRequest where
  id : UUID
  status : LocRequestStatus
  requester : Option AccountId
  ownerAddress : String
  locType : LocType
  createdOn : Option Moment := none
  decisionOn : Option Moment := none
  rejectReason : Option String := none
  closedOn : Option Moment := none
  template : Option String := none
  locCreatedOn : Option Moment := none
  metadata : List LocMetadataItem := []
  files : List LocFile := []
  links : List LocLink := []
  voidInfo : Option VoidInfo := none
  iDenfyVerification : Option IdenfyVerification := none
  secrets : List RecoverableSecret := []
  metadataToDelete : List LocMetadataItem := []
  filesToDelete : List LocFile := []
  linksToDelete : List LocLink := []
  secretsToDelete : List RecoverableSecret := []
  deriving DecidableEq

namespace LocRequest

/-! ### The three collections -/

def items (l : LocRequest) : (k : ItemKind) → List (Item k)
  | .metadata => l.metadata
  | .file => l.files
  | .link => l.links

def setItems (l : LocRequest) : (k : ItemKind) → List (Item k) → LocRequest
  | .metadata, xs => { l with metadata := xs }
  | .file, xs => { l with files := xs }
  | .link, xs => { l with links := xs }

def itemsToDelete (l : LocRequest) : (k : ItemKind) → List (Item k)
  | .metadata => l.metadataToDelete
  | .file => l.filesToDelete
  | .link => l.linksToDelete

def setItemsToDelete (l : LocRequest) : (k : ItemKind) → List (Item k) → LocRequest
  | .metadata, xs => { l with metadataToDelete := xs }
  | .file, xs => { l with filesToDelete := xs }
  | .link, xs => { l with linksToDelete := xs }

/-- `file(hash)`, `metadataItem(nameHash)`, `link(target)`. -/
def item? (l : LocRequest) (k : ItemKind) (key : String) : Option (Item k) :=
  findItem key (l.items k)

/-! ### Roles -/

def getOwner (l : LocRequest) : AccountId := .polkadot l.ownerAddress

def getRequester (l : LocRequest) : Option AccountId := l.requester

def isOwner (l : LocRequest) (account : AccountId) : Bool := l.getOwner = account

def isRequester (l : LocRequest) (account : AccountId) : Bool := l.getRequester = some account

def isVerifiedIssuer (l : LocRequest) (account : AccountId) : Bool :=
  !l.isOwner account && !l.isRequester account

def isPublishAcknowledge (l : LocRequest) (submitter : AccountId) : Bool :=
  submitter.type ≠ .polkadot || l.isOwner submitter

def canPreAcknowledge (l : LocRequest) (submitter contributor : AccountId) : Bool :=
  l.isOwner contributor || (l.isVerifiedIssuer submitter && contributor = submitter)

def canPrePublishOrAcknowledge (l : LocRequest) (submitter contributor : AccountId) : Bool :=
  if submitter.type ≠ .polkadot && l.isOwner contributor then true
  else if l.isVerifiedIssuer submitter || l.isRequester submitter then l.isRequester contributor
  else l.isOwner contributor

def canRemove {k : ItemKind} (address : AccountId) (item : Item k) : Bool :=
  address = item.submitter &&
    (item.lifecycle.status = .draft || item.lifecycle.status = .reviewRejected)

/-! ### Bulk operations on the items -/

/-- `mutateAllItems` on the three collections in turn. -/
def mutateEveryItem (l : LocRequest)
    (mutator : (k : ItemKind) → Item k → Except Err EmbeddableLifecycle)
    (filter : (k : ItemKind) → Item k → Bool) : Except Err LocRequest := do
  let metadata ← mutateAllItems (mutator .metadata) l.metadata (filter .metadata)
  let files ← mutateAllItems (mutator .file) l.files (filter .file)
  let links ← mutateAllItems (mutator .link) l.links (filter .link)
  return { l with metadata := metadata, files := files, links := links }

/-- The checks "no item is ...", made on the three collections in turn. -/
def ensureNoItem (l : LocRequest) (bad : (k : ItemKind) → Item k → Bool)
    (message : ItemKind → String) : Except Err Unit :=
  if l.metadata.any (bad .metadata) then throw (.error (message .metadata))
  else if l.files.any (bad .file) then throw (.error (message .file))
  else if l.links.any (bad .link) then throw (.error (message .link))
  else return ()

/-- The subject of the messages of the bulk checks. -/
def subject : ItemKind → String
  | .metadata => "A metadata item"
  | .file => "A file"
  | .link => "A link"

/-! ### Review of the LOC -/

def updateAllDraftItemsStatus (l : LocRequest) (statusTo : ItemStatus) : Except Err LocRequest :=
  l.mutateEveryItem (fun _ item => return { item.lifecycle with status := statusTo })
    (fun _ item => item.status = .draft)

def submit (l : LocRequest) : Except Err LocRequest :=
  if l.status ≠ .draft then throw (.error "Cannot submit a non-draft request")
  else if l.iDenfyVerification.any (fun v => v.status = some .pending) then
    throw (.error "Cannot submit with ongoing iDenfy verification session")
  else { l with status := .reviewPending }.updateAllDraftItemsStatus .reviewPending

def reject (l : LocRequest) (reason : String) (rejectedOn : Moment) : Except Err LocRequest :=
  if l.status ≠ .reviewPending then
    throw (.error ("Cannot reject request with status " ++ l.status.text))
  else return {
    l with status := .reviewRejected, rejectReason := some reason, decisionOn := some rejectedOn }

def rework (l : LocRequest) : Except Err LocRequest :=
  if l.status ≠ .reviewRejected ∧ l.status ≠ .reviewAccepted then
    throw (.error "Cannot rework a non-reviewed request")
  else return { l with status := .draft, decisionOn := none, rejectReason := none }

def ensureAllItemsAccepted (l : LocRequest) : Except Err Unit :=
  l.ensureNoItem (fun _ item => item.lifecycle.status ≠ .reviewAccepted)
    (fun k => subject k ++ " was not yet accepted")

def accept (l : LocRequest) (decisionOn : Moment) : Except Err LocRequest :=
  if l.status ≠ .reviewPending then throw (.error "Cannot accept already decided request")
  else do
    l.ensureAllItemsAccepted
    return { l with status := .reviewAccepted, decisionOn := some decisionOn }

/-! ### Opening -/

def publishAllAcceptedItems (l : LocRequest) : Except Err LocRequest :=
  l.mutateEveryItem
    (fun _ item =>
      item.lifecycle.prePublishOrAcknowledge (l.isPublishAcknowledge item.submitter) none)
    (fun _ item => item.status = .reviewAccepted)

def preOpen (l : LocRequest) (autoPublish : Bool) : Except Err LocRequest :=
  if l.status ≠ .reviewAccepted ∧ l.status ≠ .opened then
    throw (.error ("Cannot open request with status " ++ l.status.text))
  else do
    let l ← (if autoPublish then l.publishAllAcceptedItems else pure l)
    return { l with status := .opened }

def cancelPublishAllAcceptedItems (l : LocRequest) : Except Err LocRequest :=
  l.mutateEveryItem
    (fun _ item =>
      item.lifecycle.cancelPrePublishOrAcknowledge (l.isPublishAcknowledge item.submitter))
    (fun _ item => item.status = .published && item.lifecycle.addedOn.isNone)

def cancelPreOpen (l : LocRequest) (autoPublish : Bool) : Except Err LocRequest :=
  if l.status ≠ .opened then throw (.error ("Cannot cancel open, status is " ++ l.status.text))
  else do
    let l ← (if autoPublish then l.cancelPublishAllAcceptedItems else pure l)
    return { l with status := .reviewAccepted }

/-! ### One item -/

/-- `getFileOrThrow` and `getLinkOrThrow`, `getMetadataOrThrow`: the item, or the error thrown. -/
def itemNotFound : ItemKind → String → Err
  | .file, hash => .error ("No file with hash " ++ hash)
  | .metadata, nameHash => .badRequest ("Metadata Item not found: " ++ nameHash)
  | .link, target => .badRequest ("Link with target " ++ target ++ " not found")

def getItemOrThrow (l : LocRequest) (k : ItemKind) (key : String) : Except Err (Item k) :=
  match l.item? k key with
  | some item => .ok item
  | none => .error (itemNotFound k key)

/-- `mutateFile`, `mutateMetadataItem`, `mutateLink`. -/
def mutateItem (l : LocRequest) (k : ItemKind) (key : String)
    (mutator : Item k → Except Err (Item k)) : Except Err LocRequest := do
  let item ← l.getItemOrThrow k key
  let item' ← mutator item
  return l.setItems k
    (modifyFirst Item.key key (fun _ => { item' with toUpdate := true }) (l.items k))

/-- `mutateItem` for a transition of the lifecycle. -/
def mutateLifecycle (l : LocRequest) (k : ItemKind) (key : String)
    (mutator : Item k → Except Err EmbeddableLifecycle) : Except Err LocRequest :=
  l.mutateItem k key fun item => return { item with lifecycle := ← mutator item }

def prePublishOrAcknowledgeItems (l : LocRequest) (addedOn : Moment) (items : LocItems) :
    Except Err LocRequest := do
  let publish (k : ItemKind) (l : LocRequest) (key : String) : Except Err LocRequest :=
    l.mutateLifecycle k key fun item =>
      item.lifecycle.prePublishOrAcknowledge (l.isPublishAcknowledge item.submitter) (some addedOn)
  let l ← items.fileHashes.foldlM (publish .file) l
  let l ← items.metadataNameHashes.foldlM (publish .metadata) l
  items.linkTargets.foldlM (publish .link) l

/-- `open(createdOn, items)`, the chain-side opening; a date already set is only logged. -/
def openLoc (l : LocRequest) (createdOn : Moment) (items : LocItems) : Except Err LocRequest :=
  let l := { l with locCreatedOn := some createdOn }
  if l.status = .reviewAccepted ∨ l.status = .opened then
    { l with status := .opened }.prePublishOrAcknowledgeItems createdOn items
  else return l

/-! ### Closing -/

def ensureAllItemsAckedOrPublishedOnChain (l : LocRequest) : Except Err Unit :=
  l.ensureNoItem
    (fun _ item =>
      !item.lifecycle.isAcknowledgedOnChain (l.isVerifiedIssuer item.submitter) &&
        !item.lifecycle.isPublishedOnChain)
    (fun k => subject k ++ " was not yet published nor acknowledged")

def isSubmittedByVerifiedIssuerButNotAcknowledgedOnChain {k : ItemKind} (l : LocRequest)
    (item : Item k) : Bool :=
  l.isVerifiedIssuer item.submitter && item.lifecycle.acknowledgedByVerifiedIssuerOn.isNone

def ensureAllItemsAckedByVerifiedIssuerOnChain (l : LocRequest) : Except Err Unit :=
  l.ensureNoItem (fun _ item => l.isSubmittedByVerifiedIssuerButNotAcknowledgedOnChain item)
    fun
    | .metadata => "A verified issuer's metadata item was not yet acknowledged"
    | .file => "A verified issuer's file was not yet acknowledged"
    | .link => "A verified issuer's link was not yet acknowledged"

def ackAllItemsByOwner (l : LocRequest) : Except Err LocRequest :=
  l.mutateEveryItem
    (fun _ item => item.lifecycle.preAcknowledge (l.isVerifiedIssuer item.submitter) false none)
    (fun _ _ => true)

def ensureAllItemsAckedOnChain (l : LocRequest) : Except Err Unit :=
  l.ensureNoItem
    (fun _ item => !item.lifecycle.isAcknowledgedOnChain (l.isVerifiedIssuer item.submitter))
    (fun k => subject k ++ " was not yet acknowledged")

def preClose (l : LocRequest) (autoAck : Bool) : Except Err LocRequest := do
  let l ← (
    if autoAck then do
      l.ensureAllItemsAckedOrPublishedOnChain
      l.ensureAllItemsAckedByVerifiedIssuerOnChain
      l.ackAllItemsByOwner
    else do
      l.ensureAllItemsAckedOnChain
      pure l)
  return if l.status = .opened then { l with status := .closed } else l

def cancelPreAckItems (l : LocRequest) : Except Err LocRequest :=
  l.mutateEveryItem (fun _ item => item.lifecycle.cancelPreAcknowledge false)
    (fun _ item => item.status = .acknowledged && item.lifecycle.acknowledgedByOwnerOn.isNone)

def cancelPreClose (l : LocRequest) (autoAck : Bool) : Except Err LocRequest :=
  if l.status ≠ .closed then throw (.error ("Cannot cancel closed, status is " ++ l.status.text))
  else do
    let l ← (if autoAck then l.cancelPreAckItems else pure l)
    return { l with status := .opened }

/-- `close(timestamp)`, the chain-side closing; a date already set is only logged. -/
def close (l : LocRequest) (timestamp : Moment) : LocRequest :=
  { l with closedOn := some timestamp, status := .closed }

/-! ### Adding and removing items -/

def ensureEditable (l : LocRequest) (submissionType : Option SubmissionType) : Except Err Unit :=
  if ¬(l.status = .draft ∨ l.status = .opened) then throw (.error "LOC is not editable")
  else if submissionType = some .directByRequester ∧ l.status ≠ .opened then
    throw (.error "Item directly submitted by requester is only possible on OPEN LOC.")
  else return ()

def alreadyAdded : ItemKind → String
  | .metadata => "A metadata item with given nameHash was already added to this LOC"
  | .file => "A file with given hash was already added to this LOC"
  | .link => "A link with given target was already added to this LOC"

/-- `addFile`, `addMetadataItem`, `addLink`; `now` is the time of the call. -/
def addItem (l : LocRequest) (k : ItemKind) (key : String) (submitter : AccountId)
    (data : ItemData k) (submissionType : SubmissionType) (now : Moment) :
    Except Err LocRequest := do
  l.ensureEditable (some submissionType)
  if (l.item? k key).isSome then throw (.error (alreadyAdded k))
  else
    let item : Item k := {
      key := key
      index := (l.items k).length
      submitter := submitter
      lifecycle := EmbeddableLifecycle.fromSubmissionType submissionType now
      data := data
      toAdd := true }
    return l.setItems k (l.items k ++ [item])

def noItemToRemove : ItemKind → String
  | .metadata => "No metadata item with given name"
  | .file => "No file with given hash"
  | .link => "No link with given target"

def onlyDraftRemovable : ItemKind → String
  | .metadata => "Only draft metadata can be removed"
  | .file => "Only draft files can be removed"
  | .link => "Only draft links can be removed"

/-- `removeFile`, `removeMetadataItem`, `removeLink`. -/
def removeItem (l : LocRequest) (k : ItemKind) (remover : AccountId) (key : String) :
    Except Err LocRequest := do
  l.ensureEditable none
  match l.item? k key with
  | none => throw (.error (noItemToRemove k))
  | some item =>
    if !canRemove remover item then throw (.error "Item removal not allowed")
    else if item.status = .acknowledged ∨ item.status = .published then
      throw (.error (onlyDraftRemovable k))
    else
      let (children, toDelete) := deleteIndexedChild item (l.items k) (l.itemsToDelete k)
      return (l.setItems k children).setItemsToDelete k toDelete

def addFile (l : LocRequest) (hash : Hash) (submitter : AccountId) (data : FileData)
    (submissionType : SubmissionType) (now : Moment) : Except Err LocRequest :=
  l.addItem .file hash submitter data submissionType now

/-- The key is `Hash.of(name)`. -/
def addMetadataItem [Hashing] (l : LocRequest) (submitter : AccountId) (name value : String)
    (submissionType : SubmissionType) (now : Moment) : Except Err LocRequest :=
  l.addItem .metadata (Hashing.of name) submitter (⟨name, value, none⟩ : MetadataData)
    submissionType now

def addLink (l : LocRequest) (target : UUID) (submitter : AccountId) (nature : String)
    (submissionType : SubmissionType) (now : Moment) : Except Err LocRequest :=
  l.addItem .link target submitter (⟨nature, none⟩ : LinkData) submissionType now

def removeFile (l : LocRequest) (remover : AccountId) (hash : Hash) := l.removeItem .file remover hash

def removeMetadataItem (l : LocRequest) (remover : AccountId) (nameHash : Hash) :=
  l.removeItem .metadata remover nameHash

def removeLink (l : LocRequest) (remover : AccountId) (target : UUID) :=
  l.removeItem .link remover target

/-! ### Review, publication and acknowledgement of one item -/

def ensureCanAcceptOrReject (l : LocRequest) : Except Err Unit :=
  if l.status ≠ .reviewPending ∧ l.status ≠ .reviewAccepted ∧ l.status ≠ .opened then
    throw (.error "Request must be pending, accepted or open")
  else return ()

def ensureOpen (l : LocRequest) : Except Err Unit :=
  if l.status ≠ .opened then throw (.error "Must be open") else return ()

/-- `requestFileReview`, `requestMetadataItemReview`, `requestLinkReview`. -/
def requestItemReview (l : LocRequest) (k : ItemKind) (key : String) : Except Err LocRequest :=
  l.mutateLifecycle k key fun item => item.lifecycle.requestReview

/-- `acceptFile`, `acceptMetadataItem`, `acceptLink`. -/
def acceptItem (l : LocRequest) (k : ItemKind) (key : String) (now : Moment) :
    Except Err LocRequest := do
  l.ensureCanAcceptOrReject
  l.mutateLifecycle k key fun item => item.lifecycle.accept now

/-- `rejectFile`, `rejectMetadataItem`, `rejectLink`. -/
def rejectItem (l : LocRequest) (k : ItemKind) (key reason : String) (now : Moment) :
    Except Err LocRequest := do
  l.ensureCanAcceptOrReject
  l.mutateLifecycle k key fun item => item.lifecycle.reject reason now

/-- `canPrePublishOrAcknowledgeFile`, `...MetadataItem`, `...Link`: requires an open LOC. -/
def canPrePublishOrAcknowledgeItem (l : LocRequest) (k : ItemKind) (key : String)
    (contributor : AccountId) : Except Err Bool := do
  l.ensureOpen
  let item ← l.getItemOrThrow k key
  return l.canPrePublishOrAcknowledge item.submitter contributor

def canPreAcknowledgeItem (l : LocRequest) (k : ItemKind) (key : String) (contributor : AccountId) :
    Except Err Bool := do
  let item ← l.getItemOrThrow k key
  return l.canPreAcknowledge item.submitter contributor

/-- `prePublishOrAcknowledgeFile`, `...MetadataItem`, `...Link`: the HTTP side, no timestamp. -/
def prePublishOrAcknowledgeItem (l : LocRequest) (k : ItemKind) (key : String)
    (contributor : AccountId) : Except Err LocRequest := do
  if !(← l.canPrePublishOrAcknowledgeItem k key contributor) then
    throw (.error "Contributor cannot confirm")
  l.mutateLifecycle k key fun item =>
    item.lifecycle.prePublishOrAcknowledge (l.isPublishAcknowledge item.submitter) none

def cannotCancelPrePublish : ItemKind → String
  | .file => "Contributor cannot cancel"
  | .metadata => "Contributor cannot confirm"
  | .link => "Contributor cannot confirm"

def cancelPrePublishOrAcknowledgeItem (l : LocRequest) (k : ItemKind) (key : String)
    (contributor : AccountId) : Except Err LocRequest := do
  if !(← l.canPrePublishOrAcknowledgeItem k key contributor) then
    throw (.error (cannotCancelPrePublish k))
  l.mutateLifecycle k key fun item =>
    item.lifecycle.cancelPrePublishOrAcknowledge (l.isPublishAcknowledge item.submitter)

/-- `preAcknowledgeFile`, `...MetadataItem`, `...Link`; the HTTP side gives no timestamp. -/
def preAcknowledgeItem (l : LocRequest) (k : ItemKind) (key : String) (contributor : AccountId)
    (acknowledgedOn : Option Moment) : Except Err LocRequest := do
  if !(← l.canPreAcknowledgeItem k key contributor) then throw (.error "Contributor cannot ack")
  l.mutateLifecycle k key fun item =>
    item.lifecycle.preAcknowledge (l.isVerifiedIssuer item.submitter)
      (l.isVerifiedIssuer contributor) acknowledgedOn

def cannotCancelPreAcknowledge : ItemKind → String
  | .file => "Contributor cannot cancel"
  | .metadata => "Contributor cannot cancel"
  | .link => "Contributor cannot ack"

def cancelPreAcknowledgeItem (l : LocRequest) (k : ItemKind) (key : String)
    (contributor : AccountId) : Except Err LocRequest := do
  if !(← l.canPreAcknowledgeItem k key contributor) then
    throw (.error (cannotCancelPreAcknowledge k))
  l.mutateLifecycle k key fun item =>
    item.lifecycle.cancelPreAcknowledge (l.isVerifiedIssuer contributor)

/-- `setFileAddedOn`, `setMetadataItemAddedOn`, `setLinkAddedOn`: an unknown item is only logged. -/
def setItemAddedOn (l : LocRequest) (k : ItemKind) (key : String) (addedOn : Moment) : LocRequest :=
  l.setItems k (modifyFirst Item.key key
    (fun item => { item with lifecycle := item.lifecycle.setAddedOn addedOn, toUpdate := true })
    (l.items k))

/-! ### Other columns of the items -/

/-- `setFileFees`: throws on an unknown file, unlike the two setters below. -/
def setFileFees (l : LocRequest) (hash : Hash) (fees : StorageFees)
    (storageFeePaidBy : Option String) : Except Err LocRequest :=
  l.mutateItem .file hash fun file =>
    let data : FileData := file.data
    return { file with
      data := ({ data with fees := some fees, storageFeePaidBy := storageFeePaidBy } : FileData) }

def setMetadataItemFee (l : LocRequest) (nameHash : Hash) (inclusionFee : ℕ) : LocRequest :=
  { l with
    metadata := modifyFirst Item.key nameHash
      (fun item =>
        let data : MetadataData := item.data
        { item with
          data := ({ data with inclusionFee := some inclusionFee } : MetadataData)
          toUpdate := true })
      l.metadata }

def setLinkFee (l : LocRequest) (target : UUID) (inclusionFee : ℕ) : LocRequest :=
  { l with
    links := modifyFirst Item.key target
      (fun item =>
        let data : LinkData := item.data
        { item with
          data := ({ data with inclusionFee := some inclusionFee } : LinkData)
          toUpdate := true })
      l.links }

def updateFileContent (l : LocRequest) (hash : Hash) (name : String) (size : ℕ)
    (contentType cid : Option String) : Except Err LocRequest :=
  l.mutateItem .file hash fun file =>
    let data : FileData := file.data
    return { file with
      data := ({ data with name := name, size := size, contentType := contentType, cid := cid } :
        FileData) }

def setFileRestrictedDelivery (l : LocRequest) (hash : Hash) (restrictedDelivery : Bool) :
    Except Err LocRequest :=
  if l.locType ≠ .collection then
    throw (.error "Can change restricted delivery of file only on Collection LOC.")
  else
    l.mutateItem .file hash fun file =>
      let data : FileData := file.data
      return { file with data := ({ data with restrictedDelivery := restrictedDelivery } : FileData) }

/-! ### Void -/

def isVoid (l : LocRequest) : Bool := l.voidInfo.any (fun v => v.reason.isSome)

def preVoid (l : LocRequest) (reason : String) : Except Err LocRequest :=
  if l.isVoid then throw (.error "LOC is already void")
  else return { l with voidInfo := some ⟨some reason, none⟩ }

def cancelPreVoid (l : LocRequest) : Except Err LocRequest :=
  if !l.isVoid then throw (.error "Cannot cancelPreVoid a non pre-Voided LOC")
  else if l.voidInfo.any (fun v => v.voidedOn.isSome) then
    throw (.error "Cannot cancelPreVoid a Void LOC")
  else return { l with voidInfo := l.voidInfo.map fun v => { v with reason := none } }

/-- `voidLoc(timestamp)`, the chain-side voiding; a date already set is only logged. -/
def voidLoc (l : LocRequest) (timestamp : Moment) : LocRequest :=
  { l with
    voidInfo := some { l.voidInfo.getD ⟨some "", none⟩ with voidedOn := some timestamp } }

/-- `getVoidInfo()`: the reason and the date. -/
def getVoidInfo (l : LocRequest) : Option (String × Option Moment) :=
  if l.isVoid then
    some ((l.voidInfo.bind VoidInfo.reason).getD "", l.voidInfo.bind VoidInfo.voidedOn)
  else none

/-! ### iDenfy verification and secrets -/

def initIdenfyVerification (l : LocRequest) (authToken scanRef : String) : LocRequest :=
  { l with iDenfyVerification := some ⟨some authToken, some scanRef, some .pending, none⟩ }

def updateIdenfyVerification (l : LocRequest) (final : Bool) (overall : IdenfyStatus)
    (rawJson : String) : Except Err LocRequest :=
  match l.iDenfyVerification with
  | none => throw (.error "iDenfy verification was not initiated")
  | some v =>
    if v.status ≠ some .pending then throw (.error "iDenfy verification was not initiated")
    else if final then
      return {
        l with
        iDenfyVerification :=
          some { v with status := some overall, callbackPayload := some rawJson } }
    else return l

def isValidIdentityLoc (l : LocRequest) : Bool :=
  l.locType = .identity && l.status = .closed && !l.isVoid

def hasSecret (l : LocRequest) (name : String) : Bool := l.secrets.any (fun s => s.name = name)

def addSecret (l : LocRequest) (name value : String) : Except Err LocRequest :=
  if !l.isValidIdentityLoc then
    throw (.error "Secrets can only be added to a valid Identity LOC")
  else if l.hasSecret name then
    throw (.error ("A secret with name '" ++ name ++ "' already exists"))
  else if utf16Length name > 255 then throw (.error "Name is too long (max 255 characters)")
  else if utf16Length value > 4096 then throw (.error "Value is too long (max 4096 characters)")
  else if l.secrets.length > 10 then throw (.error "Too many secrets (max 10)")
  else return { l with secrets := l.secrets ++ [⟨name, value, true⟩] }

def removeSecret (l : LocRequest) (name : String) : Except Err LocRequest :=
  match lookup RecoverableSecret.name name l.secrets with
  | none => throw (.error ("There is no secret with name '" ++ name ++ "'"))
  | some secret => return { l with
      secrets := eraseFirst RecoverableSecret.name name l.secrets
      secretsToDelete := l.secretsToDelete ++ [secret] }

/-! ### Guards of the two deletions (`LocRequestRepository`) -/

def deleteDraftRejectedOrAccepted (l : LocRequest) : Except Err Unit :=
  if l.status ≠ .draft ∧ l.status ≠ .reviewRejected ∧ l.status ≠ .reviewAccepted then
    throw (.error "Cannot delete non-draft and non-reviewed request")
  else return ()

def deleteOpen (l : LocRequest) : Except Err Unit :=
  if l.status ≠ .opened then throw (.error "Cannot delete non-open request") else return ()

end LocRequest

end Logion
