import Logion.Api.LocApi
import Logion.Api.TokenOwnership
import Logion.Sync.NeverStuck

/-!
# Deliveries — who gets a copy of a restricted file (`collection.controller.ts`, `records.controller.ts`)

A copy of a file of an item, of the collection or of a tokens record is delivered to the owner of the
token of an item.  A download checks this step by step, each time after something was awaited: a query
on the chain or of the database, the answer of a network, the export, the update.  Meanwhile tokens
change hands, the chain goes on, and other requests write to the tables.

* `DownloadRequest`, `DownloadPhase`: the three downloads, and what they have found so far.
* `Deliveries.resume`, `Deliveries.step`: a download goes on, or something else happens.
* `Entitled`: the requester owned the token, after the file and the token were found.
* `delivered_to_owners`: every copy was recorded for an entitled requester, and none is sent before.
-/

namespace Logion

open Fallible

/-! ### What is stored, on chain and in the database -/

/-- A `CollectionItem` of the node API. -/
structure PublishedItem where
  restrictedDelivery : Bool
  files : List Hash
  deriving DecidableEq, Repr

/-- `CollectionItemFile` and `TokensRecordFile`. -/
structure DeliverableFile where
  hash : Hash
  name : Option String
  contentType : Option String
  cid : Option String
  deriving DecidableEq, Repr

/-- `CollectionItemAggregateRoot`, with what a download reads of it. -/
structure DeliverableItem where
  token : CollectionItemToken
  files : List DeliverableFile
  deriving DecidableEq, Repr

def fileOf (files : List DeliverableFile) (hash : Hash) : Option DeliverableFile :=
  files.find? fun file => file.hash = hash

/-- The file that a row of `collection_item_file_delivered`, `loc_request_file_delivered` or
`tokens_record_file_delivered` belongs to. -/
inductive CopiedFile
  | item (collectionLocId : UUID) (itemId hash : Hash)
  | loc (requestId : UUID) (hash : Hash)
  | record (collectionLocId : UUID) (recordId hash : Hash)
  deriving DecidableEq, Repr

/-- A row of these tables. -/
structure DeliveredCopy where
  file : CopiedFile
  deliveredFileHash : Hash
  generatedOn : Moment
  owner : String
  deriving DecidableEq, Repr

/-! ### Requests -/

/-- `downloadItemFile` and `downloadCollectionFile` of the collections, `downloadItemFile` of the
records. -/
inductive DownloadRequest
  | itemFile (collectionLocId : UUID) (itemId hash : Hash)
  | collectionFile (collectionLocId : UUID) (hash itemId : Hash)
  | recordFile (collectionLocId : UUID) (recordId hash itemId : Hash)
  deriving DecidableEq, Repr

namespace DownloadRequest

def collectionLocId : DownloadRequest → UUID
  | itemFile collectionLocId _ _ | collectionFile collectionLocId _ _
  | recordFile collectionLocId _ _ _ => collectionLocId

/-- The item whose token gives access. -/
def itemId : DownloadRequest → Hash
  | itemFile _ itemId _ | collectionFile _ _ itemId | recordFile _ _ _ itemId => itemId

def delivers : DownloadRequest → CopiedFile
  | itemFile collectionLocId itemId hash => .item collectionLocId itemId hash
  | collectionFile collectionLocId hash _ => .loc collectionLocId hash
  | recordFile collectionLocId recordId hash _ => .record collectionLocId recordId hash

end DownloadRequest

/-- A request, the account that it authenticates, and the copy that is exported for it: its hash, and
when it was generated. -/
structure DeliveryCall where
  request : DownloadRequest
  authenticated : AccountId
  deliveredFileHash : Hash
  generatedOn : Moment
  deriving DecidableEq, Repr

def DeliveryCall.copy (call : DeliveryCall) : DeliveredCopy where
  file := call.request.delivers
  deliveredFileHash := call.deliveredFileHash
  generatedOn := call.generatedOn
  owner := call.authenticated.address

/-- What a download has found, and what it awaits next. -/
inductive DownloadPhase
  | called
  /-- The item is on chain: the query of the item. -/
  | published (restrictedDelivery : Bool)
  /-- The file is uploaded: the query of the item. -/
  | locFile (restrictedDelivery : Bool) (contentType : Option String)
  /-- The collection exists: the query of the item. -/
  | collection
  /-- The item exists: the query of the record. -/
  | recordOf (token : Option CollectionItemTokenDescription)
  /-- The answer of the network. -/
  | checking (token : CollectionItemTokenDescription) (contentType : Option String)
  /-- The requester owns the token: the query of the file. -/
  | owner
  /-- The file as the database describes it: the query of the file on chain. -/
  | dbFile (file : Option DeliverableFile)
  /-- The file has not been forgotten: the query of the collection. -/
  | described
  /-- The export to the temporary file, the metadata and the hash. -/
  | exporting
  /-- The update. -/
  | recording
  | sent
  | rejected (e : ApiErr)
  deriving DecidableEq

/-- What is outside, what is stored, and the downloads. -/
structure DeliveryState (ι : Type) where
  networks : Networks
  publishedItem : UUID → Hash → Option PublishedItem
  publishedRecord : UUID → Hash → Option (List Hash)
  locs : UUID → Option LocRequest
  items : UUID → Hash → Option DeliverableItem
  records : UUID → Hash → Option (List DeliverableFile)
  delivered : List DeliveredCopy
  phase : ι → DownloadPhase

namespace Deliveries

variable [TokenParsers] {ι : Type}

/-! ### A download, from one `await` to the next one -/

def badRequest {α : Type} (message : String) : Except ApiErr α := throw (.thrown (.badRequest message))

/-- `getCollectionItemWithFile` and `getTokensRecordWithFile`: the file exists and is uploaded. -/
def checkUploaded (files : List DeliverableFile) (hash : Hash) : Except ApiErr Unit :=
  match fileOf files hash with
  | none => badRequest "File does not exist"
  | some file =>
    if (nonEmpty file.cid).isNone then badRequest "Trying to download a file that is not uploaded yet."
    else return ()

/-- The refusal of a requester without the token. -/
def notOwner (account : AccountId) : DownloadRequest → ApiErr
  | .itemFile _ _ _ | .collectionFile _ _ _ => .forbidden
    s!"{account.address} does not seem to be the owner of this item's underlying token"
  | .recordFile _ _ _ _ => .forbidden
    s!"{account.address} does not seem to be the owner of related item's underlying token"

/-- The checks around the call of `isOwner`, up to it. -/
def checkAllowed (account : AccountId) (request : DownloadRequest) (restrictedDelivery : Bool)
    (refusal : String) (token : Option CollectionItemTokenDescription) (contentType : Option String) :
    Except ApiErr DownloadPhase :=
  if ¬ restrictedDelivery then throw (.forbidden refusal)
  else match token with
    | none => throw (notOwner account request)
    | some token => return .checking token contentType

/-- What `getCollectionItemFile` and `getTokensRecordFile` have found, with the check after them. -/
def checkDescribed (dbFile : Option DeliverableFile) (chainFiles : Option (List Hash)) (hash : Hash)
    (notFound : String) : Except ApiErr Unit :=
  match dbFile, (chainFiles.bind fun files => files.find? fun file => file = hash) with
  | some file, some _ =>
    if (nonEmpty file.name).isNone ∨ (nonEmpty file.contentType).isNone then
      badRequest "File has been forgotten"
    else return ()
  | _, _ => badRequest notFound

/-- `addDeliveredFile` of a LOC. -/
def checkDelivery (l : LocRequest) (hash : Hash) : Except Err Unit := do
  if l.locType ≠ .collection then
    throw (.error "Restricted delivery is only available with Collection LOCs")
  else if l.status ≠ .closed then
    throw (.error "Restricted delivery is only possible with closed Collection LOCs")
  else
    let _ ← l.getItemOrThrow .file hash
    return ()

/-- `requireDefined(await repository.findBy(...))`, then `getFile(hash)`. -/
def checkFile (files : Option (List DeliverableFile)) (hash : Hash) : Except Err Unit := do
  let files ← requireDefined files
  if (fileOf files hash).isNone then
    throw (.error "Cannot read properties of undefined (reading 'addDeliveredFile')")
  else return ()

section

variable (σ : DeliveryState ι)

/-- The update that records the copy: whether it throws. -/
def checkUpdate : DownloadRequest → Except Err Unit
  | .itemFile collectionLocId itemId hash =>
    checkFile ((σ.items collectionLocId itemId).map DeliverableItem.files) hash
  | .collectionFile collectionLocId hash _ => do
    let collection ← requireDefined (σ.locs collectionLocId)
    checkDelivery collection hash
  | .recordFile collectionLocId recordId hash _ => checkFile (σ.records collectionLocId recordId) hash

/-- What a download does first. -/
def called : DownloadRequest → Except ApiErr DownloadPhase
  | .itemFile collectionLocId itemId _ =>
    match σ.publishedItem collectionLocId itemId with
    | none => badRequest s!"Collection item {collectionLocId} not found on-chain"
    | some item => return .published item.restrictedDelivery
  | .collectionFile collectionLocId hash _ => do
    let collection ← thrown (requireDefined (σ.locs collectionLocId))
    match collection.item? .file hash with
    | none => badRequest "File does not exist"
    | some file =>
      let data : FileData := file.data
      if (nonEmpty data.cid).isNone then
        badRequest "Trying to download a file that is not uploaded yet."
      else return .locFile data.restrictedDelivery data.contentType
  | .recordFile collectionLocId _ _ _ =>
    match σ.locs collectionLocId with
    | none => badRequest s!"Collection {collectionLocId} not found"
    | some _ => return .collection

/-- What a download does when it gets what it awaits. -/
def resume (account : AccountId) (request : DownloadRequest) : DownloadPhase → Except ApiErr DownloadPhase
  | .called => called σ request
  | .published restrictedDelivery =>
    match request with
    | .itemFile collectionLocId itemId hash =>
      match σ.items collectionLocId itemId with
      | none => badRequest s!"Collection item {collectionLocId}/{itemId} not found in DB"
      | some item => do
        checkUploaded item.files hash
        checkAllowed account request restrictedDelivery "No delivery allowed for this item's files"
          item.token.getDescription none
    | _ => return .published restrictedDelivery
  | .locFile restrictedDelivery contentType =>
    match σ.items request.collectionLocId request.itemId with
    | none => badRequest "Collection item not found"
    | some item => checkAllowed account request restrictedDelivery
        "No delivery allowed for this collection's files" item.token.getDescription contentType
  | .collection =>
    match σ.items request.collectionLocId request.itemId with
    | none => badRequest s!"Collection item {request.collectionLocId} not found on-chain"
    | some item => return .recordOf item.token.getDescription
  | .recordOf token =>
    match request with
    | .recordFile collectionLocId recordId hash _ =>
      match σ.records collectionLocId recordId with
      | none => badRequest s!"Tokens Record {collectionLocId}/{recordId} not found in DB"
      | some files => do
        checkUploaded files hash
        match token with
        | none => throw (notOwner account request)
        | some token => return .checking token none
    | _ => return .recordOf token
  | .checking token contentType => do
    let isOwner ← thrown (OwnershipCheckService.isOwner σ.networks account token)
    if ¬ isOwner then throw (notOwner account request)
    else match request with
      | .collectionFile _ _ _ =>
        if (nonEmpty contentType).isNone then badRequest "File has been forgotten"
        else return .described
      | _ => return .owner
  | .owner =>
    match request with
    | .itemFile collectionLocId itemId hash =>
      return .dbFile ((σ.items collectionLocId itemId).bind fun item => fileOf item.files hash)
    | .recordFile collectionLocId recordId hash _ =>
      match σ.records collectionLocId recordId with
      | none => badRequest "Tokens Record not found"
      | some files => return .dbFile (fileOf files hash)
    | .collectionFile _ _ _ => return .owner
  | .dbFile file =>
    match request with
    | .itemFile collectionLocId itemId hash => do
      checkDescribed file ((σ.publishedItem collectionLocId itemId).map PublishedItem.files) hash
        "Collection Item File not found"
      return .described
    | .recordFile collectionLocId recordId hash _ => do
      checkDescribed file (σ.publishedRecord collectionLocId recordId) hash
        "Tokens Record File not found"
      return .exporting
    | .collectionFile _ _ _ => return .dbFile file
  | .described =>
    match σ.locs request.collectionLocId with
    | none => badRequest s!"Collection {request.collectionLocId} not found"
    | some _ => return .exporting
  | .exporting => return .recording
  | .recording => do
    thrown (checkUpdate σ request)
    return .sent
  | .sent => return .sent
  | .rejected e => return .rejected e

end

/-! ### The system -/

/-- What can happen: a download gets what it awaits, or an exception; or something else: the networks
and the chain go on, other requests write to the tables, and may delete copies. -/
inductive Op (ι : Type)
  | resume (t : ι)
  | fail (t : ι) (e : ApiErr)
  | networks (networks : Networks)
  | chain (publishedItem : UUID → Hash → Option PublishedItem)
      (publishedRecord : UUID → Hash → Option (List Hash))
  | request (locs : UUID → Option LocRequest) (items : UUID → Hash → Option DeliverableItem)
      (records : UUID → Hash → Option (List DeliverableFile)) (keeps : DeliveredCopy → Bool)

/-- The download has ended. -/
inductive Ended
  | noDownload
  deriving DecidableEq

section

variable [DecidableEq ι] (calls : ι → DeliveryCall) (σ : DeliveryState ι)

/-- The phase that is reached; the last step records the copy. -/
def settle (t : ι) : Except ApiErr DownloadPhase → DeliveryState ι
  | .error e => { σ with phase := Function.update σ.phase t (.rejected e) }
  | .ok .sent => {
      σ with
      delivered := σ.delivered ++ [(calls t).copy]
      phase := Function.update σ.phase t .sent }
  | .ok p => { σ with phase := Function.update σ.phase t p }

def step : Op ι → Except Ended (DeliveryState ι)
  | .resume t =>
    match σ.phase t with
    | .sent | .rejected _ => throw .noDownload
    | p => return settle calls σ t (resume σ (calls t).authenticated (calls t).request p)
  | .fail t e =>
    match σ.phase t with
    | .sent | .rejected _ => throw .noDownload
    | _ => return { σ with phase := Function.update σ.phase t (.rejected e) }
  | .networks networks => return { σ with networks }
  | .chain publishedItem publishedRecord => return { σ with publishedItem, publishedRecord }
  | .request locs items records keeps =>
    return { σ with locs, items, records, delivered := σ.delivered.filter keeps }

end

/-! ### What a download has found -/

section

variable (request : DownloadRequest) (token : CollectionItemTokenDescription) (σ : DeliveryState ι)

def Uploaded (files : List DeliverableFile) (hash : Hash) : Prop :=
  ∃ file, fileOf files hash = some file ∧ (nonEmpty file.cid).isSome

/-- An item is on chain, with the restricted delivery of its files. -/
def Published : Prop :=
  match request with
  | .itemFile collectionLocId itemId _ =>
    ∃ item, σ.publishedItem collectionLocId itemId = some item ∧ item.restrictedDelivery = true
  | .collectionFile _ _ _ | .recordFile _ _ _ _ => True

/-- The file is uploaded; a file of the collection is also one of restricted delivery. -/
def FileFound : Prop :=
  match request with
  | .itemFile collectionLocId itemId hash =>
    ∃ item, σ.items collectionLocId itemId = some item ∧ Uploaded item.files hash
  | .collectionFile collectionLocId hash _ =>
    ∃ l file, ∃ data : FileData, σ.locs collectionLocId = some l ∧ l.item? .file hash = some file ∧
      file.data = data ∧ (nonEmpty data.cid).isSome ∧ data.restrictedDelivery = true
  | .recordFile collectionLocId recordId hash _ =>
    ∃ files, σ.records collectionLocId recordId = some files ∧ Uploaded files hash

/-- The item has this token. -/
def TokenFound : Prop :=
  ∃ item, σ.items request.collectionLocId request.itemId = some item ∧
    item.token.getDescription = some token

/-- The collection accepts copies of its own files. -/
def AcceptsCopies : Prop :=
  match request with
  | .collectionFile collectionLocId _ _ =>
    ∃ l, σ.locs collectionLocId = some l ∧ l.locType = .collection ∧ l.status = .closed
  | .itemFile _ _ _ | .recordFile _ _ _ _ => True

end

/-- The networks say that the account owns the token. -/
def Owns (account : AccountId) (token : CollectionItemTokenDescription) (σ : DeliveryState ι) : Prop :=
  OwnershipCheckService.isOwner σ.networks account token = .ok true

/-- The phases after the ownership check. -/
inductive Checked : DownloadPhase → Prop
  | owner : Checked .owner
  | dbFile (file : Option DeliverableFile) : Checked (.dbFile file)
  | described : Checked .described
  | exporting : Checked .exporting
  | recording : Checked .recording

/-- What a download finds, from one phase to the next one. -/
inductive Finds (account : AccountId) (request : DownloadRequest) (σ : DeliveryState ι) :
    DownloadPhase → DownloadPhase → Prop
  | published {restricted : Bool} (h : restricted = true → Published request σ) :
      Finds account request σ .called (.published restricted)
  | locFile {restricted : Bool} {contentType : Option String} (hpublished : Published request σ)
      (hfile : restricted = true → FileFound request σ) :
      Finds account request σ .called (.locFile restricted contentType)
  | collection (hpublished : Published request σ) : Finds account request σ .called .collection
  | itemToken {token : CollectionItemTokenDescription} {contentType : Option String}
      (hfile : FileFound request σ) (htoken : TokenFound request token σ) :
      Finds account request σ (.published true) (.checking token contentType)
  | locToken {token : CollectionItemTokenDescription} {contentType : Option String}
      (htoken : TokenFound request token σ) :
      Finds account request σ (.locFile true contentType) (.checking token contentType)
  | recordToken {token : Option CollectionItemTokenDescription}
      (htoken : ∀ t, token = some t → TokenFound request t σ) :
      Finds account request σ .collection (.recordOf token)
  | recordFile {token : CollectionItemTokenDescription} (hfile : FileFound request σ) :
      Finds account request σ (.recordOf (some token)) (.checking token none)
  | owns {token : CollectionItemTokenDescription} {contentType : Option String} {p : DownloadPhase}
      (howns : Owns account token σ) (hp : Checked p) :
      Finds account request σ (.checking token contentType) p
  | later {p p' : DownloadPhase} (hp : Checked p) (hp' : Checked p') : Finds account request σ p p'
  | sent (haccepts : AcceptsCopies request σ) : Finds account request σ .recording .sent
  | stays {p : DownloadPhase} : Finds account request σ p p

section

variable {account : AccountId} {request : DownloadRequest} {σ : DeliveryState ι} {p p' : DownloadPhase}
  {files : List DeliverableFile} {hash : Hash} {token : Option CollectionItemTokenDescription}

omit [TokenParsers] in
theorem uploaded_of_check (h : checkUploaded files hash = .ok ()) : Uploaded files hash := by
  unfold checkUploaded at h
  split at h
  · cases h
  · next file hfile =>
    obtain ⟨hcid, -⟩ := refused_eq_ok.mp h
    exact ⟨file, hfile, Option.isSome_iff_ne_none.mpr (by simpa using hcid)⟩

omit [TokenParsers] in
theorem checkAllowed_ok {restricted : Bool} {refusal : String} {contentType : Option String}
    (h : checkAllowed account request restricted refusal token contentType = .ok p) :
    restricted = true ∧ ∃ t, token = some t ∧ p = .checking t contentType := by
  unfold checkAllowed at h
  obtain ⟨hrestricted, h⟩ := refused_eq_ok.mp h
  cases token with
  | none => cases h
  | some t =>
    cases h
    exact ⟨not_not.mp hrestricted, t, rfl, rfl⟩

omit [TokenParsers] in
theorem accepts_of_update (h : checkUpdate σ request = .ok ()) : AcceptsCopies request σ := by
  cases request with
  | itemFile | recordFile => trivial
  | collectionFile collectionLocId hash itemId =>
    obtain ⟨l, hl, h⟩ := bind_eq_ok.mp h
    obtain ⟨htype, h⟩ := refused_eq_ok.mp h
    obtain ⟨hstatus, -⟩ := refused_eq_ok.mp h
    exact ⟨l, requireDefined_ok.mp hl, not_not.mp htype, not_not.mp hstatus⟩

theorem finds_of_called (h : called σ request = .ok p) : Finds account request σ .called p := by
  cases request with
  | itemFile collectionLocId itemId hash =>
    simp only [called] at h
    split at h
    · cases h
    · next item hitem =>
      cases h
      exact .published fun hrestricted => ⟨item, hitem, hrestricted⟩
  | collectionFile collectionLocId hash itemId =>
    simp only [called] at h
    obtain ⟨l, hl, h⟩ := bind_eq_ok.mp h
    have hloc : σ.locs collectionLocId = some l := requireDefined_ok.mp (mapError_eq_ok.mp hl)
    split at h
    · cases h
    · next file hfile =>
      obtain ⟨hcid, h⟩ := refused_eq_ok.mp h
      cases h
      refine .locFile trivial fun hrestricted => ⟨l, file, _, hloc, hfile, rfl, ?_, hrestricted⟩
      exact Option.isSome_iff_ne_none.mpr (by simpa using hcid)
  | recordFile collectionLocId recordId hash itemId =>
    simp only [called] at h
    split at h
    · cases h
    · cases h
      exact .collection trivial

theorem finds_of_resume (h : resume σ account request p = .ok p') : Finds account request σ p p' := by
  cases p with
  | called => exact finds_of_called h
  | published restricted =>
    cases request with
    | itemFile collectionLocId itemId hash =>
      simp only [resume] at h
      split at h
      · cases h
      · next item hitem =>
        obtain ⟨_, huploaded, h⟩ := bind_eq_ok.mp h
        obtain ⟨rfl, t, htoken, rfl⟩ := checkAllowed_ok h
        exact .itemToken ⟨item, hitem, uploaded_of_check huploaded⟩ ⟨item, hitem, htoken⟩
    | collectionFile | recordFile =>
      cases h
      exact .stays
  | locFile restricted contentType =>
    simp only [resume] at h
    split at h
    · cases h
    · next item hitem =>
      obtain ⟨rfl, t, htoken, rfl⟩ := checkAllowed_ok h
      exact .locToken ⟨item, hitem, htoken⟩
  | collection =>
    simp only [resume] at h
    split at h
    · cases h
    · next item hitem =>
      cases h
      exact .recordToken fun t ht => ⟨item, hitem, ht⟩
  | recordOf token =>
    cases request with
    | recordFile collectionLocId recordId hash itemId =>
      simp only [resume] at h
      split at h
      · cases h
      · next files hfiles =>
        obtain ⟨_, huploaded, h⟩ := bind_eq_ok.mp h
        cases token with
        | none => cases h
        | some t =>
          cases h
          exact .recordFile ⟨files, hfiles, uploaded_of_check huploaded⟩
    | itemFile | collectionFile =>
      cases h
      exact .stays
  | checking token contentType =>
    simp only [resume] at h
    obtain ⟨isOwner, howner, h⟩ := bind_eq_ok.mp h
    obtain ⟨htrue, h⟩ := refused_eq_ok.mp h
    have howns : Owns account token σ := by
      rw [Owns, mapError_eq_ok.mp howner, not_not.mp htrue]
    cases request with
    | collectionFile collectionLocId hash itemId =>
      obtain ⟨-, h⟩ := refused_eq_ok.mp h
      cases h
      exact .owns howns .described
    | itemFile | recordFile =>
      cases h
      exact .owns howns .owner
  | owner =>
    cases request with
    | itemFile collectionLocId itemId hash =>
      cases h
      exact .later .owner (.dbFile _)
    | collectionFile collectionLocId hash itemId =>
      cases h
      exact .stays
    | recordFile collectionLocId recordId hash itemId =>
      simp only [resume] at h
      split at h
      · cases h
      · cases h
        exact .later .owner (.dbFile _)
  | dbFile file =>
    cases request with
    | itemFile collectionLocId itemId hash =>
      obtain ⟨_, -, h⟩ := bind_eq_ok.mp h
      cases h
      exact .later (.dbFile file) .described
    | collectionFile collectionLocId hash itemId =>
      cases h
      exact .stays
    | recordFile collectionLocId recordId hash itemId =>
      obtain ⟨_, -, h⟩ := bind_eq_ok.mp h
      cases h
      exact .later (.dbFile file) .exporting
  | described =>
    simp only [resume] at h
    split at h
    · cases h
    · cases h
      exact .later .described .exporting
  | exporting =>
    cases h
    exact .later .exporting .recording
  | recording =>
    obtain ⟨_, hupdate, h⟩ := bind_eq_ok.mp h
    cases h
    exact .sent (accepts_of_update (mapError_eq_ok.mp hupdate))
  | sent | rejected =>
    cases h
    exact .stays

/-- The phase from which a copy is sent. -/
theorem Finds.of_sent (h : Finds account request σ p .sent) (hp : p ≠ .sent) :
    p = .recording ∧ AcceptsCopies request σ := by
  cases h with
  | sent haccepts => exact ⟨rfl, haccepts⟩
  | owns _ hchecked => cases hchecked
  | later _ hchecked => cases hchecked
  | stays => exact absurd rfl hp

end

/-! ### Every run -/

section

variable [DecidableEq ι] (calls : ι → DeliveryCall) (s : DeliveryState ι)

/-- The networks say that the requester owns the token, and what gives access has been found before. -/
structure OwnedAt (call : DeliveryCall) (token : CollectionItemTokenDescription) (os : List (Op ι)) :
    Prop where
  published : Sometime (step calls) (Published call.request) s os
  file : Sometime (step calls) (FileFound call.request) s os
  tokenFound : Sometime (step calls) (TokenFound call.request token) s os
  owns : Owns call.authenticated token (run (step calls) s os)

/-- The requester has owned the token of the item. -/
def Entitled (call : DeliveryCall) (os : List (Op ι)) : Prop :=
  ∃ token pre, pre <+: os ∧ OwnedAt calls s call token pre

/-- The copy was recorded for an entitled requester. -/
structure RecordedFor (t : ι) (os : List (Op ι)) : Prop where
  entitled : Entitled calls s (calls t) os
  accepted : Sometime (step calls) (AcceptsCopies (calls t).request) s os

/-- What a download has found so far. -/
def PhaseInv (os : List (Op ι)) (t : ι) : DownloadPhase → Prop
  | .called | .rejected _ => True
  | .published restricted => restricted = true →
      Sometime (step calls) (Published (calls t).request) s os
  | .locFile restricted _ => Sometime (step calls) (Published (calls t).request) s os ∧
      (restricted = true → Sometime (step calls) (FileFound (calls t).request) s os)
  | .collection => Sometime (step calls) (Published (calls t).request) s os
  | .recordOf token => Sometime (step calls) (Published (calls t).request) s os ∧
      ∀ t', token = some t' → Sometime (step calls) (TokenFound (calls t).request t') s os
  | .checking token _ => Sometime (step calls) (Published (calls t).request) s os ∧
      Sometime (step calls) (FileFound (calls t).request) s os ∧
      Sometime (step calls) (TokenFound (calls t).request token) s os
  | .owner | .dbFile _ | .described | .exporting | .recording => Entitled calls s (calls t) os
  | .sent => RecordedFor calls s t os ∧
      Sometime (step calls) (fun σ => (calls t).copy ∈ σ.delivered) s os

variable {calls s} {os : List (Op ι)} {o : Op ι} {t : ι} {p p' : DownloadPhase}

theorem Entitled.concat {call : DeliveryCall} (h : Entitled calls s call os) (o : Op ι) :
    Entitled calls s call (os ++ [o]) := by
  obtain ⟨token, pre, hpre, howned⟩ := h
  exact ⟨token, pre, hpre.trans (List.prefix_append os [o]), howned⟩

theorem RecordedFor.concat (h : RecordedFor calls s t os) (o : Op ι) :
    RecordedFor calls s t (os ++ [o]) :=
  ⟨h.entitled.concat o, h.accepted.concat o⟩

theorem PhaseInv.concat (h : PhaseInv calls s os t p) (o : Op ι) :
    PhaseInv calls s (os ++ [o]) t p := by
  cases p with
  | called | rejected => trivial
  | published restricted => exact fun hrestricted => (h hrestricted).concat o
  | locFile restricted contentType =>
    exact ⟨h.1.concat o, fun hrestricted => (h.2 hrestricted).concat o⟩
  | collection => exact Sometime.concat h o
  | recordOf token => exact ⟨h.1.concat o, fun t' ht => (h.2 t' ht).concat o⟩
  | checking token contentType => exact ⟨h.1.concat o, h.2.1.concat o, h.2.2.concat o⟩
  | owner | dbFile | described | exporting | recording => exact Entitled.concat h o
  | sent => exact ⟨h.1.concat o, h.2.concat o⟩

theorem Checked.phaseInv (hp : Checked p) : PhaseInv calls s os t p ↔ Entitled calls s (calls t) os := by
  cases hp <;> rfl

/-- **One step of a download.** -/
theorem PhaseInv.finds (h : PhaseInv calls s os t p)
    (hfinds : Finds (calls t).authenticated (calls t).request (run (step calls) s os) p p')
    (hp' : p' ≠ .sent) : PhaseInv calls s os t p' := by
  cases hfinds with
  | published hpublished => exact fun hrestricted => sometime_now (hpublished hrestricted)
  | locFile hpublished hfile =>
    exact ⟨sometime_now hpublished, fun hrestricted => sometime_now (hfile hrestricted)⟩
  | collection hpublished => exact sometime_now hpublished
  | itemToken hfile htoken => exact ⟨h rfl, sometime_now hfile, sometime_now htoken⟩
  | locToken htoken => exact ⟨h.1, h.2 rfl, sometime_now htoken⟩
  | recordToken htoken => exact ⟨h, fun t' ht => sometime_now (htoken t' ht)⟩
  | recordFile hfile => exact ⟨h.1, sometime_now hfile, h.2 _ rfl⟩
  | owns howns hp =>
    exact hp.phaseInv.mpr ⟨_, os, List.prefix_refl os, h.1, h.2.1, h.2.2, howns⟩
  | later hp hp' => exact hp'.phaseInv.mpr (hp.phaseInv.mp h)
  | sent => exact absurd rfl hp'
  | stays => exact h

/-- What holds after every run. -/
structure Inv (calls : ι → DeliveryCall) (s : DeliveryState ι) (os : List (Op ι))
    (σ : DeliveryState ι) : Prop where
  phases : ∀ t, PhaseInv calls s os t (σ.phase t)
  copies : ∀ copy ∈ σ.delivered,
    copy ∈ s.delivered ∨ ∃ t, copy = (calls t).copy ∧ RecordedFor calls s t os

theorem inv_start (hs : ∀ t, s.phase t = .called) : Inv calls s [] s := by
  refine ⟨fun t => ?_, fun copy hcopy => .inl hcopy⟩
  rw [hs t]
  trivial

/-- The other operations leave the phases, and add no copy. -/
theorem Inv.others (h : Inv calls s os (run (step calls) s os)) {σ' : DeliveryState ι}
    (hphase : ∀ t, σ'.phase t = (run (step calls) s os).phase t ∨ ∃ e, σ'.phase t = .rejected e)
    (hdelivered : σ'.delivered ⊆ (run (step calls) s os).delivered) :
    Inv calls s (os ++ [o]) σ' := by
  refine ⟨fun t => ?_, fun copy hcopy => ?_⟩
  · rcases hphase t with heq | ⟨e, heq⟩
    · rw [heq]
      exact (h.phases t).concat o
    · rw [heq]
      trivial
  · rcases h.copies copy (hdelivered hcopy) with hold | ⟨t, hcopy, hrecorded⟩
    · exact .inl hold
    · exact .inr ⟨t, hcopy, hrecorded.concat o⟩

omit [TokenParsers] in
theorem update_phase {σ : DeliveryState ι} (p : DownloadPhase) (u : ι) :
    Function.update σ.phase t p u = if u = t then p else σ.phase u := Function.update_apply ..

omit [TokenParsers] in
theorem settle_of_ne {σ : DeliveryState ι} (hp : p ≠ .sent) :
    settle calls σ t (.ok p) = { σ with phase := Function.update σ.phase t p } := by
  cases p with
  | sent => exact absurd rfl hp
  | _ => rfl

/-- A download goes on. -/
theorem Inv.resume (h : Inv calls s os (run (step calls) s os))
    (hstep : step calls (run (step calls) s os) (.resume t) = .ok σ')
    (hended : (run (step calls) s os).phase t ≠ .sent)
    (hσ' : σ' = settle calls (run (step calls) s os) t (Deliveries.resume (run (step calls) s os)
      (calls t).authenticated (calls t).request ((run (step calls) s os).phase t))) :
    Inv calls s (os ++ [.resume t]) σ' := by
  have hrun : run (step calls) s (os ++ [.resume t]) = σ' := by
    rw [run_concat, attempt_of_ok hstep]
  have hold : ∀ copy ∈ (run (step calls) s os).delivered, copy ∈ s.delivered ∨
      ∃ u, copy = (calls u).copy ∧ RecordedFor calls s u (os ++ [.resume t]) := by
    intro copy hcopy
    refine (h.copies copy hcopy).imp_right ?_
    rintro ⟨u, hcopy, hrecorded⟩
    exact ⟨u, hcopy, hrecorded.concat _⟩
  cases hresume : Deliveries.resume (run (step calls) s os) (calls t).authenticated (calls t).request
      ((run (step calls) s os).phase t) with
  | error e =>
    rw [hresume] at hσ'
    subst hσ'
    refine ⟨fun u => ?_, hold⟩
    simp only [settle, update_phase]
    split_ifs
    · trivial
    · exact (h.phases u).concat _
  | ok p' =>
    rw [hresume] at hσ'
    have hfinds := finds_of_resume hresume
    by_cases hsent : p' = .sent
    · obtain ⟨hphase, haccepts⟩ := (hsent ▸ hfinds).of_sent hended
      have hentitled := h.phases t
      rw [hphase] at hentitled
      have hrecorded : RecordedFor calls s t (os ++ [.resume t]) :=
        ⟨Entitled.concat hentitled _, (sometime_now haccepts).concat _⟩
      subst hsent
      refine ⟨fun u => ?_, fun copy hcopy => ?_⟩
      · have hphases : σ'.phase u = if u = t then .sent else (run (step calls) s os).phase u := by
          rw [hσ']
          exact update_phase _ _
        rw [hphases]
        split_ifs with hu
        · subst hu
          refine ⟨hrecorded, sometime_now ?_⟩
          rw [hrun, hσ']
          exact List.mem_append_right _ List.mem_cons_self
        · exact (h.phases u).concat _
      · rw [hσ'] at hcopy
        rcases List.mem_append.mp hcopy with hcopy | hcopy
        · exact hold copy hcopy
        · exact .inr ⟨t, List.mem_singleton.mp hcopy, hrecorded⟩
    · rw [settle_of_ne hsent] at hσ'
      subst hσ'
      refine ⟨fun u => ?_, hold⟩
      simp only [update_phase]
      split_ifs with hu
      · subst hu
        exact ((h.phases u).finds hfinds hsent).concat _
      · exact (h.phases u).concat _

/-- **One step.** -/
theorem inv_step (h : Inv calls s os (run (step calls) s os)) (o : Op ι) :
    Inv calls s (os ++ [o]) (attempt (step calls) (run (step calls) s os) o) := by
  rcases attempt_cases (step calls) (run (step calls) s os) o with ⟨e, -, heq⟩ | hok
  · rw [heq]
    exact h.others (fun t => .inl rfl) (List.Subset.refl _)
  cases o with
  | resume t =>
    have hstep := hok
    rw [step] at hok
    split at hok
    · cases hok
    · cases hok
    · next hsent _ => exact h.resume hstep hsent (Except.ok.inj hok).symm
  | fail t e =>
    rw [step] at hok
    split at hok
    · cases hok
    · cases hok
    · rw [← Except.ok.inj hok]
      refine h.others (fun u => ?_) (List.Subset.refl _)
      simp only [update_phase]
      split_ifs
      · exact .inr ⟨e, rfl⟩
      · exact .inl rfl
  | networks networks => exact h.others (fun t => .inl rfl) (List.Subset.refl _)
  | chain publishedItem publishedRecord => exact h.others (fun t => .inl rfl) (List.Subset.refl _)
  | request locs items records keeps => exact h.others (fun t => .inl rfl) (List.filter_subset_self _)

/-- **Every copy was delivered to an owner**: it was recorded for a requester to whom the networks gave
the token of the item, after the file and the token were found; and no copy is sent before it is
recorded. -/
theorem delivered_to_owners (hs : ∀ t, s.phase t = .called) (os : List (Op ι)) :
    (∀ copy ∈ (run (step calls) s os).delivered,
      copy ∈ s.delivered ∨ ∃ t, copy = (calls t).copy ∧ RecordedFor calls s t os) ∧
    ∀ t, (run (step calls) s os).phase t = .sent → RecordedFor calls s t os ∧
      Sometime (step calls) (fun σ => (calls t).copy ∈ σ.delivered) s os := by
  have hinv : Inv calls s os (run (step calls) s os) :=
    history_induct (inv_start hs) (fun os o h => inv_step h o) os
  refine ⟨hinv.copies, fun t ht => ?_⟩
  have hphase := hinv.phases t
  rwa [ht] at hphase

end

end Deliveries

/-! ### An item with one file -/

/-- Addresses are read as they are, and no text is JSON. -/
@[reducible] def plainParsers : TokenParsers where
  parse _ := none
  fromUnknown text := some (.polkadot text)

def offline : Networks where
  apiKeys _ := false
  getOwnersForNft _ _ _ := .ok []
  getTokenBalances _ _ _ := .ok []
  singularOwners _ := .ok []
  multiversxNft _ _ _ := .ok ⟨none, none⟩
  psp34OwnerOf _ _ _ := .ok none

/-- The item belongs to `alice`. -/
def itemOfAlice : DeliverableItem where
  token := ⟨some "owner", some "alice"⟩
  files := [⟨"0x01", some "copy.pdf", some "application/pdf", some "cid"⟩]

/-- `alice` (`true`) and `bob` (`false`) have called. -/
def aliceAndBobCalled : DeliveryState Bool where
  networks := offline
  publishedItem _ _ := some ⟨true, ["0x01"]⟩
  publishedRecord _ _ := none
  locs id := some {
    id, status := .closed, requester := none, ownerAddress := "olivia", locType := .collection }
  items _ _ := some itemOfAlice
  records _ _ := none
  delivered := []
  phase _ := .called

def byAlice (alice : Bool) : DeliveryCall where
  request := .itemFile "collection" "item" "0x01"
  authenticated := .polkadot (if alice then "alice" else "bob")
  deliveredFileHash := if alice then "0xa1" else "0xb1"
  generatedOn := 1000

section

open Deliveries

attribute [local instance] plainParsers

/-- All the steps of both downloads. -/
def bothDownloads : List (Deliveries.Op Bool) :=
  (List.replicate 8 [Op.resume true, Op.resume false]).flatten

theorem delivered_to_owners_alice :
    (run (step byAlice) aliceAndBobCalled bothDownloads).delivered = [(byAlice true).copy] ∧
      RecordedFor byAlice aliceAndBobCalled true bothDownloads := by
  have hsent : (run (step byAlice) aliceAndBobCalled bothDownloads).phase true = .sent := by
    decide +kernel
  have hdelivered : (run (step byAlice) aliceAndBobCalled bothDownloads).delivered =
      [(byAlice true).copy] := by
    decide +kernel
  exact ⟨hdelivered, ((delivered_to_owners (fun _ => rfl) bothDownloads).2 true hsent).1⟩

end

end Logion
