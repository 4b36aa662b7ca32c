import Logion.Sync.Database

/-!
# Synchronizers — LOCs, votes and account recoveries (`locsynchronization.service.ts`,
`votesynchronization.service.ts`, `accountrecoverysynchronization.service.ts`)

Each synchronizer looks at one extrinsic, skips it when `error()` gives an error, and otherwise
updates the database through the services.  Notifications and logs are left out: they are not awaited,
and their errors are caught.
-/

namespace Logion

open Effect

/-- `LegalOfficerService.isLegalOfficerAddressOnNode`, asked to the authority service, is a parameter
of the model. -/
class LegalOfficers where
  isLegalOfficerAddressOnNode : AccountId → Bool

/-- What the synchronizers do with `error()`: skip the extrinsic when there is one. -/
def unlessError (e : JsonExtrinsic) (x : DbM Unit) : DbM Unit := do
  let error ← liftExcept e.error
  if error.isSome then pure () else x

/-! ### LOCs -/

/-- `LocRequestService.updateIfExists`. -/
def mutateLoc (locId : UUID) (mutator : LocRequest → Except Err LocRequest) : DbM Unit :=
  transactional fun db =>
    match db.findLoc locId with
    | none => .ok none
    | some loc => do
      let loc ← mutator loc
      return some (db.saveLoc locId loc)

def inclusionFee (e : JsonExtrinsic) : Except Err ℕ :=
  match e.partialFee with
  | some fee => .ok fee
  | none => .error (.error "Could not get inclusion fee")

/-- The fee is required, although it is not stored. -/
def handleLocCreation (e : JsonExtrinsic) (locId : UUID) (items : Option LocItems)
    (timestamp : Moment) : DbM Unit := do
  let _ ← liftExcept (inclusionFee e)
  mutateLoc locId fun loc => loc.openLoc timestamp (items.getD emptyItems)

def updateMetadataItem (e : JsonExtrinsic) (nameHash : Hash) (timestamp : Moment)
    (loc : LocRequest) : Except Err LocRequest := do
  let loc := loc.setItemAddedOn .metadata nameHash timestamp
  let fee ← inclusionFee e
  return loc.setMetadataItemFee nameHash fee

def getFileHash (file : FileArg) : Except Err Hash :=
  match file.hash_, file.hash with
  | some hash, _ => .ok hash
  | none, some hash => .ok hash
  | none, none => .error (.error "File has no hash")

def updateFile (e : JsonExtrinsic) (file : FileArg) (timestamp : Moment) (loc : LocRequest) :
    Except Err LocRequest := do
  let hash ← getFileHash file
  let loc := loc.setItemAddedOn .file hash timestamp
  let fee ← inclusionFee e
  loc.setFileFees hash ⟨fee, e.storageFee.map Fee.fee⟩ (e.storageFee.map Fee.withdrawnFrom)

def updateLink (e : JsonExtrinsic) (target : UUID) (timestamp : Moment) (loc : LocRequest) :
    Except Err LocRequest := do
  let loc := loc.setItemAddedOn .link target timestamp
  let fee ← inclusionFee e
  return loc.setLinkFee target fee

def addCollectionItem (collectionLocId : UUID) (itemId : Hash) (timestamp : Moment) : DbM Unit := do
  let loc ← query fun db => db.findLoc collectionLocId
  if loc.isSome then transactional fun db => db.confirmCollectionItem collectionLocId itemId timestamp
  else pure ()

def addTokensRecord (collectionLocId : UUID) (recordId : Hash) (timestamp : Moment) : DbM Unit := do
  let loc ← query fun db => db.findLoc collectionLocId
  if loc.isSome then transactional fun db => db.confirmTokensRecord collectionLocId recordId timestamp
  else pure ()

def getIssuerIdentityLoc (legalOfficerAddress issuerAddress : AccountId) : DbM LocRequest := do
  let identityLocs ← query fun db => db.findIdentityLocs legalOfficerAddress issuerAddress
  match identityLocs.head? with
  | some identityLoc => pure identityLoc
  | none => throw (.error "No Identity LOC available for issuer")

variable [LegalOfficers]

/-- `nominateIssuer` and `dismissIssuer`; a dismissed issuer is unselected from every LOC. -/
def notifyIssuerNominatedDismissed (e : JsonExtrinsic) (nominated : Bool) (issuer : String) :
    DbM Unit := do
  let signer ← liftExcept (requireDefined e.signer)
  let legalOfficerAddress := AccountId.polkadot signer
  if LegalOfficers.isLegalOfficerAddressOnNode legalOfficerAddress then do
    let _ ← getIssuerIdentityLoc legalOfficerAddress (.polkadot issuer)
    if !nominated then transactional fun db => .ok (some (db.unselectAll issuer)) else pure ()
  else pure ()

def handleIssuerSelectedUnselected (e : JsonExtrinsic) (locId : UUID) (issuer : String)
    (selected : Bool) : DbM Unit := do
  let signer ← liftExcept (requireDefined e.signer)
  let legalOfficerAddress := AccountId.polkadot signer
  if LegalOfficers.isLegalOfficerAddressOnNode legalOfficerAddress then do
    let identityLoc ← getIssuerIdentityLoc legalOfficerAddress (.polkadot issuer)
    let loc ← query fun db => db.findLoc locId
    let _ ← liftExcept (requireDefined loc)
    transactional fun db => .ok (db.selectUnselect locId issuer identityLoc.id selected)
  else pure ()

/-- `confirmAcknowledgedFile`, `confirmAcknowledgedMetadata`, `confirmAcknowledgedLink`. -/
def confirmAcknowledgedItem (e : JsonExtrinsic) (k : ItemKind) (locId : UUID) (key : String)
    (timestamp : Moment) : DbM Unit := do
  let signer ← liftExcept (requireDefined e.signer)
  mutateLoc locId fun loc => loc.preAcknowledgeItem k key (.polkadot signer) (some timestamp)

/-- The `switch` on the method. -/
def updateLoc (e : JsonExtrinsic) (timestamp : Moment) : LocCall → DbM Unit
  | .create _ locId items => handleLocCreation e locId items timestamp
  | .addMetadata locId nameHash => mutateLoc locId (updateMetadataItem e nameHash timestamp)
  | .addFile locId file => mutateLoc locId (updateFile e file timestamp)
  | .addLink locId target => mutateLoc locId (updateLink e target timestamp)
  | .close locId | .closeAndSeal locId => mutateLoc locId fun loc => .ok (loc.close timestamp)
  | .makeVoid locId | .makeVoidAndReplace locId =>
    mutateLoc locId fun loc => .ok (loc.voidLoc timestamp)
  | .addCollectionItem collectionLocId itemId
  | .addCollectionItemWithTermsAndConditions collectionLocId itemId =>
    addCollectionItem collectionLocId itemId timestamp
  | .nominateIssuer issuer => notifyIssuerNominatedDismissed e true issuer
  | .dismissIssuer issuer => notifyIssuerNominatedDismissed e false issuer
  | .setIssuerSelection locId issuer selected =>
    handleIssuerSelectedUnselected e locId issuer selected
  | .addTokensRecord collectionLocId recordId => addTokensRecord collectionLocId recordId timestamp
  | .acknowledgeFile locId hash => confirmAcknowledgedItem e .file locId hash timestamp
  | .acknowledgeMetadata locId nameHash =>
    confirmAcknowledgedItem e .metadata locId nameHash timestamp
  | .acknowledgeLink locId target => confirmAcknowledgedItem e .link locId target timestamp
  | .unsynced _ => pure ()
  | .unknown method =>
    throw (.error ("Unexpected method in pallet logionLoc: " ++ method))

def updateLocRequests (e : JsonExtrinsic) (timestamp : Moment) : DbM Unit :=
  match e.call with
  | .logionLoc call => unlessError e (updateLoc e timestamp call)
  | _ => pure ()

/-! ### Votes -/

def extractVoteId (e : JsonExtrinsic) : Except Err String :=
  match (findEventsData e JsonEvent.voteCreated?).head? with
  | some (some voteId) => .ok voteId
  | _ => .error (.error "Failed to find voteId in event")

def addVote (e : JsonExtrinsic) (locId : UUID) (timestamp : Moment) : DbM Unit := do
  let voteId ← liftExcept (extractVoteId e)
  transactional fun db => db.addVote { voteId := voteId, locId := locId, createdOn := timestamp }

def updateVote (e : JsonExtrinsic) : DbM Unit :=
  match (findEventsData e JsonEvent.voteUpdated?).head? with
  | some (some data) => transactional fun db => db.updateVote data
  | _ => throw (.error "Failed to extract VoteUpdated event data")

def updateVotes (e : JsonExtrinsic) (timestamp : Moment) : DbM Unit :=
  match e.call with
  | .vote call => unlessError e <|
    match call with
    | .createVoteForAllLegalOfficers locId => addVote e locId timestamp
    | .vote => updateVote e
    | .other _ => pure ()
  | _ => pure ()

/-! ### Account recoveries -/

/-- One legal officer of a recovery: the accepted requests of the signer are activated one by one. -/
def activateRecoveries (e : JsonExtrinsic) (legalOfficerAddress : String) : DbM Unit := do
  let legalOfficer := AccountId.polkadot legalOfficerAddress
  if LegalOfficers.isLegalOfficerAddressOnNode legalOfficer then do
    let signer ← liftExcept (requireDefined e.signer)
    let requests ← query fun db => db.findAcceptedRecoveries (.polkadot signer) legalOfficer
    forEach (fun request => transactional fun db => db.activateRecovery request.id) requests
  else pure ()

def updateAccountRecoveryRequests (e : JsonExtrinsic) : DbM Unit :=
  match e.call with
  | .verifiedRecovery call => unlessError e <|
    match call with
    | .createRecovery legalOfficers => forEach (activateRecoveries e) legalOfficers
    | .other _ => pure ()
  | _ => pure ()

end Logion
