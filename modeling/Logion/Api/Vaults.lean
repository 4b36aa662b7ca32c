import Logion.Api.LocRegistry
import Logion.Store.AccountRecoveries
import Logion.Store.VaultTransfers

/-!
# Vaults — account recoveries and vault transfers together (`account_recovery.controller.ts`,
`vaulttransferrequest.controller.ts`)

A transfer out of a vault is requested by the owner of the vault, or by who has recovered his account,
and is decided by the legal officer.  The controllers read the two tables, the identity LOCs and the
chain one after the other, the synchronization of a `createRecovery` extrinsic activates recoveries
meanwhile, and every `update` reads the row, changes it, reads it again and writes what differs.

* `VaultTransferRequest.accept`, `reject`, `cancel`, `resubmit`: the changes of a transfer.
* `VaultPending`: a request between two accesses to the database or to the chain.
* `Vaults`, `Vaults.step`: the two tables with all the requests in flight, one event.

Notifications and views are left out.  A request may fail at any time, on a text that is no address or no
number too.
-/

namespace Logion

open Fallible

/-! ### Rows -/

namespace AccountRecoveryRequest

/-- The fields of the description that the controllers read. -/
def getDescription (r : AccountRecoveryRequest) : Except Err AccountRecoveryRequestDescription := do
  let _ ← requireDefined r.createdOn
  let addressToRecover ← requireDefined r.addressToRecover
  return {
    id := r.id
    status := r.status
    requesterAddress := r.getRequester
    requesterIdentityLocId := r.requesterIdentityLocId
    legalOfficerAddress := r.getLegalOfficer
    addressToRecover := .polkadot addressToRecover }

/-- The primary key. -/
def clash (r r' : AccountRecoveryRequest) : Prop := r.id = r'.id

instance : DecidableRel clash := fun r r' => inferInstanceAs (Decidable (r.id = r'.id))

end AccountRecoveryRequest

def LocRequest.isValidPolkadotIdentityLocOrThrow (l : LocRequest) (requesterAddress ownerAddress : AccountId) :
    Except Err Unit :=
  if ¬ (l.isValidIdentityLoc = true ∧ l.getRequester = some requesterAddress ∧ l.getOwner = ownerAddress) then
    throw (.badRequest "Identity LOC not valid")
  else return ()

namespace VaultTransferRequest

variable (r : VaultTransferRequest)

def reject (reason : String) (decisionOn : Moment) : Except Err VaultTransferRequest :=
  if r.status ≠ .pending then throw (.error "Request is not pending")
  else return { r with status := .rejected, decision := ⟨some decisionOn, some reason⟩ }

def accept (decisionOn : Moment) : Except Err VaultTransferRequest :=
  if r.status ≠ .pending then throw (.error "Request is not pending")
  else return { r with
    status := .accepted, decision := { r.decision with decisionOn := some decisionOn } }

def cancel (decisionOn : Moment) : Except Err VaultTransferRequest :=
  if r.status ≠ .pending ∧ r.status ≠ .rejected then
    throw (.error "Request is not pending or rejected")
  else return { r with
    status := if r.status = .pending then .cancelled else .rejectedCancelled
    decision := { r.decision with decisionOn := some decisionOn } }

/-- `clear()` leaves both columns of the decision `undefined`. -/
def resubmit : Except Err VaultTransferRequest :=
  if r.status ≠ .rejected then throw (.error "Request is not rejected")
  else return { r with status := .pending, decision := {} }

/-- The row after the UPDATE of a save; the columns that are `undefined` are not written. -/
def write (entity : VaultTransferRequest) (cleared : Bool) (reread current : VaultTransferRequest) :
    VaultTransferRequest where
  id := current.id
  requesterAddress :=
    writeColumn entity.requesterAddress reread.requesterAddress current.requesterAddress
  legalOfficerAddress :=
    writeColumn entity.legalOfficerAddress reread.legalOfficerAddress current.legalOfficerAddress
  createdOn := writeColumn entity.createdOn reread.createdOn current.createdOn
  origin := writeColumn entity.origin reread.origin current.origin
  destination := writeColumn entity.destination reread.destination current.destination
  amount := writeColumn entity.amount reread.amount current.amount
  blockNumber := writeColumn entity.blockNumber reread.blockNumber current.blockNumber
  extrinsicIndex := writeColumn entity.extrinsicIndex reread.extrinsicIndex current.extrinsicIndex
  status := writeColumn entity.status reread.status current.status
  decision :=
    if cleared then current.decision
    else {
      decisionOn := writeColumn entity.decision.decisionOn reread.decision.decisionOn
        current.decision.decisionOn
      rejectReason := writeColumn entity.decision.rejectReason reread.decision.rejectReason
        current.decision.rejectReason }

/-- The primary key, and the unique index on the block and the extrinsic. -/
def clash (r r' : VaultTransferRequest) : Prop :=
  r.id = r'.id ∨ (r.blockNumber = r'.blockNumber ∧ r.extrinsicIndex = r'.extrinsicIndex)

instance : DecidableRel clash := fun r r' =>
  inferInstanceAs (Decidable (r.id = r'.id ∨ _))

end VaultTransferRequest

/-! ### Requests -/

/-- `CreateAccountRecoveryRequestView`, with addresses that are valid. -/
structure CreateAccountRecoveryRequestView where
  requesterIdentityLoc : Option UUID
  legalOfficerAddress : Option String
  otherLegalOfficerAddress : String
  addressToRecover : String

/-- `CreateVaultTransferRequestView`, with addresses and numbers that are valid. -/
structure CreateVaultTransferRequestView where
  origin : Option String
  destination : Option String
  legalOfficerAddress : Option String
  amount : ℤ
  block : ℤ
  index : ℕ

/-- `acceptRequest`, `rejectRequest` and `cancel` of account recoveries. -/
inductive RecoveryAction
  | accept
  | reject (rejectReason : String)
  | cancel
  deriving DecidableEq

/-- The action, in the name of the user. -/
def RecoveryAction.inNameOf (user : AccountId) : RecoveryAction → AccountRecoveries.Call
  | .accept => .accept user
  | .reject rejectReason => .reject user rejectReason
  | .cancel => .cancel user

/-- Accepting and rejecting are for the legal officers of the node. -/
def RecoveryAction.isDecision : RecoveryAction → Bool
  | .accept | .reject _ => true
  | .cancel => false

/-- The four updates of a vault transfer. -/
inductive TransferAction
  | accept
  | reject (rejectReason : String)
  | cancel
  | resubmit
  deriving DecidableEq

namespace TransferAction

def isDecision : TransferAction → Bool
  | .accept | .reject _ => true
  | .cancel | .resubmit => false

/-- The mutator that the action hands to `update`. -/
def mutate (user : AccountId) (now : Moment) (r : VaultTransferRequest) :
    TransferAction → Except ApiErr VaultTransferRequest
  | .accept => do
    AuthenticatedUser.require (user = r.getLegalOfficer) ""
    thrown (r.accept now)
  | .reject rejectReason => do
    AuthenticatedUser.require (user = r.getLegalOfficer) ""
    thrown (r.reject rejectReason now)
  | .cancel => do
    AuthenticatedUser.require (user = r.getRequester) ""
    thrown (r.cancel now)
  | .resubmit => do
    AuthenticatedUser.require (user = r.getRequester) ""
    thrown r.resubmit

/-- The change leaves the columns of the decision `undefined`. -/
def isCleared (action : TransferAction) : Bool := action = resubmit

end TransferAction

/-- A transfer request once its first checks were passed, with its requester. -/
structure TransferCreation where
  requester : AccountId
  row : VaultTransferRequest

/-- The synchronization of a `createRecovery` extrinsic: the requests that are still to be activated for
one legal officer, and the other legal officers. -/
structure Activation where
  signer : String
  requests : List UUID
  legalOfficers : List String
  deriving DecidableEq

/-- A request between two accesses to the database or to the chain. -/
inductive VaultPending
  /-- `newAccountRecoveryRequest` has still to find the identity LOC. -/
  | requesting (requester : AccountId) (row : AccountRecoveryRequest)
  /-- `createVaultTransferRequest` has still to find the active recovery of the requester. -/
  | authorizing (creation : TransferCreation)
  /-- It has still to ask for the recovery configuration of the origin. -/
  | protecting (creation : TransferCreation) (activeRecovery : Option AccountRecoveryRequestDescription)
  /-- It has still to find the identity LOC. -/
  | identifying (creation : TransferCreation)
      (activeRecovery : Option AccountRecoveryRequestDescription)
  /-- An instance is to be saved: a new one, or one that an update has changed. -/
  | savingTransfer (row : VaultTransferRequest) (cleared : Bool)
  /-- Its row was read again. -/
  | writingTransfer (row : VaultTransferRequest) (cleared : Bool) (reread : Option VaultTransferRequest)
  /-- The same for a recovery, with what the synchronization does next. -/
  | savingRecovery (row : AccountRecoveryRequest) (next : Option Activation)
  | writingRecovery (row : AccountRecoveryRequest) (reread : Option AccountRecoveryRequest)
      (next : Option Activation)
  | activating (activation : Activation)

/-- What can happen: a request comes in, a `createRecovery` extrinsic is synchronized, a request goes on
or fails, the table of the recoveries answers in another order, or the LOCs and the recovery
configurations on chain change. -/
inductive VaultEvent
  | createRequest (id : ℕ) (user : AuthenticatedUser) (uuid : UUID)
      (body : CreateAccountRecoveryRequestView) (now : Moment)
  | createVaultTransferRequest (id : ℕ) (user : AuthenticatedUser) (uuid : UUID)
      (body : CreateVaultTransferRequestView) (now : Moment)
  | updateRecovery (id : ℕ) (user : AuthenticatedUser) (action : RecoveryAction) (requestId : UUID)
      (now : Moment)
  | updateTransfer (id : ℕ) (user : AuthenticatedUser) (action : TransferAction) (requestId : UUID)
      (now : Moment)
  | createRecovery (id : ℕ) (signer : String) (legalOfficers : List String)
  | resume (id : ℕ)
  | fail (id : ℕ)
  | shuffle (recoveries : List AccountRecoveryRequest)
  | others (locRequests : List IdentityLoc) (getRecoveryConfig : AccountId → Option TypesRecoveryConfig)

/-- The tables, the identity LOCs and the recovery configurations, and the requests in flight. -/
structure Vaults where
  recoveries : List AccountRecoveryRequest
  transfers : List VaultTransferRequest
  locRequests : List IdentityLoc
  getRecoveryConfig : AccountId → Option TypesRecoveryConfig
  inFlight : ℕ → Option VaultPending

namespace Vaults

/-- A node without requests. -/
def start (locRequests : List IdentityLoc) (getRecoveryConfig : AccountId → Option TypesRecoveryConfig) :
    Vaults where
  recoveries := []
  transfers := []
  locRequests
  getRecoveryConfig
  inFlight := fun _ => none

/-- A request is at this point, or over. -/
def moved (σ : Vaults) (id : ℕ) (p : Option VaultPending) : Vaults :=
  { σ with inFlight := Function.update σ.inFlight id p }

/-- The repositories and the chain, as the controllers of the transfers read them. -/
def registry (σ : Vaults) : Registry where
  accountRecoveries := σ.recoveries.filterMap fun r => r.getDescription.toOption
  locRequests := σ.locRequests
  getRecoveryConfig := σ.getRecoveryConfig

def findRecovery (σ : Vaults) (id : UUID) : Option AccountRecoveryRequest :=
  σ.recoveries.find? fun r => r.id = id

def findTransfer (σ : Vaults) (id : UUID) : Option VaultTransferRequest :=
  σ.transfers.find? fun r => r.id = id

/-- A statement of PostgreSQL, with the constraints of its table. -/
def execute {ρ : Type} (clash : ρ → ρ → Prop) [DecidableRel clash] (statement : Table.Statement ρ)
    (rows : List ρ) : Except ApiErr (List ρ) :=
  (statement.exec clash rows).mapError fun _ => .thrown (.error "QueryFailedError")

/-! ### Updates -/

def updateRecovery (σ : Vaults) (user : AuthenticatedUser) (action : RecoveryAction) (requestId : UUID)
    (now : Moment) : Except ApiErr AccountRecoveryRequest := do
  AuthenticatedUser.require (!action.isDecision || user.isLegalOfficerOnNode) ""
  let item ← thrown (requireDefined (σ.findRecovery requestId))
  ((action.inNameOf user.validAccountId).mutate now item).mapError fun e =>
    (e.map ApiErr.thrown).getD (.unauthorized "")

def updateTransfer (σ : Vaults) (user : AuthenticatedUser) (action : TransferAction) (requestId : UUID)
    (now : Moment) : Except ApiErr VaultTransferRequest := do
  AuthenticatedUser.require (!action.isDecision || user.isLegalOfficerOnNode) ""
  let item ← thrown (requireDefined (σ.findTransfer requestId))
  action.mutate user.validAccountId now item

/-- `save`, after the row was read again. -/
def saveRecovery (row : AccountRecoveryRequest) :
    Option AccountRecoveryRequest → Table.Statement AccountRecoveryRequest
  | none => .insert row
  | some reread => .update (fun r => r.id = row.id) (row.write reread)

def saveTransfer (row : VaultTransferRequest) (cleared : Bool) :
    Option VaultTransferRequest → Table.Statement VaultTransferRequest
  | none => .insert row
  | some reread => .update (fun r => r.id = row.id) (row.write cleared reread)

/-! ### Account recoveries -/

/-- The check of `newAccountRecoveryRequest`. -/
def checkIdentityLoc (σ : Vaults) (requester : AccountId) (row : AccountRecoveryRequest) :
    Except ApiErr Unit :=
  match σ.registry.findById row.requesterIdentityLocId with
  | none => throw (.thrown (.badRequest "Identity LOC not found"))
  | some identityLoc =>
    thrown (identityLoc.root.isValidPolkadotIdentityLocOrThrow requester row.getLegalOfficer)

/-! ### Vault transfers -/

/-- `findActiveRecovery`: the first of the rows. -/
def findActiveRecovery (σ : Vaults) (row : VaultTransferRequest) :
    Except ApiErr (Option AccountRecoveryRequestDescription) :=
  match σ.recoveries.find? fun r => r.requesterAddress = row.requesterAddress ∧
    r.legalOfficerAddress = row.legalOfficerAddress ∧ r.status = .activated with
  | none => return none
  | some r => thrown (some <$> r.getDescription)

/-- The rest of `getProtectionAndRecoveryData`, and the check of `userAuthorizedAndProtected`. -/
def checkAuthorized (σ : Vaults) (creation : TransferCreation)
    (activeRecovery : Option AccountRecoveryRequestDescription) : Except ApiErr Unit :=
  if activeRecovery.isNone ∧ (σ.getRecoveryConfig creation.row.getOrigin).isNone then
    throw (.thrown Registry.notProtected)
  else AuthenticatedUser.require (creation.requester = creation.row.getOrigin ||
    activeRecovery.any fun recovery => creation.row.getOrigin = recovery.addressToRecover) ""

/-- `getUserDataFromProtection`. -/
def checkIdentified (σ : Vaults) (row : VaultTransferRequest)
    (activeRecovery : Option AccountRecoveryRequestDescription) : Except ApiErr IdentityLoc :=
  thrown (requireDefined (
    match activeRecovery with
    | some recovery => σ.registry.findById recovery.requesterIdentityLocId
    | none => σ.registry.getValidPolkadotIdentityLoc row.getOrigin row.getLegalOfficer))

section

variable [LegalOfficers]

def onNode (address : Option String) : Bool :=
  (nonEmpty address).any fun address => LegalOfficers.isLegalOfficerAddressOnNode (.polkadot address)

/-- `createRequest`, up to the factory: the row that this makes of its parameters. -/
def createRequest (user : AuthenticatedUser) (uuid : UUID) (body : CreateAccountRecoveryRequestView)
    (now : Moment) : Except ApiErr AccountRecoveryRequest := do
  let legalOfficer ← requireLegalOfficerAddressOnNode body.legalOfficerAddress
    (onNode body.legalOfficerAddress)
  let requesterIdentityLoc ← thrown (requireDefined body.requesterIdentityLoc)
  return newAccountRecoveryRequest {
    id := uuid
    requesterAddress := user.validAccountId.address
    requesterIdentityLoc
    legalOfficerAddress := legalOfficer.address
    otherLegalOfficerAddress := body.otherLegalOfficerAddress
    createdOn := now
    addressToRecover := body.addressToRecover }

/-- `createVaultTransferRequest`, up to `userAuthorizedAndProtected`: the row that the factory will
make. -/
def createVaultTransferRequest (user : AuthenticatedUser) (uuid : UUID)
    (body : CreateVaultTransferRequestView) (now : Moment) : Except ApiErr VaultTransferRequest := do
  let origin ← (
    match body.origin with
    | some origin => return origin
    | none => throw (.thrown (.badRequest "Missing origin")))
  let destination ← (
    match body.destination with
    | some destination => return destination
    | none => throw (.thrown (.badRequest "Missing destination")))
  let legalOfficer ← requireLegalOfficerAddressOnNode body.legalOfficerAddress
    (onNode body.legalOfficerAddress)
  return {
    id := uuid
    requesterAddress := user.validAccountId.address
    legalOfficerAddress := legalOfficer.address
    createdOn := now
    origin
    destination
    amount := body.amount
    blockNumber := body.block
    extrinsicIndex := body.index
    status := .pending
    decision := {} }

/-- The loops of `updateAccountRecoveryRequests`, up to the next save. -/
def activate (σ : Vaults) (a : Activation) : Except ApiErr (Option VaultPending) :=
  match a.requests, a.legalOfficers with
  | id :: requests, _ => do
    let item ← thrown (requireDefined (σ.findRecovery id))
    return some (.savingRecovery item.setActivated (some { a with requests }))
  | [], legalOfficer :: legalOfficers =>
    if LegalOfficers.isLegalOfficerAddressOnNode (.polkadot legalOfficer) then
      let selected := σ.recoveries.filter fun r => r.requesterAddress = a.signer ∧
        r.legalOfficerAddress = legalOfficer ∧ r.status = .accepted
      return some (.activating { a with requests := selected.map (·.id), legalOfficers })
    else return some (.activating { a with legalOfficers })
  | [], [] => return none

/-! ### Events -/

/-- The code of a request up to its next access. -/
def proceed (σ : Vaults) : VaultPending → Except ApiErr (Vaults × Option VaultPending)
  | .requesting requester row => do
    σ.checkIdentityLoc requester row
    return (σ, some (.savingRecovery row none))
  | .authorizing creation => do
    let activeRecovery ← σ.findActiveRecovery creation.row
    return (σ, some (.protecting creation activeRecovery))
  | .protecting creation activeRecovery => do
    σ.checkAuthorized creation activeRecovery
    return (σ, some (.identifying creation activeRecovery))
  | .identifying creation activeRecovery => do
    let _ ← σ.checkIdentified creation.row activeRecovery
    return (σ, some (.savingTransfer creation.row false))
  | .savingTransfer row cleared =>
    return (σ, some (.writingTransfer row cleared (σ.findTransfer row.id)))
  | .writingTransfer row cleared reread => do
    let transfers ← execute VaultTransferRequest.clash (saveTransfer row cleared reread) σ.transfers
    return ({ σ with transfers }, none)
  | .savingRecovery row next => return (σ, some (.writingRecovery row (σ.findRecovery row.id) next))
  | .writingRecovery row reread next => do
    let recoveries ← execute AccountRecoveryRequest.clash (saveRecovery row reread) σ.recoveries
    return ({ σ with recoveries }, next.map .activating)
  | .activating activation => do
    let next ← σ.activate activation
    return (σ, next)

/-- One event.  A request that throws at its first checks was never in flight. -/
def step (σ : Vaults) : VaultEvent → Except ApiErr Vaults
  | .createRequest id user uuid body now => do
    let row ← createRequest user uuid body now
    return σ.moved id (some (.requesting user.validAccountId row))
  | .createVaultTransferRequest id user uuid body now => do
    let row ← createVaultTransferRequest user uuid body now
    return σ.moved id (some (.authorizing ⟨user.validAccountId, row⟩))
  | .updateRecovery id user action requestId now => do
    let row ← σ.updateRecovery user action requestId now
    return σ.moved id (some (.savingRecovery row none))
  | .updateTransfer id user action requestId now => do
    let row ← σ.updateTransfer user action requestId now
    return σ.moved id (some (.savingTransfer row action.isCleared))
  | .createRecovery id signer legalOfficers =>
    return σ.moved id (some (.activating ⟨signer, [], legalOfficers⟩))
  | .resume id =>
    match σ.inFlight id with
    | none => return σ
    | some p =>
      match σ.proceed p with
      | .ok (σ', next) => return σ'.moved id next
      | .error _ => return σ.moved id none
  | .fail id => return σ.moved id none
  | .shuffle recoveries => if recoveries.Perm σ.recoveries then return { σ with recoveries } else return σ
  | .others locRequests getRecoveryConfig => return { σ with locRequests, getRecoveryConfig }

end

end Vaults

/-- The identifier that `uuid()` returns in an event. -/
def VaultEvent.uuid : VaultEvent → Option UUID
  | .createRequest _ _ uuid _ _ | .createVaultTransferRequest _ _ uuid _ _ => some uuid
  | _ => none

end Logion
