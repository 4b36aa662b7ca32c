import Logion.Model.LocItems

/-!
# Extrinsic — calls, events and extrinsics (`types/responses/Extrinsic.ts`)

`Call` is a decoded call (`TypesJsonCall`): the methods that the synchronizers and the transaction
extractor look at carry the arguments these read, any other method only its section and its name.
`JsonEvent` is likewise an event with the data that is read.  `JsonExtrinsic` is what
`ExtrinsicsBuilder` produces for one extrinsic of a block.

The result of `error()` is an `Except`: the function looks up the metadata of the error when it is
called, and may throw then.
-/

namespace Logion

/-! ### Calls -/

/-- The methods that create a LOC. -/
inductive LocCreation
  | createLoc
  | createLogionIdentityLoc
  | createLogionTransactionLoc
  | createPolkadotIdentityLoc
  | createPolkadotTransactionLoc
  | createCollectionLoc
  | createOtherIdentityLoc
  deriving DecidableEq, Repr

def LocCreation.text : LocCreation → String
  | createLoc => "createLoc"
  | createLogionIdentityLoc => "createLogionIdentityLoc"
  | createLogionTransactionLoc => "createLogionTransactionLoc"
  | createPolkadotIdentityLoc => "createPolkadotIdentityLoc"
  | createPolkadotTransactionLoc => "createPolkadotTransactionLoc"
  | createCollectionLoc => "createCollectionLoc"
  | createOtherIdentityLoc => "createOtherIdentityLoc"

/-- The methods with nothing to synchronize. -/
inductive LocUnsynced
  | sponsor
  | withdrawSponsorship
  | setInvitedContributorSelection
  | importLoc
  | importCollectionItem
  | importTokensRecord
  | importInvitedContributorSelection
  | importVerifiedIssuer
  | importVerifiedIssuerSelection
  | importSponsorship
  deriving DecidableEq, Repr

def LocUnsynced.text : LocUnsynced → String
  | sponsor => "sponsor"
  | withdrawSponsorship => "withdrawSponsorship"
  | setInvitedContributorSelection => "setInvitedContributorSelection"
  | importLoc => "importLoc"
  | importCollectionItem => "importCollectionItem"
  | importTokensRecord => "importTokensRecord"
  | importInvitedContributorSelection => "importInvitedContributorSelection"
  | importVerifiedIssuer => "importVerifiedIssuer"
  | importVerifiedIssuerSelection => "importVerifiedIssuerSelection"
  | importSponsorship => "importSponsorship"

/-- The `file` argument of `addFile`: its hash is in `hash_`, or in `hash` in older extrinsics. -/
structure FileArg where
  hash_ : Option Hash
  hash : Option Hash
  deriving DecidableEq, Repr

/-- A call to the pallet `logionLoc`.  The `items` of a creation are `none` when the argument is not
an object; `unknown` is any method that the synchronizer does not name. -/
inductive LocCall
  | create (method : LocCreation) (locId : UUID) (items : Option LocItems)
  | addMetadata (locId : UUID) (nameHash : Hash)
  | addFile (locId : UUID) (file : FileArg)
  | addLink (locId : UUID) (target : UUID)
  | close (locId : UUID)
  | closeAndSeal (locId : UUID)
  | makeVoid (locId : UUID)
  | makeVoidAndReplace (locId : UUID)
  | addCollectionItem (collectionLocId : UUID) (itemId : Hash)
  | addCollectionItemWithTermsAndConditions (collectionLocId : UUID) (itemId : Hash)
  | nominateIssuer (issuer : String)
  | dismissIssuer (issuer : String)
  | setIssuerSelection (locId : UUID) (issuer : String) (selected : Bool)
  | addTokensRecord (collectionLocId : UUID) (recordId : Hash)
  | acknowledgeFile (locId : UUID) (hash : Hash)
  | acknowledgeMetadata (locId : UUID) (nameHash : Hash)
  | acknowledgeLink (locId : UUID) (target : UUID)
  | unsynced (method : LocUnsynced)
  | unknown (method : String)
  deriving DecidableEq, Repr

def LocCall.method : LocCall → String
  | create method .. => method.text
  | addMetadata .. => "addMetadata"
  | addFile .. => "addFile"
  | addLink .. => "addLink"
  | close .. => "close"
  | closeAndSeal .. => "closeAndSeal"
  | makeVoid .. => "makeVoid"
  | makeVoidAndReplace .. => "makeVoidAndReplace"
  | addCollectionItem .. => "addCollectionItem"
  | addCollectionItemWithTermsAndConditions .. => "addCollectionItemWithTermsAndConditions"
  | nominateIssuer .. => "nominateIssuer"
  | dismissIssuer .. => "dismissIssuer"
  | setIssuerSelection .. => "setIssuerSelection"
  | addTokensRecord .. => "addTokensRecord"
  | acknowledgeFile .. => "acknowledgeFile"
  | acknowledgeMetadata .. => "acknowledgeMetadata"
  | acknowledgeLink .. => "acknowledgeLink"
  | unsynced method => method.text
  | unknown method => method

/-- A call to the pallet `vote`. -/
inductive VoteCall
  | createVoteForAllLegalOfficers (locId : UUID)
  | vote
  | other (method : String)
  deriving DecidableEq, Repr

def VoteCall.method : VoteCall → String
  | createVoteForAllLegalOfficers _ => "createVoteForAllLegalOfficers"
  | vote => "vote"
  | other method => method

/-- A call to the pallet `verifiedRecovery`. -/
inductive RecoveryCall
  | createRecovery (legalOfficers : List String)
  | other (method : String)
  deriving DecidableEq, Repr

def RecoveryCall.method : RecoveryCall → String
  | createRecovery _ => "createRecovery"
  | other method => method

/-- A `MultiAddress` argument; only an account id is understood. -/
inductive MultiAddress
  | id (address : String)
  | other
  deriving DecidableEq, Repr

/-- `TypesJsonCall`. -/
inductive Call
  | timestamp (now : ℕ)
  | logionLoc (call : LocCall)
  | vote (call : VoteCall)
  | verifiedRecovery (call : RecoveryCall)
  | batchAll (calls : List Call)
  | batch (calls : List Call)
  | forceBatch (calls : List Call)
  | balances (method : String) (dest : Option MultiAddress)
  | asRecovered (account : Option MultiAddress) (call : Call)
  | approveCall (otherSignatories : List String) (call : Call)
  | sudoCall (method : String)
  | other (pallet method : String)

namespace Call

/-- `call.section`. -/
def pallet : Call → String
  | timestamp _ => "timestamp"
  | logionLoc _ => "logionLoc"
  | vote _ => "vote"
  | verifiedRecovery _ => "verifiedRecovery"
  | batchAll _ | batch _ | forceBatch _ => "utility"
  | balances .. => "balances"
  | asRecovered .. => "recovery"
  | approveCall .. => "vault"
  | sudoCall _ => "sudo"
  | other pallet _ => pallet

def method : Call → String
  | timestamp _ => "set"
  | logionLoc call => call.method
  | vote call => call.method
  | verifiedRecovery call => call.method
  | batchAll _ => "batchAll"
  | batch _ => "batch"
  | forceBatch _ => "forceBatch"
  | balances method _ => method
  | asRecovered .. => "asRecovered"
  | approveCall .. => "approveCall"
  | sudoCall method => method
  | other _ method => method

def isSudo : Call → Bool
  | sudoCall _ => true
  | _ => false

def isBalances : Call → Bool
  | balances .. => true
  | _ => false

/-- The argument `dest`, if the call has one. -/
def dest : Call → Option MultiAddress
  | balances _ dest => dest
  | _ => none

end Call

/-! ### Events -/

/-- The data of a `vote.VoteUpdated` event. -/
structure VoteUpdated where
  voteId : String
  voter : String
  /-- Whether the status of the ballot is `VotedYes`. -/
  votedYes : Bool
  closed : Bool
  approved : Bool
  deriving DecidableEq, Repr

/-- `JsonEvent`.  The data of a vote event, and the amount of a transfer, are `none` when the event
carries fewer values than the code needs. -/
inductive JsonEvent
  | storageFeeWithdrawn (withdrawnFrom : String) (fee : ℕ)
  | legalFeeWithdrawn (withdrawnFrom : String) (beneficiary : Option String) (fee : ℕ)
  | certificateFeeWithdrawn (withdrawnFrom : String) (fee : ℕ)
  | valueFeeWithdrawn (withdrawnFrom : String) (fee : ℕ)
  | collectionItemFeeWithdrawn (withdrawnFrom : String) (fee : ℕ) (beneficiary : Option String)
      (received : ℕ)
  | tokensRecordFeeWithdrawn (withdrawnFrom : String) (fee : ℕ) (beneficiary : Option String)
      (received : ℕ)
  | reserved (account : String) (amount : ℕ)
  | unreserved (account : String) (amount : ℕ)
  | transfer (amount : Option ℕ)
  | voteCreated (voteId : Option String)
  | voteUpdated (data : Option VoteUpdated)
  | other (pallet method : String)
  deriving DecidableEq, Repr

namespace JsonEvent

def reserved? : JsonEvent → Option (String × ℕ)
  | reserved account amount => some (account, amount)
  | _ => none

def unreserved? : JsonEvent → Option (String × ℕ)
  | unreserved account amount => some (account, amount)
  | _ => none

def transfer? : JsonEvent → Option (Option ℕ)
  | transfer amount => some amount
  | _ => none

def voteCreated? : JsonEvent → Option (Option String)
  | voteCreated voteId => some voteId
  | _ => none

def voteUpdated? : JsonEvent → Option (Option VoteUpdated)
  | voteUpdated data => some data
  | _ => none

end JsonEvent

/-! ### Extrinsics -/

structure Fee where
  fee : ℕ
  withdrawnFrom : String
  deriving DecidableEq, Repr

structure FeeWithBeneficiary extends Fee where
  beneficiary : Option String
  deriving DecidableEq, Repr

structure FeeWithBeneficiaryAmount extends FeeWithBeneficiary where
  received : ℕ
  deriving DecidableEq, Repr

structure ExtrinsicError where
  pallet : String
  name : String
  details : String
  deriving DecidableEq, Repr

structure JsonExtrinsic where
  call : Call
  signer : Option String
  tip : Option ℕ := none
  partialFee : Option ℕ := none
  storageFee : Option Fee := none
  legalFee : Option FeeWithBeneficiary := none
  certificateFee : Option Fee := none
  valueFee : Option Fee := none
  collectionItemFee : Option FeeWithBeneficiaryAmount := none
  tokensRecordFee : Option FeeWithBeneficiaryAmount := none
  events : List JsonEvent := []
  error : Except Err (Option ExtrinsicError) := .ok none

/-- `findEventsData`: the data of the events of one kind, in order. -/
def findEventsData {α : Type} (e : JsonExtrinsic) (kind : JsonEvent → Option α) : List α :=
  e.events.filterMap kind

/-- What `requireDefined` throws. -/
def undefinedValue : Err := .error "Value is undefined"

def requireDefined {α : Type} : Option α → Except Err α
  | some a => .ok a
  | none => .error undefinedValue

end Logion
