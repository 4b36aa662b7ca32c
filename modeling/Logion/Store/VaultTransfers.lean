import Logion.Lib.Memo
import Logion.Model.Seal
import Logion.Sync.Database

/-!
# VaultTransfers — the list of vault transfer requests (`vaulttransferrequest.controller.ts`)

`fetchVaultTransferRequests` looks the user data up once for every requester, with the origin and the
legal officer of the first of the requests, and shows them on all the requests of that requester.

* `getUserData`: the identity LOC of the active recovery, or that of the origin.
* `fetchVaultTransferRequests`, `fetch_ok`: what is shown on each request.
* `showsOwnUserData_iff`: it is the request's own user data exactly if all the requests of a requester
  lead to the same identity and address as the first one.
-/

namespace Logion

open Fallible Keyed

/-! ### What the controller reads -/

/-- The part of `AccountRecoveryRequestDescription` that the controller reads. -/
structure AccountRecoveryRequestDescription where
  id : UUID
  status : AccountRecoveryStatus
  requesterAddress : AccountId
  requesterIdentityLocId : UUID
  legalOfficerAddress : AccountId
  addressToRecover : AccountId
  deriving DecidableEq, Repr

/-- `TypesRecoveryConfig` of the node API. -/
structure TypesRecoveryConfig where
  legalOfficers : List AccountId
  deriving DecidableEq, Repr

/-- A LOC, with the identity and the postal address of its description. -/
structure IdentityLoc where
  root : LocRequest
  userIdentity : Option UserIdentity
  userPostalAddress : Option PostalAddress

inductive VaultTransferRequestStatus
  | pending
  | rejected
  | accepted
  | cancelled
  | rejectedCancelled
  deriving DecidableEq, Repr

structure VaultTransferRequestDecision where
  decisionOn : Option Moment := none
  rejectReason : Option String := none
  deriving DecidableEq, Repr

/-- `VaultTransferRequestAggregateRoot`. -/
structure VaultTransferRequest where
  id : UUID
  requesterAddress : String
  legalOfficerAddress : String
  createdOn : Moment
  origin : String
  destination : String
  amount : ℤ
  blockNumber : ℤ
  extrinsicIndex : ℕ
  status : VaultTransferRequestStatus
  decision : VaultTransferRequestDecision
  deriving DecidableEq, Repr

namespace VaultTransferRequest

def getRequester (request : VaultTransferRequest) : AccountId := .polkadot request.requesterAddress

def getLegalOfficer (request : VaultTransferRequest) : AccountId :=
  .polkadot request.legalOfficerAddress

def getOrigin (request : VaultTransferRequest) : AccountId := .polkadot request.origin

def getDestination (request : VaultTransferRequest) : AccountId := .polkadot request.destination

end VaultTransferRequest

/-- The rows of the repositories, in the order of the queries, and the recovery configurations on
chain. -/
structure Registry where
  accountRecoveries : List AccountRecoveryRequestDescription
  locRequests : List IdentityLoc
  getRecoveryConfig : AccountId → Option TypesRecoveryConfig

structure UserPrivateData where
  identityLocId : UUID
  userIdentity : Option UserIdentity
  userPostalAddress : Option PostalAddress
  deriving DecidableEq, Repr

structure UserData where
  requesterAddress : AccountId
  userPrivateData : UserPrivateData
  activeRecovery : Option AccountRecoveryRequestDescription
  activeProtection : Option TypesRecoveryConfig
  deriving DecidableEq, Repr

structure VaultTransferRequestView where
  id : UUID
  createdOn : Moment
  amount : ℤ
  origin : String
  destination : String
  block : ℤ
  index : ℕ
  rejectReason : String
  decisionOn : Option Moment
  status : VaultTransferRequestStatus
  requesterIdentity : Option UserIdentity
  requesterPostalAddress : Option PostalAddress
  deriving DecidableEq, Repr

namespace Registry

variable (r : Registry)

/-! ### Repositories -/

/-- `locRequestRepository.findById`. -/
def findById (id : UUID) : Option IdentityLoc := r.locRequests.find? fun loc => loc.root.id = id

def getValidPolkadotIdentityLoc (requester owner : AccountId) : Option IdentityLoc :=
  (r.locRequests.filter fun loc => loc.root.locType = .identity ∧
    loc.root.getRequester = some requester ∧ loc.root.getOwner = owner ∧
    loc.root.status = .closed).find? fun loc => loc.root.getVoidInfo.isNone

/-! ### The controller -/

def findActiveRecovery (requesterAddress legalOfficerAddress : AccountId) :
    Option AccountRecoveryRequestDescription :=
  (r.accountRecoveries.filter fun request => request.requesterAddress = requesterAddress ∧
    request.legalOfficerAddress = legalOfficerAddress ∧ request.status = .activated).head?

def notProtected : Err := .badRequest "Requester is not protected"

def getProtectionAndRecoveryData (requester origin legalOfficerAddress : AccountId) :
    Except Err (Option AccountRecoveryRequestDescription × Option TypesRecoveryConfig) :=
  let activeRecovery := r.findActiveRecovery requester legalOfficerAddress
  let activeProtection := r.getRecoveryConfig origin
  if activeRecovery.isNone ∧ activeProtection.isNone then throw notProtected
  else return (activeRecovery, activeProtection)

def getUserDataFromProtection (requester origin legalOfficerAddress : AccountId)
    (activeRecovery : Option AccountRecoveryRequestDescription)
    (activeProtection : Option TypesRecoveryConfig) : Except Err UserData :=
  if activeRecovery.isNone ∧ activeProtection.isNone then throw notProtected
  else do
    let identityLoc ← match activeRecovery with
      | some recovery => requireDefined (r.findById recovery.requesterIdentityLocId)
      | none => requireDefined (r.getValidPolkadotIdentityLoc origin legalOfficerAddress)
    return {
      requesterAddress := requester
      userPrivateData := {
        identityLocId := identityLoc.root.id
        userIdentity := identityLoc.userIdentity
        userPostalAddress := identityLoc.userPostalAddress }
      activeRecovery
      activeProtection }

def getUserData (requester origin legalOfficerAddress : AccountId) : Except Err UserData := do
  let (activeRecovery, activeProtection) ←
    r.getProtectionAndRecoveryData requester origin legalOfficerAddress
  r.getUserDataFromProtection requester origin legalOfficerAddress activeRecovery activeProtection

/-- The user data of a request, with its own requester, origin and legal officer. -/
def userDataOf (request : VaultTransferRequest) : Except Err UserData :=
  r.getUserData request.getRequester request.getOrigin request.getLegalOfficer

end Registry

def VaultTransferRequest.adapt (request : VaultTransferRequest) (userPrivateData : UserPrivateData) :
    VaultTransferRequestView where
  id := request.id
  createdOn := request.createdOn
  amount := request.amount
  origin := request.getOrigin.address
  destination := request.getDestination.address
  block := request.blockNumber
  index := request.extrinsicIndex
  rejectReason := request.decision.rejectReason.getD ""
  decisionOn := request.decision.decisionOn
  status := request.status
  requesterIdentity := userPrivateData.userIdentity
  requesterPostalAddress := userPrivateData.userPostalAddress

/-- The key of `userDataMap`. -/
def VaultTransferRequest.requesterKey (request : VaultTransferRequest) : String :=
  request.getRequester.address

namespace Registry

variable (r : Registry)

/-- The first loop: `userDataMap[...] ||= await this.getUserData(...)`. -/
def fillUserDataMap (requests : List VaultTransferRequest) : Except Err (String → Option UserData) :=
  Memo.fill VaultTransferRequest.requesterKey r.userDataOf (fun _ => none) requests

/-- `fetchVaultTransferRequests`, on the requests that the repository has returned. -/
def fetchVaultTransferRequests (requests : List VaultTransferRequest) :
    Except Err (List VaultTransferRequestView) := do
  let userDataMap ← r.fillUserDataMap requests
  requests.mapM fun request =>
    match userDataMap request.requesterKey with
    | some userData => return request.adapt userData.userPrivateData
    | none => throw (.error "Cannot read properties of undefined (reading 'userPrivateData')")

/-! ### What is shown -/

/-- The view shows this user data. -/
def Shows (view : VaultTransferRequestView) (userData : UserData) : Prop :=
  view.requesterIdentity = userData.userPrivateData.userIdentity ∧
    view.requesterPostalAddress = userData.userPrivateData.userPostalAddress

/-- Every view shows the user data of its own request. -/
def ShowsOwnUserData (requests : List VaultTransferRequest) : Prop :=
  ∀ views, r.fetchVaultTransferRequests requests = .ok views →
    List.Forall₂ (fun request view => ∃ userData, r.userDataOf request = .ok userData ∧
      Shows view userData) requests views

/-- The first request of the list with the requester of this one. -/
def firstOf (requests : List VaultTransferRequest) (request : VaultTransferRequest) :
    Option VaultTransferRequest :=
  lookup VaultTransferRequest.requesterKey request.requesterKey requests

/-- The user data of both can be looked up, with the same identity and address. -/
def SameUser (request other : VaultTransferRequest) : Prop :=
  ∃ userData otherData, r.userDataOf request = .ok userData ∧ r.userDataOf other = .ok otherData ∧
    userData.userPrivateData.userIdentity = otherData.userPrivateData.userIdentity ∧
    userData.userPrivateData.userPostalAddress = otherData.userPrivateData.userPostalAddress

/-- If the user data of the first request of every requester can be looked up, those of the other ones
are the same. -/
def SharesUserData (requests : List VaultTransferRequest) : Prop :=
  (∀ request ∈ requests, ∀ first, firstOf requests request = some first →
      Returns (r.userDataOf first)) →
    ∀ request ∈ requests, ∀ first, firstOf requests request = some first → r.SameUser request first

variable {r : Registry} {requests : List VaultTransferRequest} {views : List VaultTransferRequestView}

/-- **What is shown on each request**: the user data of the first request with its requester. -/
theorem fetch_ok (h : r.fetchVaultTransferRequests requests = .ok views) :
    List.Forall₂ (fun request view => ∃ first userData, firstOf requests request = some first ∧
      r.userDataOf first = .ok userData ∧ Shows view userData) requests views := by
  obtain ⟨userDataMap, hfill, hviews⟩ := bind_eq_ok.mp h
  refine (mapM_eq_ok.mp hviews).imp fun request view hview => ?_
  have hentry := Memo.fill_entry hfill request.requesterKey
  rw [Option.none_or] at hentry
  cases hdata : userDataMap request.requesterKey with
  | none =>
    rw [hdata] at hview
    cases hview
  | some userData =>
    rw [hdata] at hview hentry
    cases hview
    obtain ⟨first, hfirst, hreturned⟩ := Option.bind_eq_some_iff.mp hentry.symm
    cases hown : r.userDataOf first with
    | error e =>
      rw [hown] at hreturned
      cases hreturned
    | ok firstData =>
      rw [hown] at hreturned
      cases hreturned
      exact ⟨first, userData, hfirst, hown, rfl, rfl⟩

theorem firstOf_isSome {request : VaultTransferRequest} (h : request ∈ requests) :
    ∃ first, firstOf requests request = some first :=
  Option.isSome_iff_exists.mp (lookup_isSome.mpr (List.mem_map_of_mem h))

/-- **When the list is shown**: the user data of the first request of every requester can be looked
up. -/
theorem fetch_returns : Returns (r.fetchVaultTransferRequests requests) ↔
    ∀ request ∈ requests, ∀ first, firstOf requests request = some first →
      Returns (r.userDataOf first) := by
  constructor
  · rintro ⟨views, h⟩ request hmem first hfirst
    obtain ⟨view, -, first', userData, hfirst', hdata, -⟩ := forall₂_mem_left (fetch_ok h) hmem
    obtain rfl : first' = first := Option.some.inj (hfirst'.symm.trans hfirst)
    exact ⟨userData, hdata⟩
  · intro h
    have hfill : Returns (r.fillUserDataMap requests) := by
      refine Memo.fill_returns.mpr fun k _ first hfirst => ?_
      have hkey : first.requesterKey = k := lookup_key hfirst
      refine h first (mem_of_lookup hfirst) first ?_
      rwa [firstOf, hkey]
    obtain ⟨userDataMap, hfill⟩ := hfill
    refine returns_bind.mpr ⟨userDataMap, hfill, mapM_returns.mpr fun request hmem => ?_⟩
    obtain ⟨first, hfirst⟩ := firstOf_isSome hmem
    obtain ⟨userData, hdata⟩ := h request hmem first hfirst
    have hentry := Memo.fill_entry hfill request.requesterKey
    have hlookup : lookup VaultTransferRequest.requesterKey request.requesterKey requests =
        some first := hfirst
    rw [Option.none_or, hlookup, Option.bind_some, hdata] at hentry
    rw [hentry]
    exact returns_ok _

/-- **The views show each request's own user data exactly if the requests of one requester share
theirs.** -/
theorem showsOwnUserData_iff (r : Registry) (requests : List VaultTransferRequest) :
    r.ShowsOwnUserData requests ↔ r.SharesUserData requests := by
  constructor
  · intro h hfirsts request hmem first hfirst
    obtain ⟨views, hviews⟩ := fetch_returns.mpr hfirsts
    have hboth := forall₂_and (h views hviews) (fetch_ok hviews)
    obtain ⟨view, -, ⟨userData, hown, hidentity, haddress⟩, first', firstData, hfirst', hdata,
      hidentity', haddress'⟩ := forall₂_mem_left hboth hmem
    obtain rfl : first' = first := Option.some.inj (hfirst'.symm.trans hfirst)
    exact ⟨userData, firstData, hown, hdata, hidentity.symm.trans hidentity',
      haddress.symm.trans haddress'⟩
  · intro h views hviews
    have hsame := h (fetch_returns.mp ⟨views, hviews⟩)
    refine (List.forall₂_and_left _ _).mpr ⟨fun request hmem => hmem, fetch_ok hviews⟩ |>.imp ?_
    rintro request view ⟨hmem, first, firstData, hfirst, hdata, hidentity, haddress⟩
    obtain ⟨userData, firstData', hown, hdata', hidentity', haddress'⟩ := hsame request hmem first hfirst
    obtain rfl : firstData' = firstData := Except.ok.inj (hdata'.symm.trans hdata)
    exact ⟨userData, hown, hidentity.trans hidentity'.symm, haddress.trans haddress'.symm⟩

/-! ### A user who has moved -/

/-- The identity LOC that Alice has closed with one of her legal officers. -/
def identityOfAlice (id legalOfficer line1 : String) : IdentityLoc where
  root := {
    id
    status := .closed
    requester := some (.polkadot "alice")
    ownerAddress := legalOfficer
    locType := .identity }
  userIdentity := none
  userPostalAddress := some ⟨line1, "", "4000", "Liège", "Belgium"⟩

/-- Alice is protected by two legal officers, and has told the second one her new address. -/
def protectedAlice : Registry where
  accountRecoveries := []
  locRequests := [identityOfAlice "l1" "charlie" "Place de l'Ours, 2",
    identityOfAlice "l2" "dave" "Rue de la Paix, 1"]
  getRecoveryConfig account :=
    if account = .polkadot "alice" then some ⟨[.polkadot "charlie", .polkadot "dave"]⟩ else none

/-- A transfer from Alice's own vault. -/
def transferOfAlice (id legalOfficer : String) (blockNumber : ℤ) : VaultTransferRequest where
  id
  requesterAddress := "alice"
  legalOfficerAddress := legalOfficer
  createdOn := 0
  origin := "alice"
  destination := "bob"
  amount := 10
  blockNumber
  extrinsicIndex := 1
  status := .pending
  decision := {}

/-- The second request is shown with the address of the first one. -/
theorem ownUserData_notShown :
    (Returns (protectedAlice.fetchVaultTransferRequests
      [transferOfAlice "v1" "charlie" 1, transferOfAlice "v2" "dave" 2])) ∧
    ¬ protectedAlice.ShowsOwnUserData
      [transferOfAlice "v1" "charlie" 1, transferOfAlice "v2" "dave" 2] := by
  have hviews : ∃ views, protectedAlice.fetchVaultTransferRequests
      [transferOfAlice "v1" "charlie" 1, transferOfAlice "v2" "dave" 2] = .ok views ∧
      (views.map fun view => view.requesterPostalAddress.map PostalAddress.line1) =
        [some "Place de l'Ours, 2", some "Place de l'Ours, 2"] := ⟨_, rfl, by decide⟩
  have hown : (protectedAlice.userDataOf (transferOfAlice "v2" "dave" 2)).toOption.map
      (fun userData => userData.userPrivateData.userPostalAddress.map PostalAddress.line1) =
        some (some "Rue de la Paix, 1") := by decide
  obtain ⟨views, hviews, hlines⟩ := hviews
  refine ⟨⟨views, hviews⟩, fun h => ?_⟩
  obtain ⟨_, _, -, hrest, rfl⟩ := List.forall₂_cons_left_iff.mp (h views hviews)
  obtain ⟨view, _, ⟨userData, hdata, -, haddress⟩, -, rfl⟩ := List.forall₂_cons_left_iff.mp hrest
  rw [hdata] at hown
  have hline : userData.userPrivateData.userPostalAddress.map PostalAddress.line1 =
      some "Rue de la Paix, 1" := Option.some.inj hown
  rw [← haddress] at hline
  simp [hline] at hlines

end Registry

end Logion
