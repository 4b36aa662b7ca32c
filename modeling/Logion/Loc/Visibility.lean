import Logion.Lib.Sorting
import Logion.Loc.Effects
import Logion.Model.Transaction
import Logion.Store.Children

/-!
# Visibility — what a viewer sees of a LOC (`locrequest.model.ts`, `locrequest.controller.ts`)

* `itemViewable`, `getFiles`, `getMetadataItems`, `getLinks`: the items shown to a viewer, in order.
* `getPublicLoc`, `toPublicView`: what is shown without authentication.
* `ApartFromHidden`: two LOCs with the same items, in the same order, up to those that are hidden; the
  hidden ones take indices among the others.
* `viewed_eq`: the items shown do not depend on the hidden ones.
* `hidden_unseen`: neither do the public view and the lists.
-/

namespace Logion

open Sorting

/-! ### Descriptions -/

/-- `ItemLifecycle`. -/
structure ItemLifecycle where
  status : ItemStatus
  rejectReason : Option String
  reviewedOn : Option Moment
  addedOn : Option Moment
  acknowledgedByOwnerOn : Option Moment
  acknowledgedByVerifiedIssuerOn : Option Moment
  deriving DecidableEq, Repr

/-- `EmbeddableLifecycle.getDescription`. -/
def EmbeddableLifecycle.getDescription (c : EmbeddableLifecycle) : ItemLifecycle where
  status := c.status
  rejectReason := if c.status = .reviewRejected then c.rejectReason else none
  reviewedOn := c.reviewedOn
  addedOn := c.addedOn
  acknowledgedByOwnerOn := c.acknowledgedByOwnerOn
  acknowledgedByVerifiedIssuerOn := c.acknowledgedByVerifiedIssuerOn

/-- `EmbeddableStorageFees.getDescription`. -/
def StorageFees.getDescription (fees : StorageFees) : Fees :=
  { inclusionFee := fees.inclusionFee, storageFee := fees.storageFee }

structure FileDescription where
  name : String
  contentType : Option String
  hash : Hash
  oid : Option ℕ
  cid : Option String
  nature : String
  submitter : AccountId
  restrictedDelivery : Bool
  size : ℕ
  fees : Option Fees
  storageFeePaidBy : Option String
  lifecycle : ItemLifecycle
  deriving DecidableEq, Repr

structure MetadataItemDescription where
  nameHash : Hash
  name : String
  value : String
  submitter : AccountId
  fees : Option Fees
  lifecycle : ItemLifecycle
  deriving DecidableEq, Repr

structure LinkDescription where
  target : UUID
  nature : String
  submitter : AccountId
  fees : Option Fees
  lifecycle : ItemLifecycle
  deriving DecidableEq, Repr

def toFileDescription (file : LocFile) : FileDescription :=
  let data : FileData := file.data
  { name := data.name
    contentType := data.contentType
    hash := file.key
    oid := data.oid
    cid := data.cid
    nature := data.nature
    submitter := file.submitter
    restrictedDelivery := data.restrictedDelivery
    size := data.size
    fees := data.fees.map StorageFees.getDescription
    storageFeePaidBy := data.storageFeePaidBy
    lifecycle := file.lifecycle.getDescription }

def toMetadataItemDescription (item : LocMetadataItem) : MetadataItemDescription :=
  let data : MetadataData := item.data
  { nameHash := item.key
    name := data.name
    value := data.value
    submitter := item.submitter
    fees := data.inclusionFee.map fun fee => { inclusionFee := fee }
    lifecycle := item.lifecycle.getDescription }

def toLinkDescription (link : LocLink) : LinkDescription :=
  let data : LinkData := link.data
  { target := link.key
    nature := data.nature
    submitter := link.submitter
    fees := data.inclusionFee.map fun fee => { inclusionFee := fee }
    lifecycle := link.lifecycle.getDescription }

/-- `orderAndMap` of `collections.ts`. -/
def orderAndMap {k : ItemKind} {β : Type} (items : List (Item k)) (mapper : Item k → β) : List β :=
  (order Item.index items).map mapper

/-! ### Public view -/

structure PublicFile where
  hash : Hash
  nature : String
  addedOn : Option Moment
  submitter : AccountId
  restrictedDelivery : Bool
  contentType : Option String
  deriving DecidableEq, Repr

structure PublicMetadataItem where
  name : String
  nameHash : Hash
  value : String
  addedOn : Option Moment
  submitter : AccountId
  deriving DecidableEq, Repr

structure PublicLink where
  target : UUID
  nature : String
  addedOn : Option Moment
  submitter : AccountId
  deriving DecidableEq, Repr

/-- `LocPublicView`; of the void information only the date is shown. -/
structure LocPublicView where
  id : UUID
  requesterAddress : Option AccountId
  ownerAddress : String
  createdOn : Option Moment
  status : LocRequestStatus
  closedOn : Option Moment
  files : List PublicFile
  metadata : List PublicMetadataItem
  links : List PublicLink
  template : Option String
  voidInfo : Option (Option Moment)
  deriving DecidableEq, Repr

/-- `ForbiddenException`. -/
def forbidden : Err := .error "Forbidden"

namespace LocRequest

def notAcknowledgedItemViewableByRequester (l : LocRequest) (itemStatus : ItemStatus)
    (itemSubmitter : AccountId) : Bool :=
  l.getOwner = itemSubmitter || (itemStatus = .reviewAccepted || itemStatus = .published)

def itemViewable (l : LocRequest) (itemStatus : ItemStatus) (itemSubmitter : AccountId)
    (viewerAddress : Option AccountId) : Bool :=
  if itemStatus = .acknowledged then true
  else match viewerAddress with
    | none => false
    | some viewerAddress => viewerAddress = l.getOwner || viewerAddress = itemSubmitter ||
        (some viewerAddress = l.getRequester &&
          l.notAcknowledgedItemViewableByRequester itemStatus itemSubmitter)

def getFiles (l : LocRequest) (viewerAddress : Option AccountId) : List FileDescription :=
  orderAndMap (l.files.filter fun item => l.itemViewable item.status item.submitter viewerAddress)
    toFileDescription

def getMetadataItems (l : LocRequest) (viewerAddress : Option AccountId) :
    List MetadataItemDescription :=
  orderAndMap
    (l.metadata.filter fun item => l.itemViewable item.status item.submitter viewerAddress)
    toMetadataItemDescription

def getLinks (l : LocRequest) (viewerAddress : Option AccountId) : List LinkDescription :=
  orderAndMap (l.links.filter fun link => l.itemViewable link.status link.submitter viewerAddress)
    toLinkDescription

def toPublicView (l : LocRequest) : LocPublicView where
  id := l.id
  requesterAddress := l.getRequester
  ownerAddress := l.getOwner.address
  createdOn := l.createdOn
  status := l.status
  closedOn := l.closedOn
  files := (l.getFiles none).map fun file => {
    hash := file.hash
    nature := file.nature
    addedOn := file.lifecycle.addedOn
    submitter := file.submitter
    restrictedDelivery := file.restrictedDelivery
    contentType := file.contentType }
  metadata := (l.getMetadataItems none).map fun item => {
    name := item.name
    nameHash := item.nameHash
    value := item.value
    addedOn := item.lifecycle.addedOn
    submitter := item.submitter }
  links := (l.getLinks none).map fun link => {
    target := link.target
    nature := link.nature
    addedOn := link.lifecycle.addedOn
    submitter := link.submitter }
  template := l.template
  voidInfo := l.getVoidInfo.map Prod.snd

/-- `getPublicLoc`, on the LOC that was found. -/
def getPublicLoc (l : LocRequest) : Except Err LocPublicView :=
  if l.status = .opened ∨ l.status = .closed then return l.toPublicView else throw forbidden

/-! ### Two LOCs that differ in hidden items -/

end LocRequest

/-- An item without its place and its markers. -/
def Item.unplaced {k : ItemKind} (item : Item k) : Item k :=
  { item with index := 0, toAdd := false, toUpdate := false }

namespace LocRequest

/-- Two LOCs that differ only in items that are not visible: the others are the same items, in the same
order. -/
structure ApartFromHidden (visible : ItemStatus → AccountId → Bool) (l l' : LocRequest) : Prop where
  rest : l'.withoutItems = l.withoutItems
  visible : ∀ k,
    ((order Item.index (l'.items k)).filter fun item => visible item.status item.submitter).map
        Item.unplaced =
      ((order Item.index (l.items k)).filter fun item => visible item.status item.submitter).map
        Item.unplaced

/-- The viewer is shown the same items. -/
structure SameLists (viewer : Option AccountId) (l l' : LocRequest) : Prop where
  files : l'.getFiles viewer = l.getFiles viewer
  metadata : l'.getMetadataItems viewer = l.getMetadataItems viewer
  links : l'.getLinks viewer = l.getLinks viewer

variable {l l' : LocRequest} {visible : ItemStatus → AccountId → Bool} {viewer : Option AccountId}

theorem itemViewable_of_rest (h : l'.withoutItems = l.withoutItems) (status : ItemStatus)
    (submitter : AccountId) :
    l'.itemViewable status submitter viewer = l.itemViewable status submitter viewer := by
  have howner : l'.ownerAddress = l.ownerAddress := (congrArg LocRequest.ownerAddress h :)
  have hrequester : l'.requester = l.requester := (congrArg LocRequest.requester h :)
  simp only [itemViewable, notAcknowledgedItemViewableByRequester, getOwner, getRequester, howner,
    hrequester]
  rfl

/-- Sorting the items that are shown, or showing the sorted ones. -/
theorem orderAndMap_filter {k : ItemKind} {β : Type} (items : List (Item k)) (p : Item k → Bool)
    (mapper : Item k → β) :
    orderAndMap (items.filter p) mapper = ((order Item.index items).filter p).map mapper := by
  rw [orderAndMap, order, ← filter_mergeSort]
  rfl

/-- **The items shown** do not depend on the hidden ones, when what they are mapped to does not depend
on their place. -/
theorem viewed_eq (h : ApartFromHidden visible l l')
    (hviewable : ∀ status submitter,
      l.itemViewable status submitter viewer = visible status submitter)
    {k : ItemKind} {β : Type} {mapper : Item k → β} (hmapper : ∀ item, mapper item.unplaced = mapper item) :
    orderAndMap ((l'.items k).filter fun item => l'.itemViewable item.status item.submitter viewer)
        mapper =
      orderAndMap ((l.items k).filter fun item => l.itemViewable item.status item.submitter viewer)
        mapper := by
  have hunplaced : ∀ items : List (Item k), items.map mapper = (items.map Item.unplaced).map mapper := by
    intro items
    rw [List.map_map]
    exact List.map_congr_left fun item _ => (hmapper item).symm
  simp only [itemViewable_of_rest h.rest, hviewable]
  rw [orderAndMap_filter, orderAndMap_filter, hunplaced, h.visible k, ← hunplaced]

theorem sameLists_of_apart (h : ApartFromHidden visible l l')
    (hviewable : ∀ status submitter,
      l.itemViewable status submitter viewer = visible status submitter) :
    SameLists viewer l l' where
  files := viewed_eq (k := .file) h hviewable fun _ => rfl
  metadata := viewed_eq (k := .metadata) h hviewable fun _ => rfl
  links := viewed_eq (k := .link) h hviewable fun _ => rfl

/-- What is public but for the items is in the LOC without its items. -/
theorem toPublicView_of_rest (h : l'.withoutItems = l.withoutItems) (hlists : SameLists none l l') :
    l'.toPublicView = l.toPublicView := by
  have hroot : ∀ {α : Type} (field : LocRequest → α), (∀ l, field l.withoutItems = field l) →
      field l' = field l := fun field hfield => by rw [← hfield l', ← hfield l, h]
  have hid := hroot LocRequest.id fun _ => rfl
  have hrequester := hroot getRequester fun _ => rfl
  have howner := hroot getOwner fun _ => rfl
  have hcreated := hroot LocRequest.createdOn fun _ => rfl
  have hstatus := hroot LocRequest.status fun _ => rfl
  have hclosed := hroot LocRequest.closedOn fun _ => rfl
  have htemplate := hroot LocRequest.template fun _ => rfl
  have hvoid := hroot getVoidInfo fun _ => rfl
  simp only [toPublicView, hlists.files, hlists.metadata, hlists.links, hid, hrequester, howner,
    hcreated, hstatus, hclosed, htemplate, hvoid]

/-- **What a viewer sees does not depend on the items hidden from them**: without a viewer, those that
are not acknowledged; for a viewer who is neither owner nor requester, those of them that others
submitted. -/
theorem hidden_unseen (l l' : LocRequest) :
    (ApartFromHidden (fun status _ => status = .acknowledged) l l' →
      l'.getPublicLoc = l.getPublicLoc ∧ SameLists none l l') ∧
    ∀ viewer, viewer ≠ l.getOwner → some viewer ≠ l.getRequester →
      ApartFromHidden (fun status submitter => status = .acknowledged || submitter = viewer) l l' →
        SameLists (some viewer) l l' := by
  refine ⟨fun h => ?_, fun viewer howner hrequester h => ?_⟩
  · have hlists : SameLists none l l' := by
      refine sameLists_of_apart h fun status submitter => ?_
      by_cases hack : status = .acknowledged <;> simp [itemViewable, hack]
    have hstatus : l'.status = l.status := (congrArg LocRequest.status h.rest :)
    refine ⟨?_, hlists⟩
    rw [getPublicLoc, getPublicLoc, hstatus, toPublicView_of_rest h.rest hlists]
  · refine sameLists_of_apart h fun status submitter => ?_
    by_cases hack : status = .acknowledged
    · simp [itemViewable, hack]
    · simp [itemViewable, hack, howner, hrequester, eq_comm]

/-- A link of a verified issuer. -/
def issuersLink (index : ℕ) (target : UUID) (status : ItemStatus) : LocLink where
  key := target
  index := index
  submitter := .polkadot "issuer"
  lifecycle := { status := status }
  data := (⟨"nature", none⟩ : LinkData)

/-- An open LOC with these links. -/
def locWithLinks (links : List LocLink) : LocRequest where
  id := "15ed922d-5960-4147-a73f-97d362cb7c46"
  status := .opened
  requester := some (.polkadot "requester")
  ownerAddress := "owner"
  locType := .transaction
  links := links

/-- The link `a` is acknowledged. -/
def oneLink : LocRequest := locWithLinks [issuersLink 0 "a" .acknowledged]

/-- The link `b` comes before it and is not. -/
def twoLinks : LocRequest :=
  locWithLinks [issuersLink 0 "b" .draft, issuersLink 1 "a" .acknowledged]

theorem twoLinks_apart (hdraft : visible .draft (.polkadot "issuer") = false)
    (hacknowledged : visible .acknowledged (.polkadot "issuer") = true) :
    ApartFromHidden visible oneLink twoLinks := by
  refine ⟨rfl, fun k => ?_⟩
  cases k with
  | metadata => rfl
  | file => rfl
  | link =>
    have hone : order Item.index oneLink.links = oneLink.links :=
      List.mergeSort_of_pairwise (by decide)
    have htwo : order Item.index twoLinks.links = twoLinks.links :=
      List.mergeSort_of_pairwise (by decide)
    change ((order Item.index twoLinks.links).filter _).map _ =
      ((order Item.index oneLink.links).filter _).map _
    rw [hone, htwo]
    simp [oneLink, twoLinks, locWithLinks, issuersLink, hdraft, hacknowledged, Item.unplaced]

/-- Nobody but the owner, the requester and the issuer sees that there is a link `b`. -/
theorem hidden_unseen_twoLinks :
    (twoLinks.getPublicLoc = oneLink.getPublicLoc ∧ SameLists none oneLink twoLinks) ∧
      SameLists (some (.polkadot "anyone")) oneLink twoLinks := by
  have hunseen := hidden_unseen oneLink twoLinks
  exact ⟨hunseen.1 (twoLinks_apart (by decide) (by decide)),
    hunseen.2 _ (by decide) (by decide) (twoLinks_apart (by decide) (by decide))⟩

end LocRequest

end Logion
