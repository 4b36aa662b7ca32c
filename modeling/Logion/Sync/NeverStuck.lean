import Logion.Loc.Effects
import Logion.Sync.Synchronizers

/-!
# NeverStuck — which LOC extrinsics stop the synchronization

An exception of `updateLocRequests` stops the loop over the blocks.  `LocCall.Known` says, method by
method, what the database must know for the synchronizer to accept a successful extrinsic;
`LocCall.unrelated` is the database without the rows that a call is about.

* `openLoc_returns`: when the chain-side opening of a LOC is accepted.
* `updateLoc_completes`: the exact condition for every method.
* `updateLoc_unrelated`: the frame of every method.
* `notStuck_iff`: the contract.
-/

namespace Logion

open Effect Fallible Keyed

/-! ### Opening a LOC -/

namespace LocRequest

variable {l l' : LocRequest} {k k' : ItemKind} {key key' : String}

/-- `prePublishOrAcknowledge` accepts the item. -/
def Publishable (l : LocRequest) (k : ItemKind) (key : String) : Prop :=
  ∃ item, l.item? k key = some item ∧ (item.status = .reviewAccepted ∨
    item.status = EmbeddableLifecycle.acknowledgedOrPublished (l.isPublishAcknowledge item.submitter))

/-- `openLoc` accepts the items: the LOC is not in a status in which they are published, or each of
them is known and can be published. -/
def OpensWith (l : LocRequest) (items : LocItems) : Prop :=
  l.status = .reviewAccepted ∨ l.status = .opened →
    ∀ k, ∀ key ∈ items.keys k, l.Publishable k key

/-- The publication of one item, as `prePublishOrAcknowledgeItems` makes it. -/
abbrev publishItem (addedOn : Moment) (k : ItemKind) (l : LocRequest) (key : String) :
    Except Err LocRequest :=
  l.mutateLifecycle k key fun item =>
    item.lifecycle.prePublishOrAcknowledge (l.isPublishAcknowledge item.submitter) (some addedOn)

variable {addedOn : Moment}

theorem publishItem_returns : Returns (publishItem addedOn k l key) ↔ l.Publishable k key := by
  rw [publishItem, mutateLifecycle_returns]
  exact exists_congr fun item => and_congr_right fun _ =>
    EmbeddableLifecycle.prePublishOrAcknowledge_returns

/-- Publishing an item changes neither which items are publishable nor who publishes them. -/
theorem publishItem_publishable (h : publishItem addedOn k l key = .ok l') :
    l'.Publishable k' key' ↔ l.Publishable k' key' := by
  obtain ⟨item, c, hitem, hc, hone⟩ := mutateLifecycle_ok h
  obtain ⟨hst, rfl⟩ := EmbeddableLifecycle.prePublishOrAcknowledge_ok hc
  have hack : ∀ submitter, l'.isPublishAcknowledge submitter = l.isPublishAcknowledge submitter := by
    intro submitter
    unfold isPublishAcknowledge isOwner getOwner
    rw [owner_of_withoutItems hone.rest]
  unfold Publishable
  by_cases hk : k' = k ∧ key' = key
  · obtain ⟨rfl, rfl⟩ := hk
    rw [hone.item_self, hitem]
    refine iff_of_true ⟨_, rfl, .inr ?_⟩ ⟨item, rfl, hst⟩
    rw [hack]
  · rw [hone.item_of_ne hk]
    simp only [hack]

theorem publishItems_publishable {keys : List String}
    (h : keys.foldlM (publishItem addedOn k) l = .ok l') :
    l'.Publishable k' key' ↔ l.Publishable k' key' := by
  induction keys generalizing l with
  | nil => cases h; rfl
  | cons key keys ih =>
    rw [List.foldlM_cons] at h
    obtain ⟨l₁, h1, h⟩ := bind_eq_ok.mp h
    rw [ih h, publishItem_publishable h1]

theorem publishItems_returns {keys : List String} :
    Returns (keys.foldlM (publishItem addedOn k) l) ↔ ∀ key ∈ keys, l.Publishable k key := by
  induction keys generalizing l with
  | nil => simp
  | cons key keys ih =>
    rw [List.foldlM_cons, returns_bind, List.forall_mem_cons, ← publishItem_returns]
    constructor
    · rintro ⟨l₁, h1, h2⟩
      exact ⟨⟨l₁, h1⟩, fun key' hmem => (publishItem_publishable h1).mp (ih.mp h2 key' hmem)⟩
    · rintro ⟨⟨l₁, h1⟩, h2⟩
      exact ⟨l₁, h1, ih.mpr fun key' hmem => (publishItem_publishable h1).mpr (h2 key' hmem)⟩

theorem prePublishOrAcknowledgeItems_returns {items : LocItems} :
    Returns (l.prePublishOrAcknowledgeItems addedOn items) ↔
      ∀ k, ∀ key ∈ items.keys k, l.Publishable k key := by
  have hsplit : Returns (l.prePublishOrAcknowledgeItems addedOn items) ↔
      ∃ l₁, items.fileHashes.foldlM (publishItem addedOn .file) l = .ok l₁ ∧
        ∃ l₂, items.metadataNameHashes.foldlM (publishItem addedOn .metadata) l₁ = .ok l₂ ∧
          Returns (items.linkTargets.foldlM (publishItem addedOn .link) l₂) := by
    unfold prePublishOrAcknowledgeItems
    rw [returns_bind]
    exact exists_congr fun l₁ => and_congr_right fun _ => returns_bind
  rw [hsplit]
  constructor
  · rintro ⟨l₁, h1, l₂, h2, h3⟩ k key hmem
    cases k with
    | file => exact publishItems_returns.mp ⟨l₁, h1⟩ key hmem
    | metadata =>
      exact (publishItems_publishable h1).mp (publishItems_returns.mp ⟨l₂, h2⟩ key hmem)
    | link =>
      exact (publishItems_publishable h1).mp
        ((publishItems_publishable h2).mp (publishItems_returns.mp h3 key hmem))
  · intro h
    obtain ⟨l₁, h1⟩ : Returns (items.fileHashes.foldlM (publishItem addedOn .file) l) :=
      publishItems_returns.mpr (h .file)
    obtain ⟨l₂, h2⟩ : Returns (items.metadataNameHashes.foldlM (publishItem addedOn .metadata) l₁) :=
      publishItems_returns.mpr fun key hmem => (publishItems_publishable h1).mpr (h .metadata key hmem)
    refine ⟨l₁, h1, l₂, h2, publishItems_returns.mpr fun key hmem => ?_⟩
    rw [publishItems_publishable h2, publishItems_publishable h1]
    exact h .link key hmem

/-- **When the chain-side opening is accepted.** -/
theorem openLoc_returns {items : LocItems} :
    Returns (l.openLoc addedOn items) ↔ l.OpensWith items := by
  unfold openLoc OpensWith
  dsimp only
  by_cases hst : l.status = .reviewAccepted ∨ l.status = .opened
  · rw [if_pos hst, prePublishOrAcknowledgeItems_returns]
    exact ⟨fun h _ => h, fun h => h hst⟩
  · rw [if_neg hst]
    exact iff_of_true (returns_ok _) fun h => absurd h hst

end LocRequest

/-! ### What a call needs, and what it is about -/

namespace LocCall

/-- A well-formed call to a method that the synchronizer names: it is signed where the method reads
the signer, and the file of `addFile` has a hash. -/
def WellFormed (signer : Option String) : LocCall → Prop
  | addFile _ file => file.hash_.isSome ∨ file.hash.isSome
  | nominateIssuer _ | dismissIssuer _ | setIssuerSelection .. | acknowledgeFile ..
  | acknowledgeMetadata .. | acknowledgeLink .. => signer.isSome
  | unknown _ => False
  | _ => True

/-- The item is known, the contributor may acknowledge it, and it is published or acknowledged. -/
def Acknowledgeable (loc : LocRequest) (k : ItemKind) (key : String) (contributor : AccountId) :
    Prop :=
  ∃ item, loc.item? k key = some item ∧ loc.canPreAcknowledge item.submitter contributor = true ∧
    (item.status = .published ∨ item.status = .acknowledged)

variable [LegalOfficers]

/-- The signer is a legal officer of this node. -/
def LocalLegalOfficer (e : JsonExtrinsic) (legalOfficer : AccountId) : Prop :=
  e.signer.map .polkadot = some legalOfficer ∧
    LegalOfficers.isLegalOfficerAddressOnNode legalOfficer = true

/-- What the database must know for the call to be accepted. -/
def Known (e : JsonExtrinsic) (db : Database) : LocCall → Prop
  | create _ locId items => e.partialFee.isSome ∧
      ∀ loc, db.findLoc locId = some loc → loc.OpensWith (items.getD emptyItems)
  | addMetadata locId _ | addLink locId _ => (db.findLoc locId).isSome → e.partialFee.isSome
  | addFile locId file => ∀ loc, db.findLoc locId = some loc → e.partialFee.isSome ∧
      ∃ hash, getFileHash file = .ok hash ∧ (loc.item? .file hash).isSome
  | addCollectionItem collectionLocId itemId
  | addCollectionItemWithTermsAndConditions collectionLocId itemId =>
      (db.findLoc collectionLocId).isSome →
        ∃ item, lookup CollectionItem.key (collectionLocId, itemId) db.collectionItems = some item ∧
          item.addedOn = none
  | addTokensRecord collectionLocId recordId => (db.findLoc collectionLocId).isSome →
      ∃ record, lookup TokensRecord.key (collectionLocId, recordId) db.tokensRecords = some record ∧
        record.addedOn = none
  | nominateIssuer issuer | dismissIssuer issuer => ∀ legalOfficer, LocalLegalOfficer e legalOfficer →
      db.findIdentityLocs legalOfficer (.polkadot issuer) ≠ []
  | setIssuerSelection locId issuer _ => ∀ legalOfficer, LocalLegalOfficer e legalOfficer →
      db.findIdentityLocs legalOfficer (.polkadot issuer) ≠ [] ∧ (db.findLoc locId).isSome
  | acknowledgeFile locId hash => ∀ signer, e.signer = some signer →
      ∀ loc, db.findLoc locId = some loc → Acknowledgeable loc .file hash (.polkadot signer)
  | acknowledgeMetadata locId nameHash => ∀ signer, e.signer = some signer →
      ∀ loc, db.findLoc locId = some loc → Acknowledgeable loc .metadata nameHash (.polkadot signer)
  | acknowledgeLink locId target => ∀ signer, e.signer = some signer →
      ∀ loc, db.findLoc locId = some loc → Acknowledgeable loc .link target (.polkadot signer)
  | close _ | closeAndSeal _ | makeVoid _ | makeVoidAndReplace _ | unsynced _ | unknown _ => True

omit [LegalOfficers] in
/-- The database without the rows that the call is about. -/
def unrelated (db : Database) : LocCall → Database
  | create _ locId _ | addMetadata locId _ | addFile locId _ | addLink locId _ | close locId
  | closeAndSeal locId | makeVoid locId | makeVoidAndReplace locId | acknowledgeFile locId _
  | acknowledgeMetadata locId _ | acknowledgeLink locId _ =>
    { db with locRequests := db.locRequests.filter (fun loc => loc.id ≠ locId) }
  | addCollectionItem collectionLocId itemId
  | addCollectionItemWithTermsAndConditions collectionLocId itemId =>
    { db with
      collectionItems :=
        db.collectionItems.filter (fun item => item.key ≠ (collectionLocId, itemId)) }
  | addTokensRecord collectionLocId recordId =>
    { db with
      tokensRecords := db.tokensRecords.filter (fun record => record.key ≠ (collectionLocId, recordId)) }
  | dismissIssuer issuer =>
    { db with
      issuerSelections := db.issuerSelections.filter (fun selection => selection.issuer ≠ issuer) }
  | setIssuerSelection locId issuer _ =>
    { db with
      issuerSelections :=
        db.issuerSelections.filter (fun selection => selection.key ≠ (locId, issuer)) }
  | nominateIssuer _ | unsynced _ | unknown _ => db

end LocCall

/-! ### When each handler completes -/

section

variable {e : JsonExtrinsic} {s : Store} {locId : UUID} {timestamp : Moment}
  {mutator : LocRequest → Except Err LocRequest}

theorem completes_mutateLoc : Completes (mutateLoc locId mutator) s ↔
    ∀ loc, s.db.findLoc locId = some loc → Returns (mutator loc) := by
  rw [mutateLoc, completes_transactional]
  cases h : s.db.findLoc locId with
  | none => simp
  | some loc =>
    simp only [Option.some.injEq, forall_eq']
    exact returns_map

theorem inclusionFee_returns : Returns (inclusionFee e) ↔ e.partialFee.isSome := by
  unfold inclusionFee
  cases e.partialFee <;> simp

theorem inclusionFee_ok {fee : ℕ} : inclusionFee e = .ok fee ↔ e.partialFee = some fee := by
  unfold inclusionFee
  cases e.partialFee <;> simp

theorem completes_handleLocCreation {items : Option LocItems} :
    Completes (handleLocCreation e locId items timestamp) s ↔ e.partialFee.isSome ∧
      ∀ loc, s.db.findLoc locId = some loc → loc.OpensWith (items.getD emptyItems) := by
  rw [handleLocCreation, completes_liftExcept_bind, completes_mutateLoc, ← inclusionFee_returns]
  simp only [LocRequest.openLoc_returns]
  exact ⟨fun ⟨fee, h1, h2⟩ => ⟨⟨fee, h1⟩, h2⟩, fun ⟨⟨fee, h1⟩, h2⟩ => ⟨fee, h1, h2⟩⟩

theorem updateMetadataItem_returns {nameHash : Hash} {loc : LocRequest} :
    Returns (updateMetadataItem e nameHash timestamp loc) ↔ e.partialFee.isSome := by
  rw [← inclusionFee_returns]
  exact returns_map

theorem updateLink_returns {target : UUID} {loc : LocRequest} :
    Returns (updateLink e target timestamp loc) ↔ e.partialFee.isSome := by
  rw [← inclusionFee_returns]
  exact returns_map

theorem updateFile_returns {file : FileArg} {loc : LocRequest} :
    Returns (updateFile e file timestamp loc) ↔ e.partialFee.isSome ∧
      ∃ hash, getFileHash file = .ok hash ∧ (loc.item? .file hash).isSome := by
  have hfees : ∀ hash fee, Returns ((loc.setItemAddedOn .file hash timestamp).setFileFees hash
      ⟨fee, e.storageFee.map Fee.fee⟩ (e.storageFee.map Fee.withdrawnFrom)) ↔
        (loc.item? .file hash).isSome := by
    intro hash fee
    rw [LocRequest.setFileFees, LocRequest.mutateItem_returns,
      (LocRequest.setItemAddedOn_oneItem timestamp).item_self]
    cases loc.item? .file hash <;> simp
  unfold updateFile
  rw [returns_bind]
  simp only [returns_bind, hfees, inclusionFee_ok]
  constructor
  · rintro ⟨hash, h1, fee, h2, h3⟩
    exact ⟨by rw [h2]; rfl, hash, h1, h3⟩
  · rintro ⟨h2, hash, h1, h3⟩
    obtain ⟨fee, h2⟩ := Option.isSome_iff_exists.mp h2
    exact ⟨hash, h1, fee, h2, h3⟩

theorem confirm_returns {addedOn : Option Moment} :
    Returns (confirm addedOn timestamp) ↔ addedOn = none := by
  unfold confirm
  cases addedOn <;> simp

theorem requireDefined_ok {α : Type} {o : Option α} {a : α} :
    requireDefined o = .ok a ↔ o = some a := by
  cases o <;> simp [requireDefined]

theorem completes_addCollectionItem {itemId : Hash} :
    Completes (addCollectionItem locId itemId timestamp) s ↔ ((s.db.findLoc locId).isSome →
      ∃ item, lookup CollectionItem.key (locId, itemId) s.db.collectionItems = some item ∧
        item.addedOn = none) := by
  rw [addCollectionItem, completes_query_bind]
  by_cases hloc : (s.db.findLoc locId).isSome = true
  · rw [if_pos hloc, completes_transactional, Database.confirmCollectionItem, returns_bind]
    simp only [hloc, forall_const, requireDefined_ok]
    exact exists_congr fun item => and_congr_right fun _ => returns_map.trans confirm_returns
  · rw [if_neg hloc]
    exact iff_of_true (completes_pure () s) fun h => absurd h hloc

theorem completes_addTokensRecord {recordId : Hash} :
    Completes (addTokensRecord locId recordId timestamp) s ↔ ((s.db.findLoc locId).isSome →
      ∃ record, lookup TokensRecord.key (locId, recordId) s.db.tokensRecords = some record ∧
        record.addedOn = none) := by
  rw [addTokensRecord, completes_query_bind]
  by_cases hloc : (s.db.findLoc locId).isSome = true
  · rw [if_pos hloc, completes_transactional, Database.confirmTokensRecord, returns_bind]
    simp only [hloc, forall_const, requireDefined_ok]
    exact exists_congr fun record => and_congr_right fun _ => returns_map.trans confirm_returns
  · rw [if_neg hloc]
    exact iff_of_true (completes_pure () s) fun h => absurd h hloc

theorem completes_getIssuerIdentityLoc_bind {owner issuer : AccountId} {f : LocRequest → DbM Unit} :
    Completes (getIssuerIdentityLoc owner issuer >>= f) s ↔
      ∃ loc, (s.db.findIdentityLocs owner issuer).head? = some loc ∧ Completes (f loc) s := by
  rw [completes_bind, getIssuerIdentityLoc, exec_bind_ok (exec_query _)]
  cases (s.db.findIdentityLocs owner issuer).head? with
  | none => simp
  | some loc => simp

theorem head?_exists {α : Type} {xs : List α} : (∃ x, xs.head? = some x) ↔ xs ≠ [] := by
  cases xs <;> simp

variable [LegalOfficers]

theorem completes_notifyIssuer {nominated : Bool} {issuer signer : String}
    (hsigner : e.signer = some signer) :
    Completes (notifyIssuerNominatedDismissed e nominated issuer) s ↔
      (LegalOfficers.isLegalOfficerAddressOnNode (.polkadot signer) = true →
        s.db.findIdentityLocs (.polkadot signer) (.polkadot issuer) ≠ []) := by
  rw [notifyIssuerNominatedDismissed, completes_liftExcept_bind, hsigner]
  simp only [requireDefined, Except.ok.injEq, exists_eq_left']
  by_cases hlo : LegalOfficers.isLegalOfficerAddressOnNode (.polkadot signer) = true
  · rw [if_pos hlo, completes_getIssuerIdentityLoc_bind, ← head?_exists]
    simp only [hlo, forall_const]
    refine exists_congr fun loc => and_iff_left ?_
    cases nominated with
    | true => exact completes_pure () s
    | false =>
      rw [Bool.not_false, if_pos rfl, completes_transactional]
      exact returns_ok _
  · rw [if_neg hlo]
    exact iff_of_true (completes_pure () s) fun h => absurd h hlo

theorem completes_handleIssuerSelected {issuer signer : String} {selected : Bool}
    (hsigner : e.signer = some signer) :
    Completes (handleIssuerSelectedUnselected e locId issuer selected) s ↔
      (LegalOfficers.isLegalOfficerAddressOnNode (.polkadot signer) = true →
        s.db.findIdentityLocs (.polkadot signer) (.polkadot issuer) ≠ [] ∧
          (s.db.findLoc locId).isSome) := by
  rw [handleIssuerSelectedUnselected, completes_liftExcept_bind, hsigner]
  simp only [requireDefined, Except.ok.injEq, exists_eq_left']
  by_cases hlo : LegalOfficers.isLegalOfficerAddressOnNode (.polkadot signer) = true
  · rw [if_pos hlo, completes_getIssuerIdentityLoc_bind, ← head?_exists, ← exists_and_right]
    simp only [hlo, forall_const]
    refine exists_congr fun loc => and_congr_right fun _ => ?_
    rw [completes_query_bind, completes_liftExcept_bind]
    cases s.db.findLoc locId with
    | none => simp
    | some loc =>
      simp only [Option.isSome_some, iff_true]
      refine ⟨loc, rfl, ?_⟩
      rw [completes_transactional]
      exact returns_ok _
  · rw [if_neg hlo]
    exact iff_of_true (completes_pure () s) fun h => absurd h hlo

omit [LegalOfficers] in
theorem completes_confirmAcknowledged {k : ItemKind} {key signer : String}
    (hsigner : e.signer = some signer) :
    Completes (confirmAcknowledgedItem e k locId key timestamp) s ↔
      ∀ loc, s.db.findLoc locId = some loc →
        LocCall.Acknowledgeable loc k key (.polkadot signer) := by
  rw [confirmAcknowledgedItem, completes_liftExcept_bind, hsigner]
  simp only [requireDefined, Except.ok.injEq, exists_eq_left', completes_mutateLoc,
    LocRequest.preAcknowledgeItem_returns, LocCall.Acknowledgeable]

/-- **The exact condition**, method by method. -/
theorem updateLoc_completes {call : LocCall} (hwf : call.WellFormed e.signer) :
    Completes (updateLoc e timestamp call) s ↔ call.Known e s.db := by
  -- a legal officer who signs is the signer
  have hlocal : ∀ {signer : String} {P : AccountId → Prop}, e.signer = some signer →
      ((∀ legalOfficer, LocCall.LocalLegalOfficer e legalOfficer → P legalOfficer) ↔
        (LegalOfficers.isLegalOfficerAddressOnNode (.polkadot signer) = true →
          P (.polkadot signer))) := by
    intro signer P hsigner
    unfold LocCall.LocalLegalOfficer
    rw [hsigner]
    exact ⟨fun h hlo => h _ ⟨rfl, hlo⟩, fun h lo ⟨h1, h2⟩ => by cases h1; exact h h2⟩
  cases call with
  | create method locId items => exact completes_handleLocCreation
  | addMetadata locId nameHash =>
    rw [updateLoc, completes_mutateLoc]
    simp only [updateMetadataItem_returns, LocCall.Known]
    cases s.db.findLoc locId <;> simp
  | addLink locId target =>
    rw [updateLoc, completes_mutateLoc]
    simp only [updateLink_returns, LocCall.Known]
    cases s.db.findLoc locId <;> simp
  | addFile locId file =>
    rw [updateLoc, completes_mutateLoc]
    simp only [updateFile_returns, LocCall.Known]
  | close locId | closeAndSeal locId =>
    exact iff_of_true (completes_mutateLoc.mpr fun loc _ => returns_ok _) trivial
  | makeVoid locId | makeVoidAndReplace locId =>
    exact iff_of_true (completes_mutateLoc.mpr fun loc _ => returns_ok _) trivial
  | addCollectionItem collectionLocId itemId
  | addCollectionItemWithTermsAndConditions collectionLocId itemId =>
    exact completes_addCollectionItem
  | addTokensRecord collectionLocId recordId => exact completes_addTokensRecord
  | nominateIssuer issuer | dismissIssuer issuer =>
    obtain ⟨signer, hsigner⟩ := Option.isSome_iff_exists.mp hwf
    rw [updateLoc, completes_notifyIssuer hsigner]
    exact (hlocal (P := fun owner => s.db.findIdentityLocs owner (.polkadot issuer) ≠ []) hsigner).symm
  | setIssuerSelection locId issuer selected =>
    obtain ⟨signer, hsigner⟩ := Option.isSome_iff_exists.mp hwf
    rw [updateLoc, completes_handleIssuerSelected hsigner]
    exact (hlocal (P := fun owner => s.db.findIdentityLocs owner (.polkadot issuer) ≠ [] ∧
      (s.db.findLoc locId).isSome) hsigner).symm
  | acknowledgeFile locId key | acknowledgeMetadata locId key | acknowledgeLink locId key =>
    obtain ⟨signer, hsigner⟩ := Option.isSome_iff_exists.mp hwf
    rw [updateLoc, completes_confirmAcknowledged hsigner, LocCall.Known, hsigner]
    simp only [Option.some.injEq, forall_eq']
  | unsynced method => exact iff_of_true (completes_pure () s) trivial
  | unknown method => exact absurd hwf id

end

/-! ### The frame of each handler -/

section

variable {e : JsonExtrinsic} {locId : UUID} {timestamp : Moment}
  {mutator : LocRequest → Except Err LocRequest}

theorem LocRequest.id_of_withoutItems {l l' : LocRequest} (h : l'.withoutItems = l.withoutItems) :
    l'.id = l.id := by
  change l'.withoutItems.id = l.withoutItems.id
  rw [h]

theorem findLoc_id {db : Database} {loc : LocRequest} (h : db.findLoc locId = some loc) :
    loc.id = locId := lookup_key h

/-- A mutator that keeps the id of the LOC changes this LOC only. -/
theorem mutateLoc_unrelated (hid : ∀ loc loc', mutator loc = .ok loc' → loc'.id = loc.id) :
    Keeps (fun s : Store =>
        { s.db with locRequests := s.db.locRequests.filter (fun loc => loc.id ≠ locId) })
      (mutateLoc locId mutator) := by
  refine keeps_transactional (fun db : Database =>
    { db with locRequests := db.locRequests.filter (fun loc => loc.id ≠ locId) }) fun db db' h => ?_
  cases hloc : db.findLoc locId with
  | none => rw [hloc] at h; cases h
  | some loc =>
    rw [hloc] at h
    obtain ⟨loc', hmut, h⟩ := bind_eq_ok.mp h
    cases h
    have hfilter : (modifyFirst LocRequest.id locId (fun _ => loc'.stored) db.locRequests).filter
        (fun loc => loc.id ≠ locId) = db.locRequests.filter (fun loc => loc.id ≠ locId) :=
      filter_modifyFirst fun _ _ => (hid _ _ hmut).trans (findLoc_id hloc)
    exact congrArg (fun xs => { db with locRequests := xs }) hfilter

theorem openLoc_id {l l' : LocRequest} {items : LocItems} (h : l.openLoc timestamp items = .ok l') :
    l'.id = l.id := by
  rcases LocRequest.openLoc_ok h with ⟨-, h⟩ | ⟨-, rfl⟩
  · have hid := LocRequest.id_of_withoutItems (LocRequest.prePublishOrAcknowledgeItems_rest h)
    exact hid
  · rfl

theorem setItemAddedOn_id {l : LocRequest} {k : ItemKind} {key : String} :
    (l.setItemAddedOn k key timestamp).id = l.id :=
  LocRequest.id_of_withoutItems (LocRequest.setItemAddedOn_oneItem timestamp).rest

theorem updateMetadataItem_id {nameHash : Hash} {l l' : LocRequest}
    (h : updateMetadataItem e nameHash timestamp l = .ok l') : l'.id = l.id := by
  obtain ⟨fee, -, h⟩ := bind_eq_ok.mp h
  cases h
  exact setItemAddedOn_id

theorem updateLink_id {target : UUID} {l l' : LocRequest}
    (h : updateLink e target timestamp l = .ok l') : l'.id = l.id := by
  obtain ⟨fee, -, h⟩ := bind_eq_ok.mp h
  cases h
  exact setItemAddedOn_id

theorem updateFile_id {file : FileArg} {l l' : LocRequest}
    (h : updateFile e file timestamp l = .ok l') : l'.id = l.id := by
  obtain ⟨hash, -, h⟩ := bind_eq_ok.mp h
  obtain ⟨fee, -, h⟩ := bind_eq_ok.mp h
  obtain ⟨_, _, -, -, hone⟩ := LocRequest.mutateItem_ok (fun _ _ hm => by cases hm; rfl) h
  rw [LocRequest.id_of_withoutItems hone.rest, setItemAddedOn_id]

theorem preAcknowledgeItem_id {l l' : LocRequest} {k : ItemKind} {key : String}
    {contributor : AccountId} {on : Option Moment}
    (h : l.preAcknowledgeItem k key contributor on = .ok l') : l'.id = l.id := by
  obtain ⟨_, _, -, -, hone⟩ := LocRequest.mutateLifecycle_ok (LocRequest.roleCheck_ok h).2
  exact LocRequest.id_of_withoutItems hone.rest

end

section

variable {e : JsonExtrinsic} {timestamp : Moment}

theorem addCollectionItem_unrelated (collectionLocId : UUID) (itemId : Hash) :
    Keeps (fun s : Store => (LocCall.addCollectionItem collectionLocId itemId).unrelated s.db)
      (addCollectionItem collectionLocId itemId timestamp) := by
  refine (keeps_query _).bind fun loc => Keeps.ite (keeps_transactional
    (fun db => (LocCall.addCollectionItem collectionLocId itemId).unrelated db) fun db db' hu => ?_)
    (keeps_pure ())
  obtain ⟨item, -, hu⟩ := bind_eq_ok.mp hu
  obtain ⟨addedOn, -, hu⟩ := bind_eq_ok.mp hu
  cases hu
  have hfilter : (modifyFirst CollectionItem.key (collectionLocId, itemId)
      (fun item => { item with addedOn }) db.collectionItems).filter
        (fun item => item.key ≠ (collectionLocId, itemId)) =
      db.collectionItems.filter (fun item => item.key ≠ (collectionLocId, itemId)) :=
    filter_modifyFirst fun _ hkey => hkey
  exact congrArg (fun xs => { db with collectionItems := xs }) hfilter

theorem addTokensRecord_unrelated (collectionLocId : UUID) (recordId : Hash) :
    Keeps (fun s : Store => (LocCall.addTokensRecord collectionLocId recordId).unrelated s.db)
      (addTokensRecord collectionLocId recordId timestamp) := by
  refine (keeps_query _).bind fun loc => Keeps.ite (keeps_transactional
    (fun db => (LocCall.addTokensRecord collectionLocId recordId).unrelated db) fun db db' hu => ?_)
    (keeps_pure ())
  obtain ⟨record, -, hu⟩ := bind_eq_ok.mp hu
  obtain ⟨addedOn, -, hu⟩ := bind_eq_ok.mp hu
  cases hu
  have hfilter : (modifyFirst TokensRecord.key (collectionLocId, recordId)
      (fun record => { record with addedOn }) db.tokensRecords).filter
        (fun record => record.key ≠ (collectionLocId, recordId)) =
      db.tokensRecords.filter (fun record => record.key ≠ (collectionLocId, recordId)) :=
    filter_modifyFirst fun _ hkey => hkey
  exact congrArg (fun xs => { db with tokensRecords := xs }) hfilter

theorem keeps_identityLoc {γ : Type} {R : Store → γ} (owner issuer : AccountId) :
    Keeps R (getIssuerIdentityLoc owner issuer) := by
  refine (keeps_query _).bind fun identityLocs => ?_
  cases identityLocs.head? with
  | none => exact keeps_throw _
  | some loc => exact keeps_pure loc

theorem unselectAll_unrelated (db : Database) (issuer : String) :
    (LocCall.dismissIssuer issuer).unrelated (db.unselectAll issuer) =
      (LocCall.dismissIssuer issuer).unrelated db := by
  refine congrArg (fun xs => { db with issuerSelections := xs })
    (filter_map_of_fixed (fun selection => ?_) fun selection h => ?_)
  · split_ifs <;> rfl
  · rw [if_neg (of_decide_eq_true h)]

theorem selectUnselect_unrelated {db db' : Database} {locId identityLocId : UUID} {issuer : String}
    {selected : Bool} (h : db.selectUnselect locId issuer identityLocId selected = some db') :
    (LocCall.setIssuerSelection locId issuer selected).unrelated db' =
      (LocCall.setIssuerSelection locId issuer selected).unrelated db := by
  unfold Database.selectUnselect at h
  dsimp only at h
  split_ifs at h
  · cases h
    have hfilter : (modifyFirst VerifiedIssuerSelection.key (locId, issuer)
        (fun selection => { selection with selected }) db.issuerSelections).filter
          (fun selection => selection.key ≠ (locId, issuer)) =
        db.issuerSelections.filter (fun selection => selection.key ≠ (locId, issuer)) :=
      filter_modifyFirst fun _ hkey => hkey
    exact congrArg (fun xs => { db with issuerSelections := xs }) hfilter
  · cases h
    refine congrArg (fun xs => { db with issuerSelections := xs }) ?_
    rw [List.filter_append]
    simp [VerifiedIssuerSelection.key]

variable [LegalOfficers]

/-- **The frame**: whether it returns or throws, the synchronizer changes no row that the call is not
about. -/
theorem updateLoc_unrelated (call : LocCall) :
    Keeps (fun s : Store => call.unrelated s.db) (updateLoc e timestamp call) := by
  cases call with
  | create method locId items =>
    refine (keeps_liftExcept _).bind fun _ => mutateLoc_unrelated fun l l' h => ?_
    exact openLoc_id h
  | addMetadata locId nameHash => exact mutateLoc_unrelated fun l l' h => updateMetadataItem_id h
  | addFile locId file => exact mutateLoc_unrelated fun l l' h => updateFile_id h
  | addLink locId target => exact mutateLoc_unrelated fun l l' h => updateLink_id h
  | close locId | closeAndSeal locId =>
    refine mutateLoc_unrelated fun l l' h => ?_
    cases h
    rfl
  | makeVoid locId | makeVoidAndReplace locId =>
    refine mutateLoc_unrelated fun l l' h => ?_
    cases h
    rfl
  | acknowledgeFile locId key | acknowledgeMetadata locId key | acknowledgeLink locId key =>
    exact (keeps_liftExcept _).bind fun _ => mutateLoc_unrelated fun l l' h => preAcknowledgeItem_id h
  | addCollectionItem collectionLocId itemId
  | addCollectionItemWithTermsAndConditions collectionLocId itemId =>
    exact addCollectionItem_unrelated collectionLocId itemId
  | addTokensRecord collectionLocId recordId =>
    exact addTokensRecord_unrelated collectionLocId recordId
  | nominateIssuer issuer =>
    refine (keeps_liftExcept _).bind fun signer => Keeps.ite ?_ (keeps_pure ())
    exact (keeps_identityLoc _ _).bind fun _ => by simpa using keeps_pure ()
  | dismissIssuer issuer =>
    refine (keeps_liftExcept _).bind fun signer => Keeps.ite ?_ (keeps_pure ())
    refine (keeps_identityLoc _ _).bind fun _ => Keeps.ite (keeps_transactional
      (fun db => (LocCall.dismissIssuer issuer).unrelated db) fun db db' h => ?_) (keeps_pure ())
    cases h
    exact unselectAll_unrelated db issuer
  | setIssuerSelection locId issuer selected =>
    refine (keeps_liftExcept _).bind fun signer => Keeps.ite ?_ (keeps_pure ())
    refine (keeps_identityLoc _ _).bind fun loc => (keeps_query _).bind fun request =>
      (keeps_liftExcept _).bind fun _ => keeps_transactional
        (fun db => (LocCall.setIssuerSelection locId issuer selected).unrelated db) fun db db' h => ?_
    exact selectUnselect_unrelated (Except.ok.inj h)
  | unsynced method => exact keeps_pure ()
  | unknown method => exact keeps_throw _

/-! ### The contract -/

variable {s : Store} {call : LocCall}

theorem exec_updateLocRequests (hcall : e.call = .logionLoc call) (herror : e.error = .ok none) :
    exec (updateLocRequests e timestamp) s = exec (updateLoc e timestamp call) s := by
  rw [updateLocRequests, hcall]
  dsimp only
  rw [unlessError, herror, exec_bind_ok (exec_liftExcept_ok none)]
  rfl

/-- **When the synchronization is not stuck**: a successful, well-formed extrinsic of a named method is
accepted, and leaves everything unrelated as it was, if and only if the database knows what the call
refers to. -/
theorem notStuck_iff (e : JsonExtrinsic) (timestamp : Moment) (s : Store) (call : LocCall)
    (hcall : e.call = .logionLoc call) (herror : e.error = .ok none)
    (hwf : call.WellFormed e.signer) :
    (∃ s', exec (updateLocRequests e timestamp) s = (.ok (), s') ∧
      call.unrelated s'.db = call.unrelated s.db) ↔ call.Known e s.db := by
  rw [exec_updateLocRequests hcall herror, ← updateLoc_completes hwf]
  constructor
  · rintro ⟨s', h, -⟩
    exact ⟨(), s', h⟩
  · rintro ⟨_, s', h⟩
    exact ⟨s', h, (updateLoc_unrelated call).eq h⟩

end

/-! ### A collection item that is not known locally -/

/-- A node without legal officers. -/
@[reducible] def noLegalOfficers : LegalOfficers where
  isLegalOfficerAddressOnNode _ := false

/-- An open collection LOC with one submitted item. -/
def collectionStore : Store where
  db := {
    locRequests := [{
      id := "loc", status := .opened, requester := some (.polkadot "alice")
      ownerAddress := "bob", locType := .collection }]
    collectionItems := [⟨"loc", "0x01", none⟩] }

/-- The creation on chain of a collection item, by the requester. -/
def itemAdded (itemId : Hash) : JsonExtrinsic where
  call := .logionLoc (.addCollectionItem "loc" itemId)
  signer := some "alice"
  partialFee := some 1

theorem notStuck_iff_submittedItem :
    ∃ s', exec (@updateLocRequests noLegalOfficers (itemAdded "0x01") 5) collectionStore = (.ok (), s') ∧
      (LocCall.addCollectionItem "loc" "0x01").unrelated s'.db =
        (LocCall.addCollectionItem "loc" "0x01").unrelated collectionStore.db :=
  (@notStuck_iff noLegalOfficers (itemAdded "0x01") 5 collectionStore _ rfl rfl trivial).mpr
    fun _ => ⟨_, rfl, rfl⟩

/-- An item added on chain without a local submission stops the synchronization. -/
theorem unknownItem_throws :
    (itemAdded "0x02").error = .ok none ∧
      (LocCall.addCollectionItem "loc" "0x02").WellFormed (itemAdded "0x02").signer ∧
      exec (@updateLocRequests noLegalOfficers (itemAdded "0x02") 5) collectionStore =
        (.error undefinedValue, collectionStore) ∧
      ¬ ∃ s', exec (@updateLocRequests noLegalOfficers (itemAdded "0x02") 5) collectionStore =
          (.ok (), s') ∧
        (LocCall.addCollectionItem "loc" "0x02").unrelated s'.db =
          (LocCall.addCollectionItem "loc" "0x02").unrelated collectionStore.db := by
  have hexec : exec (@updateLocRequests noLegalOfficers (itemAdded "0x02") 5) collectionStore =
      (.error undefinedValue, collectionStore) := rfl
  refine ⟨rfl, trivial, hexec, ?_⟩
  rintro ⟨s', h, -⟩
  rw [hexec] at h
  cases h

end Logion
