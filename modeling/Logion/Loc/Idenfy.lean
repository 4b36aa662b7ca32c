import Logion.Loc.Projection

/-!
# Idenfy — the callbacks of an iDenfy verification (`idenfy.service.ts`)

A callback whose status is `APPROVED` or `SUSPECTED`, final or not, brings its own payload and its
images as files of the LOC.  They are added in the update that records the status, which is lost as a
whole when one of them is on the LOC already.

* `addFiles_iff`: adding files, one after the other.
* `pending_run`: what the callbacks that are not final leave.
* `finalApplied_iff`: the final callback is applied, with each image on the LOC once, exactly when what
  it brings is new, or, if it brings nothing, its images are on the LOC already.
-/

namespace Logion

open Fallible Keyed

/-! ### Callbacks -/

/-- `IdenfyVerificationStatus`. -/
inductive IdenfyVerificationStatus
  | approved
  | denied
  | suspected
  | expired
  deriving DecidableEq, Repr

def IdenfyVerificationStatus.toStatus : IdenfyVerificationStatus → IdenfyStatus
  | approved => .approved
  | denied => .denied
  | suspected => .suspected
  | expired => .expired

inductive IdenfyFileType
  | front
  | back
  | face
  | frontVideo
  | backVideo
  | faceVideo
  deriving DecidableEq, Repr

def IdenfyFileType.text : IdenfyFileType → String
  | front => "FRONT"
  | back => "BACK"
  | face => "FACE"
  | frontVideo => "FRONT_VIDEO"
  | backVideo => "BACK_VIDEO"
  | faceVideo => "FACE_VIDEO"

def idenfyCallbackPayloadFileTypes : List IdenfyFileType :=
  [.front, .back, .face, .frontVideo, .backVideo, .faceVideo]

/-- `IPFSFile`: a file that was hashed and imported. -/
structure IPFSFile where
  hash : Hash
  cid : String
  size : ℕ
  deriving DecidableEq, Repr

/-- What `storeFile` returns. -/
structure DownloadedFile extends IPFSFile where
  fileName : String
  contentType : String
  deriving DecidableEq, Repr

/-- A correctly signed callback, with what its files are when they are fetched and imported. -/
structure IdenfyCallback where
  final : Bool
  overall : IdenfyVerificationStatus
  fileUrls : IdenfyFileType → Option String
  raw : String
  storePayload : IPFSFile
  storeFile : String → DownloadedFile
  now : Moment

/-- `FileParams`. -/
structure FileParams where
  hash : Hash
  submitter : AccountId
  data : FileData
  deriving DecidableEq, Repr

namespace IdenfyCallback

def payloadParams (c : IdenfyCallback) (legalOfficer : AccountId) : FileParams where
  hash := c.storePayload.hash
  submitter := legalOfficer
  data := {
    name := "idenfy-callback-payload.json"
    cid := some c.storePayload.cid
    contentType := some "application/json"
    nature := "iDenfy Verification Result"
    size := c.storePayload.size
    restrictedDelivery := false }

def imageParams (c : IdenfyCallback) (legalOfficer : AccountId) (fileType : IdenfyFileType) :
    Option FileParams :=
  (nonEmpty (c.fileUrls fileType)).map fun url => {
    hash := (c.storeFile url).hash
    submitter := legalOfficer
    data := {
      name := (c.storeFile url).fileName
      cid := some (c.storeFile url).cid
      contentType := some (c.storeFile url).contentType
      nature := "iDenfy " ++ fileType.text
      size := (c.storeFile url).size
      restrictedDelivery := false } }

def downloadFiles (c : IdenfyCallback) (legalOfficer : AccountId) : List FileParams :=
  c.payloadParams legalOfficer ::
    idenfyCallbackPayloadFileTypes.filterMap (c.imageParams legalOfficer)

/-- The files of the callback are fetched. -/
def Approving (c : IdenfyCallback) : Prop := c.overall = .approved ∨ c.overall = .suspected

instance (c : IdenfyCallback) : Decidable c.Approving :=
  inferInstanceAs (Decidable (c.overall = .approved ∨ c.overall = .suspected))

/-- The contents of the images that the callback refers to. -/
def imageHashes (c : IdenfyCallback) : List Hash :=
  idenfyCallbackPayloadFileTypes.filterMap fun fileType =>
    (nonEmpty (c.fileUrls fileType)).map fun url => (c.storeFile url).hash

/-- The contents of all the files that it brings. -/
def hashes (c : IdenfyCallback) : List Hash := c.storePayload.hash :: c.imageHashes

end IdenfyCallback

namespace LocRequest

def addFiles (l : LocRequest) (files : List FileParams) (now : Moment) : Except Err LocRequest :=
  files.foldlM
    (fun (l : LocRequest) file => l.addFile file.hash file.submitter file.data .manualByUser now) l

/-- `callback`, once the signature is checked. -/
def callback (l : LocRequest) (c : IdenfyCallback) : Except Err LocRequest := do
  let files := if c.Approving then c.downloadFiles l.getOwner else []
  let l ← l.updateIdenfyVerification c.final c.overall.toStatus c.raw
  l.addFiles files c.now

/-! ### The contract -/

/-- A draft LOC whose verification is pending; the keys are those of its rows. -/
structure Pending (l : LocRequest) : Prop where
  draft : l.status = .draft
  pending : ∃ v, l.iDenfyVerification = some v ∧ v.status = some .pending
  keys : l.DistinctKeys

/-- The callback is recorded, and each image that it refers to is on the LOC once. -/
structure FinalApplied (c : IdenfyCallback) (l : LocRequest) : Prop where
  recorded : ∃ v, l.iDenfyVerification = some v ∧ v.status = some c.overall.toStatus ∧
    v.callbackPayload = some c.raw
  images : ∀ hash ∈ c.imageHashes, (l.files.filter fun file => file.key = hash).length = 1

/-- What the callback brings is new; if it brings nothing, its images are there. -/
structure FilesFit (c : IdenfyCallback) (l : LocRequest) : Prop where
  fresh : c.Approving → c.hashes.Nodup ∧ ∀ hash ∈ c.hashes, l.item? .file hash = none
  there : ¬ c.Approving → ∀ hash ∈ c.imageHashes, (l.item? .file hash).isSome

/-! ### Adding files -/

variable {l l' : LocRequest} {c : IdenfyCallback} {files : List FileParams} {now : Moment}

variable (now) in
theorem addFile_of_draft (hdraft : l.status = .draft) (file : FileParams) :
    Returns (l.addFile file.hash file.submitter file.data .manualByUser now) ↔
      l.item? .file file.hash = none := by
  have heditable : l.ensureEditable (some .manualByUser) = .ok () := by
    simp [ensureEditable, hdraft]
  unfold addFile addItem
  rw [heditable, ok_bind]
  split_ifs with h
  · exact iff_of_false (not_returns_error _) fun hnone => by rw [hnone] at h; cases h
  · exact iff_of_true ⟨_, rfl⟩ (by simpa using h)

/-- What one more file changes. -/
theorem addFile_frame {file : FileParams}
    (h : l.addFile file.hash file.submitter file.data .manualByUser now = .ok l') :
    l'.status = l.status ∧ l'.iDenfyVerification = l.iDenfyVerification ∧
      l'.files.map Item.key = l.files.map Item.key ++ [file.hash] := by
  obtain ⟨-, rfl⟩ := addItem_ok h
  refine ⟨rfl, rfl, ?_⟩
  simp [setItems, items]

/-- **Adding files** to a draft LOC returns when they are new, and distinct. -/
theorem addFiles_iff (hdraft : l.status = .draft) : Returns (l.addFiles files now) ↔
    (files.map FileParams.hash).Nodup ∧
      ∀ hash ∈ files.map FileParams.hash, l.item? .file hash = none := by
  induction files generalizing l with
  | nil => exact iff_of_true ⟨l, rfl⟩ ⟨List.nodup_nil, by simp⟩
  | cons file files ih =>
    have hnext : ∀ l', l.addFile file.hash file.submitter file.data .manualByUser now = .ok l' →
        ∀ hash, (l'.item? .file hash = none ↔ l.item? .file hash = none ∧ hash ≠ file.hash) := by
      intro l' h hash
      have hkeys : l'.files.map Item.key = l.files.map Item.key ++ [file.hash] := (addFile_frame h).2.2
      refine lookup_eq_none.trans (Iff.trans ?_ (and_congr_left' lookup_eq_none.symm))
      rw [show l'.items .file = l'.files from rfl, hkeys]
      simp [items]
    rw [addFiles, List.foldlM_cons, returns_bind, List.map_cons, List.nodup_cons,
      List.forall_mem_cons]
    constructor
    · rintro ⟨l', h, hrest⟩
      have hfile := (addFile_of_draft now hdraft file).mp ⟨l', h⟩
      obtain ⟨hnodup, hnew⟩ := (ih ((addFile_frame h).1.trans hdraft)).mp hrest
      refine ⟨⟨fun hmem => ?_, hnodup⟩, hfile, fun hash hmem => ((hnext l' h hash).mp (hnew hash hmem)).1⟩
      exact ((hnext l' h _).mp (hnew _ hmem)).2 rfl
    · rintro ⟨⟨hnot, hnodup⟩, hfile, hnew⟩
      obtain ⟨l', h⟩ := (addFile_of_draft now hdraft file).mpr hfile
      refine ⟨l', h, (ih ((addFile_frame h).1.trans hdraft)).mpr ⟨hnodup, fun hash hmem => ?_⟩⟩
      exact (hnext l' h hash).mpr ⟨hnew hash hmem, fun heq => hnot (heq ▸ hmem)⟩

/-- What the files change. -/
theorem addFiles_ok (hkeys : l.DistinctKeys) (h : l.addFiles files now = .ok l') :
    l'.status = l.status ∧ l'.iDenfyVerification = l.iDenfyVerification ∧
      l'.files.map Item.key = l.files.map Item.key ++ files.map FileParams.hash ∧
      l'.DistinctKeys := by
  induction files generalizing l with
  | nil =>
    cases h
    simp [hkeys]
  | cons file files ih =>
    rw [addFiles, List.foldlM_cons] at h
    obtain ⟨l₁, h₁, h⟩ := bind_eq_ok.mp h
    obtain ⟨hstatus, hverification, hfiles⟩ := addFile_frame h₁
    obtain ⟨h1, h2, h3, h4⟩ := ih (addItem_distinctKeys hkeys h₁) h
    refine ⟨h1.trans hstatus, h2.trans hverification, ?_, h4⟩
    rw [h3, hfiles, List.map_cons, List.append_assoc, List.singleton_append]

/-! ### One callback -/

theorem downloadFiles_hashes (c : IdenfyCallback) (legalOfficer : AccountId) :
    (c.downloadFiles legalOfficer).map FileParams.hash = c.hashes := by
  unfold IdenfyCallback.downloadFiles IdenfyCallback.hashes IdenfyCallback.imageHashes
  rw [List.map_cons, List.map_filterMap]
  congr 1
  refine List.filterMap_congr fun fileType _ => ?_
  rw [IdenfyCallback.imageParams, Option.map_map]
  rfl

/-- The files that a callback brings to the LOC. -/
def brought (c : IdenfyCallback) (legalOfficer : AccountId) : List FileParams :=
  if c.Approving then c.downloadFiles legalOfficer else []

/-- **A callback returns** when the files that it brings are new. -/
theorem callback_returns (h : l.Pending) : Returns (l.callback c) ↔
    (c.Approving → c.hashes.Nodup ∧ ∀ hash ∈ c.hashes, l.item? .file hash = none) := by
  obtain ⟨v, hv, hpending⟩ := h.pending
  have hfiles : ∀ l' : LocRequest, l'.status = .draft → l'.files = l.files →
      (Returns (l'.addFiles (brought c l.getOwner) c.now) ↔
        (c.Approving → c.hashes.Nodup ∧ ∀ hash ∈ c.hashes, l.item? .file hash = none)) := by
    intro l' hdraft hsame
    have hitem : ∀ hash, l'.item? .file hash = l.item? .file hash := fun hash =>
      congrArg (findItem hash) hsame
    rw [addFiles_iff hdraft, brought]
    simp only [hitem]
    split_ifs with happroving
    · rw [downloadFiles_hashes]
      exact ⟨fun hnew _ => hnew, fun hnew => hnew happroving⟩
    · exact iff_of_true ⟨List.nodup_nil, by simp⟩ fun hyes => absurd hyes happroving
  rw [callback, updateIdenfyVerification, hv]
  by_cases hfinal : c.final = true
  · simp only [hpending, hfinal, ne_eq, not_true_eq_false, if_false, if_true]
    exact hfiles { l with iDenfyVerification := some { v with
      status := some c.overall.toStatus, callbackPayload := some c.raw } } h.draft rfl
  · simp only [hpending, hfinal, ne_eq, not_true_eq_false, if_false]
    exact hfiles l h.draft rfl

/-- What a callback leaves. -/
theorem callback_ok (h : l.Pending) (hc : l.callback c = .ok l') :
    l'.status = .draft ∧ l'.DistinctKeys ∧
      l'.files.map Item.key =
        l.files.map Item.key ++ (brought c l.getOwner).map FileParams.hash ∧
      (c.final = false → l'.iDenfyVerification = l.iDenfyVerification) ∧
      (c.final = true → ∃ v, l'.iDenfyVerification = some v ∧
        v.status = some c.overall.toStatus ∧ v.callbackPayload = some c.raw) := by
  obtain ⟨v, hv, hpending⟩ := h.pending
  obtain ⟨l₁, h₁, hadd⟩ := bind_eq_ok.mp hc
  rw [updateIdenfyVerification, hv] at h₁
  simp only [hpending, ne_eq, not_true_eq_false, if_false] at h₁
  have hl₁ : l₁.status = .draft ∧ l₁.files = l.files ∧ l₁.DistinctKeys := by
    split_ifs at h₁ <;> cases h₁ <;> exact ⟨h.draft, rfl, h.keys⟩
  obtain ⟨hdraft, hfiles, hkeys⟩ := hl₁
  obtain ⟨h1, h2, h3, h4⟩ := addFiles_ok hkeys hadd
  refine ⟨h1.trans hdraft, h4, by rw [h3, hfiles]; rfl, fun hnot => ?_, fun hfinal => ?_⟩
  · rw [if_neg (by simp [hnot])] at h₁
    cases h₁
    exact h2
  · rw [if_pos hfinal] at h₁
    cases h₁
    exact ⟨_, h2, rfl, rfl⟩

/-- A callback that is not final leaves the verification pending, whether it throws or not. -/
theorem pending_attempt (h : l.Pending) (hnot : c.final = false) :
    (attempt callback l c).Pending := by
  rcases attempt_cases callback l c with ⟨e, -, hsame⟩ | hc
  · rwa [hsame]
  · obtain ⟨hdraft, hkeys, -, hverification, -⟩ := callback_ok h hc
    exact ⟨hdraft, by rw [hverification hnot]; exact h.pending, hkeys⟩

/-! ### Any number of callbacks -/

theorem pending_run {cs : List IdenfyCallback} (h : l.Pending) (hnot : ∀ c ∈ cs, c.final = false) :
    (run callback l cs).Pending := by
  induction cs generalizing l with
  | nil => exact h
  | cons c cs ih =>
    exact ih (pending_attempt h (hnot c List.mem_cons_self))
      fun c' hc' => hnot c' (List.mem_cons_of_mem c hc')

/-- Among distinct keys, the files of one content are one, or none. -/
theorem length_filter_key (hkeys : l.DistinctKeys) (hash : Hash) :
    (l.files.filter fun file => file.key = hash).length = 1 ↔ hash ∈ l.files.map Item.key := by
  have hcount : (l.files.filter fun file => file.key = hash).length =
      (l.files.map Item.key).count hash := by
    rw [List.count, List.countP_map, List.countP_eq_length_filter]
    rfl
  have hle := List.nodup_iff_count_le_one.mp (hkeys .file) hash
  rw [hcount, ← List.count_pos_iff]
  exact ⟨fun h => by omega, fun h => Nat.le_antisymm hle h⟩

/-- **The final callback.** -/
theorem finalApplied_attempt (h : l.Pending) (hfinal : c.final = true) :
    FinalApplied c (attempt callback l c) ↔ FilesFit c l := by
  have hfit : FilesFit c l ↔ Returns (l.callback c) ∧
      (¬ c.Approving → ∀ hash ∈ c.imageHashes, (l.item? .file hash).isSome) := by
    rw [callback_returns h]
    exact ⟨fun hf => ⟨hf.fresh, hf.there⟩, fun hf => ⟨hf.1, hf.2⟩⟩
  rw [hfit]
  rcases attempt_cases callback l c with ⟨e, he, hsame⟩ | hc
  · -- The update is lost: the verification is still pending.
    refine iff_of_false (fun happlied => ?_) fun hreturns => ?_
    · rw [hsame] at happlied
      obtain ⟨v, hv, hpending⟩ := h.pending
      obtain ⟨v', hv', hstatus, -⟩ := happlied.recorded
      rw [hv] at hv'
      cases hv'
      rw [hpending] at hstatus
      cases hover : c.overall <;> rw [hover] at hstatus <;> cases hstatus
    · rw [he] at hreturns
      exact not_returns_error e hreturns.1
  · obtain ⟨-, hkeys, hfiles, -, hrecorded⟩ := callback_ok h hc
    have himages : FinalApplied c (attempt callback l c) ↔
        ∀ hash ∈ c.imageHashes, hash ∈ (attempt callback l c).files.map Item.key := by
      simp only [← length_filter_key hkeys]
      exact ⟨fun ha => ha.images, fun hi => ⟨hrecorded hfinal, hi⟩⟩
    rw [himages, hfiles, and_iff_right ⟨_, hc⟩]
    by_cases happroving : c.Approving
    · rw [brought, if_pos happroving, downloadFiles_hashes]
      refine iff_of_true (fun hash hmem => ?_) fun hnot => absurd happroving hnot
      exact List.mem_append_right _ (List.mem_cons_of_mem _ hmem)
    · rw [brought, if_neg happroving, List.map_nil, List.append_nil]
      simp only [happroving, not_false_eq_true, forall_const]
      exact forall₂_congr fun hash _ => lookup_isSome.symm

/-- **After any number of callbacks that are not final, the final one is applied**, with each image on
the LOC exactly once, if and only if what it brings is new to the LOC, and distinct, or, when its
status brings nothing, its images are on the LOC already. -/
theorem finalApplied_iff (h : l.Pending) {cs : List IdenfyCallback}
    (hnot : ∀ c ∈ cs, c.final = false) (hfinal : c.final = true) :
    FinalApplied c (run callback l (cs ++ [c])) ↔ FilesFit c (run callback l cs) := by
  rw [run_concat]
  exact finalApplied_attempt (pending_run h hnot) hfinal

/-! ### Two images -/

/-- A draft identity LOC with a verification in progress. -/
def draftWithVerification : LocRequest where
  id := "loc"
  status := .draft
  requester := none
  ownerAddress := "owner"
  locType := .identity
  iDenfyVerification := some ⟨some "token", some "scan", some .pending, none⟩

/-- A callback with a front and a back image, of the given contents; its own content tells whether it is
final. -/
def callbackWithImages (final : Bool) (overall : IdenfyVerificationStatus) (front back : Hash) :
    IdenfyCallback where
  final := final
  overall := overall
  fileUrls
    | .front => some "https://front"
    | .back => some "https://back"
    | _ => none
  raw := "payload"
  storePayload := if final then ⟨"0x0f", "cid-final", 7⟩ else ⟨"0x00", "cid-payload", 7⟩
  storeFile url :=
    if url = "https://front" then ⟨⟨front, "cid-front", 1⟩, "front.png", "image/png"⟩
    else ⟨⟨back, "cid-back", 1⟩, "back.png", "image/png"⟩
  now := 5

theorem draftWithVerification_pending : draftWithVerification.Pending where
  draft := rfl
  pending := ⟨_, rfl, rfl⟩
  keys k := by cases k <;> exact List.nodup_nil

theorem finalApplied_iff_twoImages :
    FinalApplied (callbackWithImages true .approved "0x01" "0x02")
      (run callback draftWithVerification ([callbackWithImages false .denied "0x01" "0x02"] ++
        [callbackWithImages true .approved "0x01" "0x02"])) := by
  refine (finalApplied_iff draftWithVerification_pending (fun c hc => ?_) rfl).mpr ⟨fun _ => ?_, ?_⟩
  · rw [List.mem_singleton.mp hc]
    rfl
  · decide
  · exact fun hnot => absurd (.inl rfl) hnot

/-- Two images of one content, and an image that a callback before the final one brought: the
verification stays pending. -/
theorem finalCallback_lost :
    (run callback draftWithVerification [callbackWithImages true .approved "0x01" "0x01"] =
        draftWithVerification ∧
      ¬ FinalApplied (callbackWithImages true .approved "0x01" "0x01")
        (run callback draftWithVerification [callbackWithImages true .approved "0x01" "0x01"])) ∧
    (run callback draftWithVerification [callbackWithImages false .approved "0x01" "0x02",
        callbackWithImages true .approved "0x01" "0x02"]).iDenfyVerification =
        draftWithVerification.iDenfyVerification ∧
      ¬ FinalApplied (callbackWithImages true .approved "0x01" "0x02")
        (run callback draftWithVerification [callbackWithImages false .approved "0x01" "0x02",
          callbackWithImages true .approved "0x01" "0x02"]) := by
  have hlost : ∀ c : IdenfyCallback, c.overall = .approved → ∀ l : LocRequest,
      l.iDenfyVerification = draftWithVerification.iDenfyVerification → ¬ FinalApplied c l := by
    intro c hover l hpending happlied
    obtain ⟨v, hv, hstatus, -⟩ := happlied.recorded
    rw [hpending] at hv
    cases hv
    rw [hover] at hstatus
    cases hstatus
  exact ⟨⟨by decide, hlost _ rfl _ (by decide)⟩, by decide, hlost _ rfl _ (by decide)⟩

end LocRequest

end Logion
