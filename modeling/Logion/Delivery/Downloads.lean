import Logion.Delivery.Metadata
import Logion.Lib.Interleaving

/-!
# Downloads — restricted deliveries and the temporary file (`collection.controller.ts`, `http.ts`)

A download exports the file to a path in the temporary directory, has the metadata of its requester
written there, hashes it, records the delivery, sends it and removes it.  The path is made from the
requested file only.

* `RestrictedDeliveryService.setMetadata`: what is written to a file that nobody else touches.
* `resume`: the segments of a download, from one `await` to the next.
* `setMetadata_carries`: the metadata can be read again.
* `relies_step`, `relies_other`: what a download relies on, point by point, is kept by its own segments
  and by those of the downloads at other paths.
* `run_unmixed`: no delivery is mixed with another one, as long as no download exports to a path that
  another one is using.
-/

namespace Logion

open Effect Fallible Interleaving Occurrences RestrictedDeliveryMetadataCodec

/-- `exiftool` and `sha256`, on the content of a file. -/
class FileTools where
  File : Type
  sha256 : File → Hash
  readMimeType : File → Except Err String
  readMetadata : File → String → Except Err (Option Text)
  writeMetadata : File → String → Text → Except Err File

/-- The identity of the node, its temporary directory, and a hash in a template text. -/
structure DeliveryNode [Encodings] where
  nodeId : Encodings.PeerId
  sign : Text → Buffer
  tmpdir : String
  hashText : Hash → String

section Delivery

variable [Encodings] [FileTools]

open FileTools

/-! ### `ExifService` -/

namespace ExifService

def supportedTypes : List String := ["image/jpeg", "image/gif", "video/mp4", "application/pdf"]

def isExifSupported (file : File) : Except Err Bool := do
  let mimeType ← readMimeType file
  return mimeType ∈ supportedTypes

def descriptionField (file : File) : Except Err String := do
  let mimeType ← readMimeType file
  if mimeType = "image/jpeg" ∨ mimeType = "video/mp4" ∨ mimeType = "application/pdf" then
    return "Description"
  else if mimeType = "image/gif" then return "Comment"
  else throw (.error s!"Unsupported file type {mimeType}")

def readImageDescription (file : File) : Except Err (Option Text) := do
  let fieldName ← descriptionField file
  readMetadata file fieldName

def writeImageDescription (file : File) (description : Text) : Except Err File := do
  let fieldName ← descriptionField file
  writeMetadata file fieldName description

end ExifService

open ExifService

/-! ### `RestrictedDeliveryService` -/

namespace RestrictedDeliveryService

variable (node : DeliveryNode)

def sign (owner : Text) (generatedOn : Moment) : Buffer :=
  node.sign (encode { owner, generatedOn, nodeId := node.nodeId, signature := [] })

/-- The metadata that are set, with the signature of the node. -/
def signed (owner : Text) (generatedOn : Moment) : RestrictedDeliveryMetadata where
  owner
  generatedOn
  nodeId := node.nodeId
  signature := sign node owner generatedOn

/-- `readImageDescription(...) || ""`, and the updater over it. -/
def updatedText (description : Option Text) (metadata : RestrictedDeliveryMetadata) :
    Except Err Text := do
  let updater ← Updater.new (description.getD [])
  return (updater.setMetadata metadata).text

/-- `setMetadata`, on a file that nobody else touches. -/
def setMetadata (file : File) (metadata : RestrictedDeliveryMetadata) : Except Err File := do
  if ← isExifSupported file then
    let description ← readImageDescription file
    writeImageDescription file (← updatedText description metadata)
  else return file

end RestrictedDeliveryService

open RestrictedDeliveryService

/-! ### The requests -/

/-- What is downloaded: the file of an item, of the collection, or of a tokens record; a restricted
delivery, or the original. -/
inductive Downloaded
  | itemFile (collectionLocId : UUID) (itemId hash : Hash)
  | collectionFile (collectionLocId : UUID) (itemId hash : Hash)
  | recordFile (collectionLocId : UUID) (recordId hash : Hash)
  | itemSource (collectionLocId : UUID) (itemId hash : Hash)
  | recordSource (collectionLocId : UUID) (recordId hash : Hash)
  deriving DecidableEq, Repr

namespace Downloaded

/-- `CollectionController.tempFilePath` and `TokensRecordController.tempFilePath`. -/
def tempFilePath (node : DeliveryNode) : Downloaded → String
  | itemFile loc id hash | collectionFile loc id hash | itemSource loc id hash =>
    s!"{node.tmpdir}/download-{loc}-{node.hashText id}-{node.hashText hash}"
  | recordFile loc id hash | recordSource loc id hash =>
    s!"{node.tmpdir}/download-{loc}-{id}-{hash}"

def restricted : Downloaded → Bool
  | itemFile _ _ _ | collectionFile _ _ _ | recordFile _ _ _ => true
  | itemSource _ _ _ | recordSource _ _ _ => false

end Downloaded

/-- A request that has passed the checks: the clear content that `exportFile` writes, the value of
`moment()`, and the exception of the database update, if there is one. -/
structure Download where
  downloaded : Downloaded
  owner : String
  content : File
  generatedOn : Moment
  updateError : Option Err := none

/-- A row of the deliveries. -/
structure FileDelivered where
  downloaded : Downloaded
  deliveredFileHash : Hash
  generatedOn : Moment
  owner : String
  deriving DecidableEq, Repr

/-- The temporary directory, the delivery that each request has recorded and the bytes that it has
sent. -/
structure DeliveryWorld (ι : Type) where
  files : String → Option File
  delivered : ι → Option FileDelivered
  sent : ι → Option File

/-- Why a download fails: its file is not there, or something else is thrown. -/
inductive DownloadError
  | noSuchFile
  | thrown (e : Err)

/-- The point at which a download is suspended. -/
inductive DownloadState
  | called
  | exported
  | supported
  | reading (fieldName : String)
  | described (description : Text)
  | writing (fieldName : String) (description : Text)
  | marked
  | hashed (deliveredFileHash : Hash)
  | recorded
  | sent
  | ended
  | rejected (e : DownloadError)

/-! ### The segments of a download -/

section Segments

variable {ι : Type} [DecidableEq ι]

/-- The content of the file, which has to be there. -/
def openFile (path : String) : Eff (DeliveryWorld ι) DownloadError File := do
  match (← get).files path with
  | some file => return file
  | none => throw .noSuchFile

/-- An exception of a tool. -/
def orThrow {α : Type} (x : Except Err α) : Eff (DeliveryWorld ι) DownloadError α :=
  liftM (x.mapError DownloadError.thrown)

def writeFile (path : String) (file : File) : Eff (DeliveryWorld ι) DownloadError Unit :=
  modify fun w => { w with files := Function.update w.files path (some file) }

def rmSync (path : String) : Eff (DeliveryWorld ι) DownloadError Unit := do
  let _ ← openFile path
  modify fun w => { w with files := Function.update w.files path none }

variable (node : DeliveryNode) (calls : ι → Download)

def pathOf (t : ι) : String := (calls t).downloaded.tempFilePath node

def metadataOf (t : ι) : RestrictedDeliveryMetadata :=
  signed node (text (calls t).owner) (calls t).generatedOn

def deliveryOf (t : ι) (deliveredFileHash : Hash) : FileDelivered where
  downloaded := (calls t).downloaded
  deliveredFileHash
  generatedOn := (calls t).generatedOn
  owner := (calls t).owner

def resumeDownloading (t : ι) : DownloadState → Eff (DeliveryWorld ι) DownloadError DownloadState
  | .called => do
    -- `exportFile`, as one step
    writeFile (pathOf node calls t) (calls t).content
    return if (calls t).downloaded.restricted then .exported else .recorded
  | .exported => do
    let file ← openFile (pathOf node calls t)
    return if ← orThrow (isExifSupported file) then .supported else .marked
  | .supported => do
    let file ← openFile (pathOf node calls t)
    return .reading (← orThrow (descriptionField file))
  | .reading fieldName => do
    let file ← openFile (pathOf node calls t)
    return .described (← orThrow (do
      updatedText (← readMetadata file fieldName) (metadataOf node calls t)))
  | .described description => do
    let file ← openFile (pathOf node calls t)
    return .writing (← orThrow (descriptionField file)) description
  | .writing fieldName description => do
    let file ← openFile (pathOf node calls t)
    writeFile (pathOf node calls t) (← orThrow (writeMetadata file fieldName description))
    return .marked
  | .marked => do
    let file ← openFile (pathOf node calls t)
    return .hashed (sha256 file)
  | .hashed deliveredFileHash => do
    match (calls t).updateError with
    | some e => throw (.thrown e)
    | none =>
      modify fun w => { w with
        delivered := Function.update w.delivered t (some (deliveryOf calls t deliveredFileHash)) }
      return .recorded
  | .recorded => do
    -- `downloadAndClean`; its callback is the next segment
    let file ← openFile (pathOf node calls t)
    modify fun w => { w with sent := Function.update w.sent t (some file) }
    return .sent
  | .sent => do
    rmSync (pathOf node calls t)
    return .ended
  | .ended => return .ended
  | .rejected e => return .rejected e

/-- The downloads of the node. -/
def downloads : Code (DeliveryWorld ι) ι DownloadState DownloadError where
  resume := resumeDownloading node calls
  rejected := .rejected

/-! ### What a delivery should be -/

/-- What the requester of the download should get: for a restricted delivery, the file with the
metadata of the requester. -/
def copyOf (t : ι) : Except Err File :=
  if (calls t).downloaded.restricted then setMetadata (calls t).content (metadataOf node calls t)
  else .ok (calls t).content

/-- A description with these metadata is read from the file. -/
def Carries (file : File) (metadata : RestrictedDeliveryMetadata) : Prop :=
  ∃ description, readImageDescription file = .ok (some description) ∧ encode metadata <:+: description

/-- What the tools are relied on for: a written description is read again, from a file of the same
type. -/
def ReadsBack : Prop :=
  ∀ (file file' : File) fieldName description, description ≠ [] →
    writeMetadata file fieldName description = .ok file' →
      readMimeType file' = readMimeType file ∧ readMetadata file' fieldName = .ok (some description)

/-- No delivery is mixed with another one, and none fails for want of its file. -/
structure Unmixed (s : System (DeliveryWorld ι) ι DownloadState) : Prop where
  copy : ∀ t file, s.world.sent t = some file → copyOf node calls t = .ok file
  carries : ∀ t file, s.world.sent t = some file → (calls t).downloaded.restricted →
    isExifSupported (calls t).content = .ok true → Carries file (metadataOf node calls t)
  delivered : ∀ t file, s.world.sent t = some file → (calls t).downloaded.restricted →
    s.world.delivered t = some (deliveryOf calls t (sha256 file))
  kept : ∀ t, s.task t ≠ .rejected .noSuchFile

namespace DownloadState

/-- The download uses its path. -/
def Holds : DownloadState → Prop
  | .called | .ended | .rejected _ => False
  | _ => True

/-- The metadata are being written, or have just been. -/
def Marking : DownloadState → Prop
  | .exported | .supported | .reading _ | .described _ | .writing _ _ | .marked => True
  | _ => False

def Delivers : DownloadState → Prop
  | .recorded | .sent | .ended => True
  | _ => False

def Sends : DownloadState → Prop
  | .sent | .ended => True
  | _ => False

omit [Encodings] [FileTools] in
theorem Marking.holds {p : DownloadState} (h : p.Marking) : p.Holds := by
  cases p <;> first | exact h.elim | trivial

omit [Encodings] [FileTools] in
theorem Marking.not_delivers {p : DownloadState} (h : p.Marking) : ¬ p.Delivers := by
  cases p <;> first | exact h.elim | exact not_false

end DownloadState

omit [Encodings] [FileTools] in
theorem DownloadState.Sends.delivers {p : DownloadState} (h : p.Sends) : p.Delivers := by
  cases p <;> first | exact h.elim | trivial

/-- A download exports only to a path that no other download is using. -/
def ExportsAlone (s : System (DeliveryWorld ι) ι DownloadState) (t : ι) : Prop :=
  s.task t = .called → ∀ u, u ≠ t → (s.task u).Holds → pathOf node calls u ≠ pathOf node calls t

/-- Downloads that have not begun. -/
def initially (files : String → Option File) : System (DeliveryWorld ι) ι DownloadState where
  world := { files, delivered := fun _ => none, sent := fun _ => none }
  task _ := .called

/-! ### What a download relies on -/

/-- What `setMetadata` still does to the file. -/
def remaining (metadata : RestrictedDeliveryMetadata) : DownloadState → File → Except Err File
  | .exported, file => setMetadata file metadata
  | .supported, file => do
    let description ← readImageDescription file
    writeImageDescription file (← updatedText description metadata)
  | .reading fieldName, file => do
    let description ← readMetadata file fieldName
    writeImageDescription file (← updatedText description metadata)
  | .described description, file => writeImageDescription file description
  | .writing fieldName description, file => writeMetadata file fieldName description
  | _, file => .ok file

structure Relies (t : ι) (p : DownloadState) (w : DeliveryWorld ι) : Prop where
  file : p.Holds → ∃ file, w.files (pathOf node calls t) = some file ∧
    remaining (metadataOf node calls t) p file = copyOf node calls t
  hashed : ∀ h, p = .hashed h → ∃ file, copyOf node calls t = .ok file ∧ h = sha256 file
  delivered : (calls t).downloaded.restricted → p.Delivers → ∃ file, copyOf node calls t = .ok file ∧
    w.delivered t = some (deliveryOf calls t (sha256 file))
  sent : ∀ file, w.sent t = some file → p.Sends ∧ copyOf node calls t = .ok file
  kept : p ≠ .rejected .noSuchFile

variable {node calls} {t u : ι} {p : DownloadState} {w w' : DeliveryWorld ι} {path : String}
  {content : File} {α : Type}

omit [Encodings] [DecidableEq ι] in
theorem exec_openFile (h : w.files path = some content) :
    exec (openFile path : Eff (DeliveryWorld ι) DownloadError File) w = (.ok content, w) := by
  simp only [openFile, exec_bind, exec_get, h, exec_pure]

omit [Encodings] [DecidableEq ι] in
/-- A segment that reads the file. -/
theorem exec_reading (h : w.files path = some content) (x : File → Except Err α)
    (next : α → DownloadState) :
    exec (do
      let file ← openFile path
      return next (← orThrow (x file)) : Eff (DeliveryWorld ι) DownloadError DownloadState) w =
      (((x content).map next).mapError .thrown, w) := by
  rw [exec_bind_ok (exec_openFile h), orThrow, exec_bind, exec_lift]
  cases x content <;> rfl

omit [DecidableEq ι] in
theorem Relies.marking (hp : p.Marking) (hfile : w.files (pathOf node calls t) = some content)
    (hremaining : remaining (metadataOf node calls t) p content = copyOf node calls t)
    (hsent : w.sent t = none) : Relies node calls t p w where
  file _ := ⟨content, hfile, hremaining⟩
  hashed := by
    rintro h rfl
    exact hp.elim
  delivered _ hd := absurd hd hp.not_delivers
  sent file hs := by
    rw [hsent] at hs
    cases hs
  kept := by
    rintro rfl
    exact hp

omit [DecidableEq ι] in
theorem Relies.thrown (e : Err) (hsent : w.sent t = none) :
    Relies node calls t (.rejected (.thrown e)) w where
  file := False.elim
  hashed h hp := nomatch hp
  delivered _ hd := hd.elim
  sent file hs := by
    rw [hsent] at hs
    cases hs
  kept hp := nomatch hp

omit [DecidableEq ι] in
theorem relies_called {files : String → Option File} :
    Relies node calls t .called (initially files : System (DeliveryWorld ι) ι DownloadState).world where
  file := False.elim
  hashed _ hp := nomatch hp
  delivered _ hd := hd.elim
  sent _ hs := nomatch hs
  kept hp := nomatch hp

omit [DecidableEq ι] in
theorem Relies.unsent (h : Relies node calls t p w) (hp : ¬ p.Sends) : w.sent t = none :=
  Option.eq_none_iff_forall_ne_some.mpr fun file hs => hp (h.sent file hs).1

/-- A segment that goes on with `setMetadata`. -/
theorem Relies.reading {x : File → Except Err α} {f : α → DownloadState}
    (h : Relies node calls t p w) (hp : p.Marking) (hsends : ¬ p.Sends) (hnext : ∀ a, (f a).Marking)
    (hremaining : ∀ file, remaining (metadataOf node calls t) p file =
      x file >>= fun a => remaining (metadataOf node calls t) (f a) file)
    (hresume : resumeDownloading node calls t p = do
      let file ← openFile (pathOf node calls t)
      return f (← orThrow (x file))) :
    Relies node calls t ((downloads node calls).reached (exec (resumeDownloading node calls t p) w).1)
      (exec (resumeDownloading node calls t p) w).2 := by
  obtain ⟨file, hfile, hcopy⟩ := h.file hp.holds
  rw [hremaining] at hcopy
  rw [hresume, exec_reading hfile]
  cases hx : x file with
  | error e => exact .thrown e (h.unsent hsends)
  | ok a =>
    rw [hx] at hcopy
    exact .marking (hnext a) hfile hcopy (h.unsent hsends)

omit [DecidableEq ι] in
/-- The file is there, and it is the copy of the requester. -/
theorem Relies.copy (h : Relies node calls t p w) (hp : p.Holds)
    (hdone : ∀ file, remaining (metadataOf node calls t) p file = .ok file) :
    ∃ file, w.files (pathOf node calls t) = some file ∧ copyOf node calls t = .ok file := by
  obtain ⟨file, hfile, hcopy⟩ := h.file hp
  exact ⟨file, hfile, hcopy.symm.trans (hdone file)⟩

/-- **One segment of a download.** -/
theorem relies_step (h : Relies node calls t p w) :
    Relies node calls t ((downloads node calls).reached (exec (resumeDownloading node calls t p) w).1)
      (exec (resumeDownloading node calls t p) w).2 := by
  cases p with
  | called =>
    have hexec : exec (resumeDownloading node calls t .called) w =
        (.ok (if (calls t).downloaded.restricted then .exported else .recorded),
          { w with
            files := Function.update w.files (pathOf node calls t) (some (calls t).content) }) := rfl
    have hsent := h.unsent not_false
    rw [hexec, Code.reached]
    split_ifs with hr
    · exact .marking trivial (Function.update_self _ _ _) (if_pos hr).symm hsent
    · have hcopy : copyOf node calls t = .ok (calls t).content := if_neg hr
      exact {
        file := fun _ => ⟨_, Function.update_self _ _ _, hcopy.symm⟩
        hashed := fun _ hp => nomatch hp
        delivered := fun hrestricted => absurd hrestricted hr
        sent := fun _ hs => absurd (h.sent _ hs).1 not_false
        kept := fun hp => nomatch hp }
  | exported =>
    refine h.reading trivial not_false (fun supported => ?_) (fun file => ?_) rfl
    · cases supported <;> trivial
    · refine bind_congr fun supported => ?_
      cases supported <;> rfl
  | supported =>
    refine h.reading (f := .reading) trivial not_false (fun _ => trivial) (fun file => ?_) rfl
    exact bind_assoc _ _ _
  | reading fieldName =>
    refine h.reading (f := .described) trivial not_false (fun _ => trivial) (fun file => ?_) rfl
    exact (bind_assoc _ _ _).symm
  | described description =>
    exact h.reading (f := fun fieldName => .writing fieldName description) trivial not_false
      (fun _ => trivial) (fun file => rfl) rfl
  | writing fieldName description =>
    obtain ⟨file, hfile, hcopy⟩ := h.file trivial
    have hcopy : writeMetadata file fieldName description = copyOf node calls t := hcopy
    have hsent := h.unsent not_false
    rw [resumeDownloading, exec_bind_ok (exec_openFile hfile), orThrow, exec_bind, exec_lift]
    cases hx : writeMetadata file fieldName description with
    | error e => exact .thrown e hsent
    | ok file' => exact .marking trivial (Function.update_self _ _ _) (hx.symm.trans hcopy) hsent
  | marked =>
    obtain ⟨file, hfile, hcopy⟩ := h.copy trivial fun _ => rfl
    rw [resumeDownloading, exec_bind_ok (exec_openFile hfile)]
    exact {
      file := fun _ => ⟨file, hfile, hcopy.symm⟩
      hashed := fun _ hp => ⟨file, hcopy, (DownloadState.hashed.inj hp).symm⟩
      delivered := fun _ => False.elim
      sent := fun _ hs => absurd (h.sent _ hs).1 not_false
      kept := fun hp => nomatch hp }
  | hashed deliveredFileHash =>
    obtain ⟨file, hfile, hcopy⟩ := h.copy trivial fun _ => rfl
    obtain ⟨copy, hcopy', rfl⟩ := h.hashed _ rfl
    obtain rfl : copy = file := Except.ok.inj (hcopy'.symm.trans hcopy)
    rw [resumeDownloading]
    cases (calls t).updateError with
    | some e => exact .thrown e (h.unsent not_false)
    | none => exact {
        file := fun _ => ⟨copy, hfile, hcopy.symm⟩
        hashed := fun _ hp => nomatch hp
        delivered := fun _ _ => ⟨copy, hcopy, Function.update_self _ _ _⟩
        sent := fun _ hs => absurd (h.sent _ hs).1 not_false
        kept := fun hp => nomatch hp }
  | recorded =>
    obtain ⟨file, hfile, hcopy⟩ := h.copy trivial fun _ => rfl
    have hexec : exec (resumeDownloading node calls t .recorded) w =
        (.ok .sent, { w with sent := Function.update w.sent t (some file) }) := by
      rw [resumeDownloading, exec_bind_ok (exec_openFile hfile)]
      rfl
    rw [hexec]
    exact {
      file := fun _ => ⟨file, hfile, hcopy.symm⟩
      hashed := fun _ hp => nomatch hp
      delivered := fun hr _ => h.delivered hr trivial
      sent := fun sent hs => by
        obtain rfl : file = sent :=
          Option.some.inj ((Function.update_self t (some file) w.sent).symm.trans hs)
        exact ⟨trivial, hcopy⟩
      kept := fun hp => nomatch hp }
  | sent =>
    obtain ⟨file, hfile, -⟩ := h.copy trivial fun _ => rfl
    have hexec : exec (resumeDownloading node calls t .sent) w =
        (.ok .ended, { w with files := Function.update w.files (pathOf node calls t) none }) := by
      rw [resumeDownloading, rmSync, bind_assoc, exec_bind_ok (exec_openFile hfile)]
      rfl
    rw [hexec]
    exact {
      file := False.elim
      hashed := fun _ hp => nomatch hp
      delivered := fun hr _ => h.delivered hr trivial
      sent := fun file hs => ⟨trivial, (h.sent file hs).2⟩
      kept := fun hp => nomatch hp }
  | ended => exact h
  | rejected e => exact h

/-! ### What the other downloads leave alone -/

section

variable {γ : Type} {R : DeliveryWorld ι → γ}

omit [Encodings] [DecidableEq ι] in
theorem keeps_openFile : Keeps R (openFile path : Eff (DeliveryWorld ι) DownloadError File) := by
  refine keeps_get.bind fun w => ?_
  cases w.files path with
  | none => exact keeps_throw _
  | some file => exact keeps_pure file

omit [Encodings] [DecidableEq ι] in
theorem keeps_orThrow (x : Except Err α) : Keeps R (orThrow x) := fun _ => rfl

/-- A segment that changes nothing but the files at the path of the download and its own rows. -/
theorem keeps_resume (hfile : ∀ file, Keeps R (writeFile (pathOf node calls u) file))
    (hrm : Keeps R (rmSync (pathOf node calls u)))
    (hrow : ∀ row, Keeps R (modify fun w => { w with delivered := Function.update w.delivered u row } :
      Eff (DeliveryWorld ι) DownloadError Unit))
    (hsent : ∀ file, Keeps R (modify fun w => { w with sent := Function.update w.sent u file } :
      Eff (DeliveryWorld ι) DownloadError Unit)) (p : DownloadState) :
    Keeps R (resumeDownloading node calls u p) := by
  cases p with
  | called => exact (hfile _).bind fun _ => keeps_pure _
  | exported => exact keeps_openFile.bind fun _ => (keeps_orThrow _).bind fun _ => keeps_pure _
  | supported => exact keeps_openFile.bind fun _ => (keeps_orThrow _).bind fun _ => keeps_pure _
  | reading fieldName =>
    exact keeps_openFile.bind fun _ => (keeps_orThrow _).bind fun _ => keeps_pure _
  | described description =>
    exact keeps_openFile.bind fun _ => (keeps_orThrow _).bind fun _ => keeps_pure _
  | writing fieldName description =>
    exact keeps_openFile.bind fun _ => (keeps_orThrow _).bind fun file =>
      (hfile file).bind fun _ => keeps_pure _
  | marked => exact keeps_openFile.bind fun _ => keeps_pure _
  | hashed deliveredFileHash =>
    rw [resumeDownloading]
    cases (calls u).updateError with
    | some e => exact keeps_throw _
    | none => exact (hrow _).bind fun _ => keeps_pure _
  | recorded => exact keeps_openFile.bind fun _ => (hsent _).bind fun _ => keeps_pure _
  | sent => exact hrm.bind fun _ => keeps_pure _
  | ended => exact keeps_pure _
  | rejected e => exact keeps_pure _

/-- The files at other paths. -/
theorem keeps_files (h : path ≠ pathOf node calls u) (p : DownloadState) :
    Keeps (fun w => w.files path) (resumeDownloading node calls u p) :=
  keeps_resume (fun _ _ => Function.update_of_ne h _ _)
    (keeps_openFile.bind fun _ _ => Function.update_of_ne h _ _) (fun _ _ => rfl) (fun _ _ => rfl) p

/-- The rows and the responses of other downloads. -/
theorem keeps_rows (h : t ≠ u) (p : DownloadState) :
    Keeps (fun w => (w.delivered t, w.sent t)) (resumeDownloading node calls u p) :=
  keeps_resume (fun _ _ => rfl) (keeps_openFile.bind fun _ _ => rfl)
    (fun _ _ => Prod.ext (Function.update_of_ne h _ _) rfl)
    (fun _ _ => Prod.ext rfl (Function.update_of_ne h _ _)) p

end

theorem resumed_world (s : System (DeliveryWorld ι) ι DownloadState) (u : ι) :
    ((downloads node calls).resumed s u).world =
      (exec (resumeDownloading node calls u (s.task u)) s.world).2 := rfl

theorem resumed_task_self (s : System (DeliveryWorld ι) ι DownloadState) (u : ι) :
    ((downloads node calls).resumed s u).task u =
      (downloads node calls).reached (exec (resumeDownloading node calls u (s.task u)) s.world).1 :=
  Function.update_self _ _ _

/-- A download that goes on from a point without a file holds none, unless it exports one. -/
theorem holds_resumed (node : DeliveryNode) (calls : ι → Download)
    {s : System (DeliveryWorld ι) ι DownloadState} (hu : ¬ (s.task u).Holds) :
    (s.task u = .called ∧ (((downloads node calls).resumed s u).task u).Holds) ∨
      (¬ (((downloads node calls).resumed s u).task u).Holds ∧
        ((downloads node calls).resumed s u).world = s.world) := by
  rw [resumed_task_self, resumed_world]
  cases hp : s.task u with
  | called =>
    refine .inl ⟨rfl, ?_⟩
    show (if (calls u).downloaded.restricted then DownloadState.exported else .recorded).Holds
    split_ifs <;> trivial
  | ended => exact .inr ⟨not_false, rfl⟩
  | rejected e => exact .inr ⟨not_false, rfl⟩
  | _ =>
    rw [hp] at hu
    exact absurd trivial hu

/-- Another download goes on, at another path. -/
theorem relies_other {s : System (DeliveryWorld ι) ι DownloadState} (h : t ≠ u)
    (hpath : (s.task u).Holds ∨ (((downloads node calls).resumed s u).task u).Holds →
      (s.task t).Holds → pathOf node calls t ≠ pathOf node calls u)
    (hs : Relies node calls t (s.task t) s.world) :
    Relies node calls t (s.task t) ((downloads node calls).resumed s u).world := by
  have hrows : Keeps _ (resumeDownloading node calls u (s.task u)) := keeps_rows h _
  replace hrows := hrows s.world
  rw [← resumed_world, Prod.mk.injEq] at hrows
  have hfiles : (s.task t).Holds →
      ((downloads node calls).resumed s u).world.files (pathOf node calls t) =
        s.world.files (pathOf node calls t) := by
    intro ht
    rw [resumed_world]
    by_cases hu : (s.task u).Holds ∨ (((downloads node calls).resumed s u).task u).Holds
    · exact keeps_files (hpath hu ht) (s.task u) s.world
    · rw [not_or] at hu
      rcases holds_resumed node calls hu.1 with ⟨-, hafter⟩ | ⟨-, hworld⟩
      · exact absurd hafter hu.2
      · rw [← resumed_world, hworld]
  exact {
    file := fun ht => by
      rw [hfiles ht]
      exact hs.file ht
    hashed := hs.hashed
    delivered := by
      rw [hrows.1]
      exact hs.delivered
    sent := by
      rw [hrows.2]
      exact hs.sent
    kept := hs.kept }

/-! ### The metadata that are read again -/

omit [FileTools] in
theorem encode_isInfix_setMetadata (updater : Updater) (metadata : RestrictedDeliveryMetadata) :
    encode metadata <:+: (updater.setMetadata metadata).text := by
  rw [Updater.setMetadata]
  split
  · split_ifs
    · exact ⟨_, _, rfl⟩
    · exact List.infix_refl _
  · exact ⟨_, _, rfl⟩

theorem setMetadata_carries {file : File} {metadata : RestrictedDeliveryMetadata} (htools : ReadsBack)
    (hsupported : isExifSupported content = .ok true) (h : setMetadata content metadata = .ok file) :
    Carries file metadata := by
  rw [setMetadata, hsupported, ok_bind, if_pos rfl] at h
  obtain ⟨description, -, h⟩ := bind_eq_ok.mp h
  obtain ⟨description', hupdated, h⟩ := bind_eq_ok.mp h
  obtain ⟨fieldName, hfield, hwrite⟩ := bind_eq_ok.mp h
  obtain ⟨updater, -, hset⟩ := bind_eq_ok.mp hupdated
  obtain rfl : (updater.setMetadata metadata).text = description' := Except.ok.inj hset
  have hinfix := encode_isInfix_setMetadata updater metadata
  have hne : (updater.setMetadata metadata).text ≠ [] := by
    intro hnil
    rw [hnil, List.infix_nil, encode_eq_block] at hinfix
    simp at hinfix
  obtain ⟨htype, hread⟩ := htools content file fieldName _ hne hwrite
  refine ⟨_, ?_, hinfix⟩
  rw [readImageDescription, descriptionField, htype]
  exact bind_eq_ok.mpr ⟨fieldName, hfield, hread⟩

/-- **No delivery is mixed with another one**, when downloads export alone. -/
theorem run_unmixed (htools : ReadsBack) (files : String → Option File) (ts : List ι)
    (halone : Along (downloads node calls).step (ExportsAlone node calls) (initially files) ts) :
    Unmixed node calls (run (downloads node calls).step (initially files) ts) := by
  have hfree : Along (downloads node calls).step
      ((downloads node calls).TakesFree (pathOf node calls) DownloadState.Holds)
      (initially files) ts := by
    refine halone.mono fun s u hs hu hafter => ?_
    rcases holds_resumed node calls hu with ⟨hcalled, -⟩ | ⟨hnot, -⟩
    · exact hs hcalled
    · exact absurd hafter hnot
  have hrelies : ∀ t, Relies node calls t
      ((run (downloads node calls).step (initially files) ts).task t)
      (run (downloads node calls).step (initially files) ts).world := by
    refine Code.run_exclusive (J := Relies node calls) (fun s t hs => ?_)
      (fun s t u ht hpath hs => relies_other ht hpath hs) (fun u v _ hu => ?_) (fun t => ?_) hfree
    · rw [resumed_world, resumed_task_self]
      exact relies_step hs
    · exact absurd hu not_false
    · exact relies_called
  constructor
  · exact fun t file hsent => ((hrelies t).sent file hsent).2
  · intro t file hsent hr hsupported
    refine setMetadata_carries htools hsupported ?_
    rw [← ((hrelies t).sent file hsent).2, copyOf, if_pos hr]
  · intro t file hsent hr
    obtain ⟨hsends, hcopy⟩ := (hrelies t).sent file hsent
    obtain ⟨copy, hcopy', hrow⟩ := (hrelies t).delivered hr hsends.delivers
    obtain rfl : copy = file := Except.ok.inj (hcopy'.symm.trans hcopy)
    exact hrow
  · exact fun t => (hrelies t).kept

end Segments

end Delivery

/-! ### Two owners of one token -/

/-- A file is an image and its description. -/
@[reducible] def plainTools : FileTools where
  File := String × Option Text
  sha256 file := String.ofList ((file.2.getD []).map fun unit => Char.ofNat unit.toNat)
  readMimeType _ := .ok "image/jpeg"
  readMetadata file _ := .ok file.2
  writeMetadata file _ description := .ok (file.1, some description)

theorem plainTools_readsBack : @ReadsBack plainTools := by
  rintro file file' fieldName description - h
  obtain rfl := Except.ok.inj h
  exact ⟨rfl, rfl⟩

def plainNode : @DeliveryNode plainEncodings :=
  @DeliveryNode.mk plainEncodings (text "12D3KooWBmAwcd4PJNJvfV89HwE48nwkRmAgo8Vy3uQEyNNHBox2")
    (fun _ => [198, 197, 232, 220]) "/tmp" id

/-- The downloads of an item's file by Alice and by Bob. -/
def byAliceAndBob (itemOfBob : Hash) (alice : Bool) : @Download plainTools :=
  @Download.mk plainTools (.itemFile "c" (if alice then "0x01" else itemOfBob) "0x02")
    (if alice then "0xa6db31d1" else "0xfbb0e166") ("image", none) 1660732020000 none

def runByAliceAndBob (itemOfBob : Hash) (ts : List Bool) :
    System (@DeliveryWorld plainTools Bool) Bool DownloadState :=
  run (@downloads plainEncodings plainTools Bool _ plainNode (byAliceAndBob itemOfBob)).step
    (@initially plainTools Bool fun _ => none) ts

/-- The downloads of two items take turns, until both copies are sent and removed. -/
def inTurns : List Bool := (List.replicate 10 [true, false]).flatten

theorem run_unmixed_two :
    (∀ alice, (@DeliveryWorld.sent plainTools _ (runByAliceAndBob "0x03" inTurns).world alice).isSome) ∧
    @Unmixed plainEncodings plainTools Bool plainNode (byAliceAndBob "0x03")
      (runByAliceAndBob "0x03" inTurns) := by
  refine ⟨by decide +kernel, @run_unmixed plainEncodings plainTools Bool _ plainNode (byAliceAndBob "0x03")
    plainTools_readsBack _ _ (along_iff.mpr fun _ t _ _ _ u hu _ => ?_)⟩
  cases t <;> cases u <;> first | exact absurd rfl hu | decide

/-- Bob's download overwrites the file that Alice's has hashed, and Alice's removes it. -/
def overlapping : List Bool :=
  List.replicate 8 true ++ List.replicate 6 false ++ [true, true, false]

/-- Alice is sent the copy of Bob, whose download fails; the hash of another one is recorded. -/
theorem deliveries_mixed :
    (∃ file, @DeliveryWorld.sent plainTools _ (runByAliceAndBob "0x01" overlapping).world true =
        some file ∧
      @copyOf plainEncodings plainTools Bool plainNode (byAliceAndBob "0x01") false = .ok file ∧
      (@DeliveryWorld.delivered plainTools _ (runByAliceAndBob "0x01" overlapping).world true).map
        FileDelivered.deliveredFileHash ≠ some (@FileTools.sha256 plainTools file)) ∧
    (runByAliceAndBob "0x01" overlapping).task false = .rejected .noSuchFile ∧
    ¬ @Unmixed plainEncodings plainTools Bool plainNode (byAliceAndBob "0x01")
      (runByAliceAndBob "0x01" overlapping) := by
  have hfails : (runByAliceAndBob "0x01" overlapping).task false = .rejected .noSuchFile := rfl
  refine ⟨⟨_, rfl, rfl, by decide +kernel⟩, hfails, fun h => ?_⟩
  exact @Unmixed.kept plainEncodings plainTools _ _ _ _ h false hfails

end Logion
