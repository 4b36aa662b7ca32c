import Logion.Lib.WrittenRows
import Logion.Store.FilePins
import Mathlib.Data.List.Forall2

/-!
# FileContents — the contents behind the rows (`fileupload.ts`, `hashing.ts`, `idenfy.service.ts`)

A file is written to a temporary file, hashed there, and imported from there.  `getUploadedFile` compares
its hash with the one that the client has sent, and `hashAndImport` keeps the one that it computes.  The
row gets the hash, and the CID that `importFile` returns.  The files are hashed and imported at different
times, and whoever shares the path may write to it in between: `express-fileupload` gives every upload a
path of its own, but a callback takes the current millisecond.

* `sha256File`, `getUploadedFile`, `Submission`: a request, with its temporary files.
* `Contents.step`, `files_run`: the runs, and the ones of `FilePins` that they are.
* `writes_of_mutate`: a transaction writes CIDs beside the hashes that they were imported for.
* `Apart`, `ownPaths`: uploads and the callbacks of different milliseconds share no temporary file.
* `genuine_run`: then a row that has a CID has the hash of what was imported under it, in every run.
-/

namespace Logion

open Fallible Table ReadCommitted

namespace FilePins

/-! ### Temporary files -/

abbrev Path := String

/-- An `UploadedFile` of `express-fileupload`, with its temporary file. -/
structure SentFile where
  name : String
  size : ℕ
  mimetype : String
  truncated : Bool
  tempFilePath : Path
  deriving DecidableEq

section

variable {β : Type} (digest : β → Hash) (latin1 : String → String) (temp : Path → Option β)

/-- `sha256File`; `digest` is SHA-256. -/
def sha256File (fileName : Path) : Except Err Hash :=
  match temp fileName with
  | none => throw (.error s!"ENOENT: no such file or directory, open {fileName}")
  | some content => return digest content

/-- `getUploadedFile`, of the field `file` of the request: several files, of which the first one counts,
or one.  `latin1` reads the name again as UTF-8. -/
def getUploadedFile (files : Option (List SentFile)) (receivedHash : Hash) : Except Err SentFile :=
  match files with
  | none => throw (.badRequest "No file detected")
  | some [] => throw (.error "Cannot read properties of undefined")
  | some (file :: _) =>
    if file.truncated then throw (.badRequest "File upload failed (truncated)")
    else do
      let localHash ← sha256File digest temp file.tempFilePath
      if localHash ≠ receivedHash then
        throw (.badRequest s!"Received hash {receivedHash} does not match {localHash}")
      else return { file with name := latin1 file.name }

end

/-- A request, with the files that `express-fileupload` has received with it, and the millisecond that
a callback takes. -/
structure Submission where
  request : Request
  files : Option (List SentFile) := none
  millis : ℕ := 0

/-- The `path.join(os.tmpdir(), ...)` of `storePayload` and `storeFile`; the `randomPrefix` is
`DateTime.now().toMillis().toString()`. -/
def tempFileName (millis : ℕ) (fileName : String) : Path :=
  "/tmp/" ++ toString millis ++ "-" ++ fileName

namespace Submission

/-- `addFile`; `file` is what `getUploadedFile` returns. -/
def addFile (requestId : UUID) (view : AddFileView) (contributor : AccountId) (now : Moment)
    (latin1 : String → String) (file : SentFile) : Submission where
  request := .addFile requestId view contributor ⟨latin1 file.name, file.size, file.mimetype⟩ now
  files := some [file]

/-- `uploadFile` of an item or of a record. -/
def uploadFile (k : ParentKind) (collectionLocId : UUID) (parentId hash : Hash) (file : SentFile) :
    Submission where
  request := .uploadFile k collectionLocId parentId hash
  files := some [file]

/-- `callback`, in this millisecond. -/
def callback (legalOfficer : AccountId) (clientId : UUID) (json : IdenfyCallback) (millis : ℕ) :
    Submission where
  request := .callback legalOfficer clientId json
  millis := millis

def isCallback (s : Submission) : Bool :=
  match s.request with
  | .callback _ _ _ => true
  | _ => false

/-- The file of an upload. -/
def sent (s : Submission) : Option SentFile := s.files.bind List.head?

/-- The temporary files that the request imports, with the hashes that it keeps of them, in order. -/
def tempFiles (s : Submission) : List (Path × Hash) :=
  match s.request with
  | .addFile _ view _ _ _ => (s.sent.map fun file => (file.tempFilePath, view.hash)).toList
  | .uploadFile _ _ _ hash => (s.sent.map fun file => (file.tempFilePath, hash)).toList
  | .callback legalOfficer _ json =>
    if json.Approving then (json.downloadFiles legalOfficer).map fun file =>
      (tempFileName s.millis file.data.name, file.hash)
    else []
  | .deleteFile _ _ _ | .cancelLocRequest _ | .cancelCreateOpenLoc _ => []

section

variable {β : Type} (digest : β → Hash) (latin1 : String → String) (temp : Path → Option β)

/-- The check of an upload, or the hash of `hashAndImport`, for the next of the files. -/
def hashNext (s : Submission) (n : ℕ) : Except Err Hash :=
  match s.request with
  | .addFile _ view _ _ _ => do
    let _ ← getUploadedFile digest latin1 temp s.files view.hash
    return view.hash
  | .uploadFile _ _ _ hash => do
    let _ ← getUploadedFile digest latin1 temp s.files hash
    return hash
  | _ =>
    match s.tempFiles[n]? with
    | none => throw (.error "no file")
    | some (path, _) => sha256File digest temp path

variable {digest latin1 temp}

theorem sha256_of_getUploadedFile {files : Option (List SentFile)} {receivedHash : Hash}
    {file : SentFile} (h : getUploadedFile digest latin1 temp files receivedHash = .ok file) :
    ∃ sent content, files.bind List.head? = some sent ∧ temp sent.tempFilePath = some content ∧
      digest content = receivedHash := by
  unfold getUploadedFile at h
  split at h
  · cases h
  · cases h
  · next sent rest =>
    obtain ⟨-, h⟩ := refused_eq_ok.mp h
    obtain ⟨localHash, hlocal, h⟩ := bind_eq_ok.mp h
    obtain ⟨hsame, -⟩ := refused_eq_ok.mp h
    unfold sha256File at hlocal
    cases htemp : temp sent.tempFilePath with
    | none => rw [htemp] at hlocal; cases hlocal
    | some content =>
      rw [htemp] at hlocal
      cases hlocal
      exact ⟨sent, content, rfl, htemp, not_not.mp hsame⟩

/-- An upload has one temporary file at most. -/
theorem upload_eq {files : Option (List SentFile)} {hash : Hash} {n : ℕ} {entry : Path × Hash}
    (h : ((files.bind List.head?).map fun file => (file.tempFilePath, hash)).toList[n]? = some entry) :
    ∃ file, files.bind List.head? = some file ∧ n = 0 ∧ entry = (file.tempFilePath, hash) := by
  cases hfile : files.bind List.head? with
  | none =>
    rw [hfile] at h
    cases h
  | some file =>
    rw [hfile] at h
    cases n with
    | zero => exact ⟨file, rfl, rfl, (Option.some.inj h).symm⟩
    | succ n => cases h

/-- The next file is there, and has the hash that the request keeps of it. -/
def Hashed (digest : β → Hash) (temp : Path → Option β) (s : Submission) (n : ℕ) : Prop :=
  ∃ path content, s.tempFiles[n]? = some (path, digest content) ∧ temp path = some content

theorem hashed_of_hashNext {s : Submission} {n : ℕ} {entry : Path × Hash}
    (hentry : s.tempFiles[n]? = some entry) (h : s.hashNext digest latin1 temp n = .ok entry.2) :
    s.Hashed digest temp n := by
  obtain ⟨request, files, millis⟩ := s
  have hupload : ∀ {hash : Hash} {sent : SentFile},
      getUploadedFile digest latin1 temp files hash = .ok sent →
      ((files.bind List.head?).map fun file => (file.tempFilePath, hash)).toList[n]? = some entry →
      ∃ path content, some entry = some (path, digest content) ∧ temp path = some content := by
    intro hash sent hsent hmem
    obtain ⟨file, content, hfile, htemp, rfl⟩ := sha256_of_getUploadedFile hsent
    obtain ⟨file', hfile', -, rfl⟩ := upload_eq hmem
    cases hfile.symm.trans hfile'
    exact ⟨_, content, rfl, htemp⟩
  cases request with
  | addFile requestId view contributor file now =>
    obtain ⟨sent, hsent, -⟩ := bind_eq_ok.mp h
    rw [Hashed, hentry]
    exact hupload hsent hentry
  | uploadFile k collectionLocId parentId hash =>
    obtain ⟨sent, hsent, -⟩ := bind_eq_ok.mp h
    rw [Hashed, hentry]
    exact hupload hsent hentry
  | callback | deleteFile | cancelLocRequest | cancelCreateOpenLoc =>
    obtain ⟨path, hash⟩ := entry
    simp only [hashNext, hentry, sha256File] at h
    cases htemp : temp path with
    | none => rw [htemp] at h; cases h
    | some content =>
      rw [htemp] at h
      cases h
      exact ⟨path, content, hentry, htemp⟩

end

end Submission

/-- The hashes that the request writes beside the CIDs of the files that it imports. -/
def Request.hashes : Request → List Hash
  | .addFile _ view _ _ _ => [view.hash]
  | .uploadFile _ _ _ hash => [hash]
  | .callback legalOfficer _ json =>
    if json.Approving then (json.downloadFiles legalOfficer).map FileParams.hash else []
  | .deleteFile _ _ _ | .cancelLocRequest _ | .cancelCreateOpenLoc _ => []

theorem length_hashes (request : Request) : request.hashes.length = request.imports := by
  cases request with
  | callback legalOfficer clientId json =>
    simp only [Request.hashes, Request.imports]
    split_ifs
    · exact List.length_map _
    · rfl
  | addFile | deleteFile | cancelLocRequest | cancelCreateOpenLoc | uploadFile => rfl

/-- A file that the request imports has the hash that it writes. -/
theorem hash_of_tempFiles {s : Submission} {n : ℕ} {entry : Path × Hash}
    (h : s.tempFiles[n]? = some entry) : s.request.hashes[n]? = some entry.2 := by
  obtain ⟨request, files, millis⟩ := s
  have hupload : ∀ {hash : Hash},
      ((files.bind List.head?).map fun file => (file.tempFilePath, hash)).toList[n]? = some entry →
      [hash][n]? = some entry.2 := by
    intro hash hmem
    obtain ⟨file, -, rfl, rfl⟩ := Submission.upload_eq hmem
    rfl
  cases request with
  | addFile | uploadFile => exact hupload h
  | callback legalOfficer clientId json =>
    simp only [Submission.tempFiles] at h
    simp only [Request.hashes]
    split_ifs at h ⊢
    · rw [List.getElem?_map] at h ⊢
      obtain ⟨file, hfile, rfl⟩ := Option.map_eq_some_iff.mp h
      rw [hfile]
      rfl
    · cases h
  | deleteFile | cancelLocRequest | cancelCreateOpenLoc => cases h

/-! ### Runs -/

/-- The index of the file that the request reads next. -/
def Phase.reading : Phase → Option ℕ
  | .ready => some 0
  | .importing cids => some cids.length
  | _ => none

/-- The system with the temporary files; the requests that have hashed the file that they import next;
and what `importFile` was given when it returned a CID. -/
structure Contents (ι β : Type) where
  files : System ι
  temp : Path → Option β
  hashed : ι → Bool
  given : Cid → Option β

/-- An operation of `FilePins`; a request, or whoever has received its files, writes the one that it
imports next; the request hashes it. -/
inductive ContentsOp (ι β : Type)
  | files (o : Op ι)
  | writeFile (t : ι) (content : β)
  | hashFile (t : ι)

variable {ι : Type} [DecidableEq ι] {β : Type} {digest : β → Hash} {latin1 : String → String}

namespace Contents

variable (digest latin1) (submissions : ι → Submission)

/-- The requests. -/
def requests (t : ι) : Request := (submissions t).request

/-- The file that the request imports next. -/
def nextFile (σ : Contents ι β) (t : ι) : Option (Path × Hash) :=
  (σ.files.phase t).reading.bind fun n => (submissions t).tempFiles[n]?

/-- `importFile` reads the temporary file and removes it. -/
def imported (σ : Contents ι β) (files : System ι) (t : ι) (cid : Cid) (path : Path) : Contents ι β where
  files := files
  temp := Function.update σ.temp path none
  hashed := Function.update σ.hashed t false
  given := Function.update σ.given cid (σ.temp path)

def step (σ : Contents ι β) : ContentsOp ι β → Except Idle (Contents ι β)
  | .files (.importFile t cid) => do
    let files ← FilePins.step (requests submissions) σ.files (.importFile t cid)
    match σ.nextFile submissions t with
    | some (path, _) => if σ.hashed t then return σ.imported files t cid path else throw .elsewhere
    | none => throw .elsewhere
  | .files o => do
    let files ← FilePins.step (requests submissions) σ.files o
    return { σ with files }
  | .writeFile t content =>
    match σ.nextFile submissions t with
    | some (path, _) =>
      if σ.hashed t then throw .elsewhere
      else return { σ with temp := Function.update σ.temp path (some content) }
    | none => throw .elsewhere
  | .hashFile t =>
    match (σ.files.phase t).reading, σ.nextFile submissions t with
    | some n, some (_, hash) =>
      -- an upload with another hash is refused, and a callback writes the hash that it computes
      if (submissions t).hashNext digest latin1 σ.temp n = .ok hash then
        return { σ with hashed := Function.update σ.hashed t true }
      else throw .elsewhere
    | _, _ => throw .elsewhere

/-- No request has started. -/
def start (rows : FileRows) (given : Cid → Option β) : Contents ι β where
  files := FilePins.start rows
  temp _ := none
  hashed _ := false
  given := given

end Contents

/-- No two requests share a temporary file. -/
def OwnPaths (submissions : ι → Submission) : Prop :=
  ∀ t u, t ≠ u → ∀ f ∈ (submissions t).tempFiles, ∀ f' ∈ (submissions u).tempFiles, f.1 ≠ f'.1

/-- `express-fileupload` gives every upload a temporary file of its own, with a name that is none of a
callback, and no two callbacks take the same millisecond. -/
structure Apart (submissions : ι → Submission) : Prop where
  uploads : ∀ t u, t ≠ u → ∀ file ∈ (submissions t).sent, ∀ file' ∈ (submissions u).sent,
    file.tempFilePath ≠ file'.tempFilePath
  names : ∀ t, ∀ file ∈ (submissions t).sent, ∀ millis fileName,
    file.tempFilePath ≠ tempFileName millis fileName
  callbacks : ∀ t u, t ≠ u → (submissions t).isCallback = true → (submissions u).isCallback = true →
    (submissions t).millis ≠ (submissions u).millis

/-- The millisecond can be read off the name. -/
theorem digits_of_tempFileName (millis : ℕ) (fileName : String) :
    ∃ rest, (tempFileName millis fileName).toList = "/tmp/".toList ++ rest ∧
      rest.takeWhile Char.isDigit = Nat.toDigits 10 millis := by
  have hdigits : ∀ c ∈ Nat.toDigits 10 millis, c.isDigit = true :=
    fun c hc => Nat.isDigit_of_mem_toDigits (by decide) (by decide) hc
  refine ⟨Nat.toDigits 10 millis ++ '-' :: fileName.toList, ?_, ?_⟩
  · simp [tempFileName, Nat.toString_eq_repr]
  · rw [List.takeWhile_append_of_pos hdigits]
    simp

theorem millis_of_tempFileName {millis millis' : ℕ} {fileName fileName' : String}
    (h : tempFileName millis fileName = tempFileName millis' fileName') : millis = millis' := by
  obtain ⟨rest, hrest, hdigits⟩ := digits_of_tempFileName millis fileName
  obtain ⟨rest', hrest', hdigits'⟩ := digits_of_tempFileName millis' fileName'
  have hsame : rest = rest' := by
    rw [h, hrest'] at hrest
    exact (List.append_cancel_left hrest).symm
  have hvalue := congrArg (fun digits => Nat.ofDigitChars 10 digits 0)
    (hdigits.symm.trans (hsame ▸ hdigits'))
  simpa only [Nat.ofDigitChars_toDigits (b := 10) (by decide) (by decide)] using hvalue

/-- A temporary file is the one of an upload, or one of a callback. -/
theorem mem_tempFiles {s : Submission} {f : Path × Hash} (h : f ∈ s.tempFiles) :
    (∃ file ∈ s.sent, f.1 = file.tempFilePath) ∨
      s.isCallback = true ∧ ∃ fileName, f.1 = tempFileName s.millis fileName := by
  have hupload : ∀ {hash : Hash}, f ∈ (s.sent.map fun file => (file.tempFilePath, hash)).toList →
      ∃ file ∈ s.sent, f.1 = file.tempFilePath := by
    intro hash hmem
    obtain ⟨file, hfile, rfl⟩ := Option.map_eq_some_iff.mp (Option.mem_toList.mp hmem)
    exact ⟨file, hfile, rfl⟩
  unfold Submission.tempFiles at h
  unfold Submission.isCallback
  split at h
  · exact .inl (hupload h)
  · exact .inl (hupload h)
  · next hrequest =>
    split_ifs at h
    · obtain ⟨file, -, rfl⟩ := List.mem_map.mp h
      rw [hrequest]
      exact .inr ⟨rfl, file.data.name, rfl⟩
    · cases h
  · cases h
  · cases h
  · cases h

omit [DecidableEq ι] in
/-- **Temporary files are not shared.** -/
theorem Apart.ownPaths {submissions : ι → Submission} (h : Apart submissions) : OwnPaths submissions := by
  intro t u hne f hf f' hf' heq
  rcases mem_tempFiles hf with ⟨file, hfile, hpath⟩ | ⟨ht, fileName, hpath⟩ <;>
    rcases mem_tempFiles hf' with ⟨file', hfile', hpath'⟩ | ⟨hu, fileName', hpath'⟩ <;>
    rw [hpath, hpath'] at heq
  · exact h.uploads t u hne file hfile file' hfile' heq
  · exact h.names t file hfile _ _ heq
  · exact h.names u file' hfile' _ _ heq.symm
  · exact h.callbacks t u hne ht hu (millis_of_tempFileName heq)

/-- The column `hash`. -/
def rowHash : (T : FileTable) → StoredRow T → Hash
  | .loc, r =>
    let r : ItemRow .file := r
    r.columns.key
  | .files _, r =>
    let r : FileRow := r
    r.hash

/-- The CID of the row, if it has one, goes with its hash. -/
def Bound (P : Cid → Hash → Prop) (T : FileTable) (r : StoredRow T) : Prop :=
  ∀ cid ∈ rowCid T r, P cid (rowHash T r)

/-- What was imported under the CID has the hash. -/
def Contents.Genuine (digest : β → Hash) (σ : Contents ι β) (cid : Cid) (hash : Hash) : Prop :=
  ∃ content, σ.given cid = some content ∧ digest content = hash

/-! ### What a transaction writes -/

section

variable {P : Cid → Hash → Prop} {rows : FileRows} {requestId : UUID} {l l' : LocRequest}
  {cids : List Cid}

/-- The CID of the file, if it has one, goes with its hash. -/
def FileBound (P : Cid → Hash → Prop) (f : LocFile) : Prop := ∀ cid ∈ nonEmpty (fileCid f), P cid f.key

theorem eq_of_mem_nonEmpty {text text' : String} (h : text' ∈ nonEmpty (some text)) : text = text' := by
  unfold nonEmpty at h
  split_ifs at h
  · cases h
  · exact Option.some.inj h

theorem bound_toRow {f : LocFile} (h : FileBound P f) : Bound P .loc (f.toRow requestId) := h

/-- The loaded files are those of some rows. -/
theorem fileBound_findById (h : ∀ r ∈ rows .loc, Bound P .loc r) :
    ∀ f ∈ (findById rows requestId l).files, FileBound P f := by
  intro f hf
  obtain ⟨r, hr, rfl⟩ := List.mem_map.mp hf
  exact h r (List.mem_of_mem_filter hr)

theorem writes_saveFiles (h : ∀ f ∈ l.files, FileBound P f) :
    ∀ s ∈ onLoc l.saveFiles, Writes (Bound P s.table) s.statement := by
  intro s hs
  obtain ⟨statement, hstatement, rfl⟩ := List.mem_map.mp hs
  rw [saveFiles_eq] at hstatement
  rcases List.mem_append.mp hstatement with hstatement | hstatement
  · obtain ⟨f, -, rfl⟩ := List.mem_map.mp hstatement
    trivial
  · obtain ⟨f, hf, hstatement⟩ := List.mem_flatMap.mp hstatement
    have hbound : FileBound P f := h f ((order_perm l.files).subset hf)
    unfold ChildParameters.saveChild at hstatement
    split_ifs at hstatement
    · rw [List.mem_singleton.mp hstatement]
      exact bound_toRow hbound
    · rw [List.mem_singleton.mp hstatement]
      exact fun _ _ => bound_toRow hbound
    · cases hstatement

theorem fileBound_addFile {hash : Hash} {submitter : AccountId} {data : FileData}
    {type : SubmissionType} {now : Moment} (h : l.addFile hash submitter data type now = .ok l')
    (hfiles : ∀ f ∈ l.files, FileBound P f) (hnew : ∀ cid ∈ nonEmpty data.cid, P cid hash) :
    ∀ f ∈ l'.files, FileBound P f := by
  obtain ⟨-, rfl⟩ := LocRequest.addItem_ok h
  intro f hf
  rcases List.mem_append.mp hf with hf | hf
  · exact hfiles f hf
  · rw [List.mem_singleton.mp hf]
    exact hnew

theorem fileBound_addFiles {files : List FileParams} {now : Moment}
    (h : l.addFiles files now = .ok l') (hfiles : ∀ f ∈ l.files, FileBound P f)
    (hnew : ∀ file ∈ files, ∀ cid ∈ nonEmpty file.data.cid, P cid file.hash) :
    ∀ f ∈ l'.files, FileBound P f := by
  induction files generalizing l with
  | nil =>
    cases h
    exact hfiles
  | cons file files ih =>
    rw [LocRequest.addFiles, List.foldlM_cons] at h
    obtain ⟨l₁, h₁, h⟩ := bind_eq_ok.mp h
    exact ih h (fileBound_addFile h₁ hfiles (hnew file List.mem_cons_self))
      fun file' hmem => hnew file' (List.mem_cons_of_mem _ hmem)

/-- A removal moves the files, and changes nothing else in them. -/
theorem fileBound_removeFile {contributor : AccountId} {hash : Hash}
    (h : l.removeFile contributor hash = .ok l') (hfiles : ∀ f ∈ l.files, FileBound P f) :
    ∀ f ∈ l'.files, FileBound P f := by
  obtain ⟨file, hfile, rfl⟩ := LocRequest.removeItem_ok h
  intro f hf
  obtain ⟨child, hchild, rfl⟩ := List.mem_map.mp hf
  rw [Keyed.lookup_key hfile] at hchild
  have hmem := (Keyed.perm_eraseFirst hfile).symm.subset (List.mem_cons_of_mem _ hchild)
  split_ifs <;> exact hfiles child hmem

/-- The files of a callback, with the CIDs that they were imported under. -/
theorem bound_withCids {files : List FileParams}
    (h : List.Forall₂ P cids (files.map FileParams.hash)) :
    ∀ file ∈ withCids files cids, ∀ cid ∈ nonEmpty file.data.cid, P cid file.hash := by
  induction files generalizing cids with
  | nil =>
    cases h
    intro file hfile
    cases hfile
  | cons file files ih =>
    obtain ⟨cid, rest, hcid, hrest, rfl⟩ := List.forall₂_cons_right_iff.mp h
    intro file' hfile'
    rcases List.mem_cons.mp hfile' with rfl | hfile'
    · intro cid' hcid'
      rwa [← eq_of_mem_nonEmpty hcid']
    · exact ih hrest file' hfile'

/-- **What a transaction writes**, when its CIDs go with the hashes that it imported them for. -/
theorem writes_of_mutate {request : Request} {found : Option LocRequest} {changes : Changes}
    (hcids : List.Forall₂ P cids request.hashes) (hrows : ∀ T, ∀ r ∈ rows T, Bound P T r)
    (h : request.mutate rows found cids = .ok changes) :
    ∀ s ∈ changes.statements, Writes (Bound P s.table) s.statement := by
  cases request with
  | addFile requestId view contributor file now =>
    obtain ⟨l, -, h⟩ := bind_eq_ok.mp h
    obtain ⟨l', hadd, h⟩ := bind_eq_ok.mp h
    cases h
    obtain ⟨cid, rest, hcid, hrest, rfl⟩ := List.forall₂_cons_right_iff.mp hcids
    refine writes_saveFiles (fileBound_addFile hadd (fileBound_findById (hrows .loc)) ?_)
    intro cid' hcid'
    rwa [← eq_of_mem_nonEmpty hcid']
  | deleteFile requestId contributor hash =>
    obtain ⟨l, -, h⟩ := bind_eq_ok.mp h
    obtain ⟨l', hremove, h⟩ := bind_eq_ok.mp h
    cases h
    exact writes_saveFiles (fileBound_removeFile hremove (fileBound_findById (hrows .loc)))
  | cancelLocRequest requestId | cancelCreateOpenLoc requestId =>
    obtain ⟨l, -, h⟩ := bind_eq_ok.mp h
    dsimp only at h
    split_ifs at h
    cases h
    intro s hs
    rw [List.mem_singleton.mp hs]
    trivial
  | uploadFile k collectionLocId parentId hash =>
    obtain ⟨root, hset, h⟩ := bind_eq_ok.mp h
    cases h
    obtain ⟨cid, rest, hcid, hrest, rfl⟩ := List.forall₂_cons_right_iff.mp hcids
    obtain ⟨file, -, hhash, hsave⟩ := saveFiles_setFileCid (loads_findBy k collectionLocId parentId) hset
    rw [hsave]
    intro s hs
    rw [List.mem_singleton.mp hs]
    intro _ _ cid' hcid'
    have hrow : P cid file.columns.hash := by rwa [hhash]
    rwa [← eq_of_mem_nonEmpty hcid']
  | callback legalOfficer clientId json =>
    obtain ⟨l, -, h⟩ := bind_eq_ok.mp h
    obtain ⟨l₁, hupdate, h⟩ := bind_eq_ok.mp h
    obtain ⟨l', hadd, h⟩ := bind_eq_ok.mp h
    cases h
    refine writes_saveFiles (fileBound_addFiles hadd ?_ ?_)
    · rw [(updateIdenfyVerification_files hupdate).2]
      exact fileBound_findById (hrows .loc)
    · simp only [Request.hashes] at hcids
      split_ifs at hcids ⊢
      · exact bound_withCids hcids
      · intro file hfile
        cases hfile

end

/-! ### The invariant -/

namespace Contents

variable {submissions : ι → Submission} {σ σ' : Contents ι β} {t : ι}

/-- The CID was returned for a content with the hash. -/
def Holds (digest : β → Hash) (σ : Contents ι β) (cid : Cid) (hash : Hash) : Prop :=
  cid ∈ σ.files.imported ∧ σ.Genuine digest cid hash

/-- What a request has imported so far goes with its hashes, and so does what it is going to write. -/
def PhaseBound (P : Cid → Hash → Prop) (hashes : List Hash) : Phase → Prop
  | .importing cids => List.Forall₂ P cids (hashes.take cids.length)
  | .saving _ _ _ todo => ∀ s ∈ todo, Writes (Bound P s.table) s.statement
  | _ => True

structure Inv (digest : β → Hash) (submissions : ι → Submission) (σ : Contents ι β) : Prop where
  rows : EverywhereAll (Bound (σ.Holds digest)) σ.files.tables
  phases : ∀ u, PhaseBound (σ.Holds digest) (requests submissions u).hashes (σ.files.phase u)
  hashed : ∀ u n, σ.hashed u = true → (σ.files.phase u).reading = some n →
    (submissions u).Hashed digest σ.temp n

omit [DecidableEq ι] in
theorem PhaseBound.mono {P Q : Cid → Hash → Prop} {hashes : List Hash} {p : Phase}
    (h : PhaseBound P hashes p) (hPQ : ∀ cid hash, P cid hash → Q cid hash) : PhaseBound Q hashes p := by
  cases p with
  | importing cids => exact List.Forall₂.imp hPQ h
  | saving cids removed done todo =>
    exact fun s hs => (h s hs).mono fun r hr cid hcid => hPQ cid _ (hr cid hcid)
  | ready | deleting => trivial

/-- A step that imports nothing. -/
theorem Inv.moved (h : Inv digest submissions σ) {tables : Versions ι StoredRow} {p : Phase}
    (hrows : EverywhereAll (Bound (σ.Holds digest)) tables)
    (hp : PhaseBound (σ.Holds digest) (requests submissions t).hashes p)
    (hreading : ∀ n, p.reading = some n → (σ.files.phase t).reading = some n) :
    Inv digest submissions { σ with files := σ.files.moved t tables p } where
  rows := hrows
  phases u := by
    show PhaseBound (σ.Holds digest) _ (Function.update σ.files.phase t p u)
    by_cases hu : u = t
    · rw [hu, Function.update_self]
      exact hp
    · rw [Function.update_of_ne hu]
      exact h.phases u
  hashed u n hhashed hn := by
    have hn : (Function.update σ.files.phase t p u).reading = some n := hn
    refine h.hashed u n hhashed ?_
    by_cases hu : u = t
    · rw [hu, Function.update_self] at hn
      exact hu ▸ hreading n hn
    · rwa [Function.update_of_ne hu] at hn

theorem Inv.thrown (h : Inv digest submissions σ) :
    Inv digest submissions { σ with files := σ.files.thrown t (requests submissions) } :=
  h.moved h.rows.rollbackAll trivial fun _ hn => by cases hn

theorem Inv.resume (h : Inv digest submissions σ) {l : Option LocRequest} {files : System ι}
    (hok : σ.files.resume t (requests submissions) l = .ok files) :
    Inv digest submissions { σ with files } := by
  unfold System.resume at hok
  have hphase := h.phases t
  cases hp : σ.files.phase t with
  | ready =>
    simp only [hp] at hok
    split_ifs at hok <;> cases hok
    · refine h.moved h.rows List.Forall₂.nil fun n hn => ?_
      rw [hp]
      exact hn
    · exact h.moved h.rows trivial fun _ hn => by cases hn
  | importing cids =>
    rw [hp] at hphase
    simp only [hp] at hok
    split_ifs at hok with hall
    cases hmutate : (requests submissions t).mutate (viewAll t σ.files.tables) l cids with
    | error e =>
      simp only [hmutate] at hok
      cases hok
      exact h.thrown
    | ok changes =>
      simp only [hmutate] at hok
      cases hok
      refine h.moved h.rows (writes_of_mutate ?_ (fun T => (h.rows T).view) hmutate)
        fun _ hn => by cases hn
      have hlen : (requests submissions t).hashes.length ≤ cids.length := by
        rw [length_hashes]
        exact Nat.le_of_not_lt hall
      have hcids : List.Forall₂ (σ.Holds digest) cids
        ((requests submissions t).hashes.take cids.length) := hphase
      rwa [List.take_of_length_le hlen] at hcids
  | saving cids removed done todo =>
    rw [hp] at hphase
    cases todo with
    | nil =>
      simp only [hp] at hok
      cases hok
      exact h.moved h.rows.commitAll trivial fun _ hn => by cases hn
    | cons s todo =>
      simp only [hp] at hok
      split_ifs at hok <;> cases hok
      · exact h.moved (h.rows.execOn (hphase s List.mem_cons_self))
          (fun s' hs' => hphase s' (List.mem_cons_of_mem s hs')) fun _ hn => by cases hn
      · exact h.thrown
  | deleting cids =>
    simp only [hp] at hok
    cases hok

omit [DecidableEq ι] in
theorem nextFile_some {entry : Path × Hash} (h : σ.nextFile submissions t = some entry) :
    ∃ n, (σ.files.phase t).reading = some n ∧ (submissions t).tempFiles[n]? = some entry :=
  Option.bind_eq_some_iff.mp h

omit [DecidableEq ι] in
/-- What a request does to its own temporary file, the others do not see. -/
theorem hashed_update (hown : OwnPaths submissions) {u : ι} (hne : u ≠ t) {n m : ℕ} {path : Path}
    {hash : Hash} {content : Option β} (hpath : (submissions t).tempFiles[m]? = some (path, hash))
    (h : (submissions u).Hashed digest σ.temp n) :
    (submissions u).Hashed digest (Function.update σ.temp path content) n := by
  obtain ⟨path', content', hpath', htemp⟩ := h
  refine ⟨path', content', hpath', ?_⟩
  rw [Function.update_of_ne, htemp]
  exact hown u t hne _ (List.mem_of_getElem? hpath') _ (List.mem_of_getElem? hpath)

omit [DecidableEq ι] in
theorem Inv.writeFile (h : Inv digest submissions σ) (hown : OwnPaths submissions) {path : Path}
    {hash : Hash} {content : β} (hnext : σ.nextFile submissions t = some (path, hash))
    (hnot : σ.hashed t = false) :
    Inv digest submissions { σ with temp := Function.update σ.temp path (some content) } where
  rows := h.rows
  phases := h.phases
  hashed u n hhashed hn := by
    have hne : u ≠ t := by
      rintro rfl
      exact absurd hhashed (by simp [hnot])
    obtain ⟨m, -, hpath⟩ := nextFile_some hnext
    exact hashed_update hown hne hpath (h.hashed u n hhashed hn)

theorem Inv.hashFile (h : Inv digest submissions σ) {n : ℕ} {entry : Path × Hash}
    (hn : (σ.files.phase t).reading = some n) (hnext : σ.nextFile submissions t = some entry)
    (hhash : (submissions t).hashNext digest latin1 σ.temp n = .ok entry.2) :
    Inv digest submissions { σ with hashed := Function.update σ.hashed t true } where
  rows := h.rows
  phases := h.phases
  hashed u m hhashed hm := by
    by_cases hu : u = t
    · subst hu
      obtain ⟨n', hn', hentry⟩ := nextFile_some hnext
      obtain rfl : n = m := Option.some.inj (hn.symm.trans hm)
      obtain rfl : n = n' := Option.some.inj (hn.symm.trans hn')
      exact Submission.hashed_of_hashNext hentry hhash
    · have hhashed : Function.update σ.hashed t true u = true := hhashed
      rw [Function.update_of_ne hu] at hhashed
      exact h.hashed u m hhashed hm

/-- `importFile` returns a CID that it has not returned before. -/
theorem Inv.importFile (h : Inv digest submissions σ) (hown : OwnPaths submissions) {cid : Cid}
    {files : System ι} {path : Path} {hash : Hash}
    (hok : σ.files.importFile t (requests submissions) cid = .ok files)
    (hnext : σ.nextFile submissions t = some (path, hash)) (hhashed : σ.hashed t = true) :
    Inv digest submissions (σ.imported files t cid path) := by
  unfold System.importFile at hok
  have hphase := h.phases t
  obtain ⟨n, hn, hentry⟩ := nextFile_some hnext
  obtain ⟨path', content, hentry', htemp⟩ := h.hashed t n hhashed hn
  cases hentry.symm.trans hentry'
  cases hp : σ.files.phase t with
  | importing cids =>
    rw [hp] at hphase hn
    simp only [hp] at hok
    split_ifs at hok with hnew
    cases hok
    obtain ⟨-, hfresh, -⟩ := hnew
    obtain rfl : cids.length = n := Option.some.inj hn
    have hhash : (requests submissions t).hashes[cids.length]? = some (digest content) :=
      hash_of_tempFiles hentry
    rw [imported, htemp]
    set σ' : Contents ι β := ⟨{ σ.files.moved t σ.files.tables (.importing (cids ++ [cid])) with
      pinned := σ.files.pinned ++ [cid], imported := σ.files.imported ++ [cid] },
      Function.update σ.temp path none, Function.update σ.hashed t false,
      Function.update σ.given cid (some content)⟩
    -- the CIDs that were returned before keep their contents
    have hkept : ∀ cid' hash', σ.Holds digest cid' hash' → σ'.Holds digest cid' hash' := by
      rintro cid' hash' ⟨hmem, content', hgiven, hsha'⟩
      refine ⟨List.mem_append_left _ hmem, content', ?_, hsha'⟩
      have hne : cid' ≠ cid := fun heq => hfresh (heq ▸ hmem)
      exact (Function.update_of_ne hne ..).trans hgiven
    have hcid : σ'.Holds digest cid (digest content) :=
      ⟨List.mem_append_right _ List.mem_cons_self, content, Function.update_self .., rfl⟩
    refine ⟨fun T => (h.rows T).mono fun r hr cid' hcid' => hkept cid' _ (hr cid' hcid'), fun u => ?_,
      fun u m hu hm => ?_⟩
    · show PhaseBound (σ'.Holds digest) _ (Function.update σ.files.phase t (.importing (cids ++ [cid])) u)
      by_cases hu : u = t
      · subst hu
        rw [Function.update_self]
        have htake : (requests submissions u).hashes.take (cids ++ [cid]).length =
            (requests submissions u).hashes.take cids.length ++ [digest content] := by
          rw [List.length_append, List.length_singleton, List.take_add_one, hhash, Option.toList_some]
        show List.Forall₂ _ _ _
        rw [htake]
        exact List.rel_append (List.Forall₂.imp hkept hphase) (List.Forall₂.cons hcid List.Forall₂.nil)
      · rw [Function.update_of_ne hu]
        exact (h.phases u).mono hkept
    · have hu : Function.update σ.hashed t false u = true := hu
      have hm : (Function.update σ.files.phase t (.importing (cids ++ [cid])) u).reading = some m := hm
      have hne : u ≠ t := by
        rintro rfl
        rw [Function.update_self] at hu
        cases hu
      rw [Function.update_of_ne hne] at hu hm
      exact hashed_update hown hne hentry (h.hashed u m hu hm)
  | ready | saving | deleting =>
    simp only [hp] at hok
    cases hok

theorem Inv.deleteFile (h : Inv digest submissions σ) {cid : Cid} {files : System ι}
    (hok : σ.files.deleteFile t cid = .ok files) : Inv digest submissions { σ with files } := by
  unfold System.deleteFile at hok
  cases hp : σ.files.phase t with
  | deleting cids =>
    simp only [hp] at hok
    split_ifs at hok
    cases hok
    have hmoved := h.moved (t := t) (p := .deleting (cids.erase cid)) h.rows trivial
      fun _ hn => by cases hn
    exact ⟨hmoved.rows, hmoved.phases, hmoved.hashed⟩
  | ready | importing | saving =>
    simp only [hp] at hok
    cases hok

theorem Inv.fail (h : Inv digest submissions σ) {files : System ι}
    (hok : FilePins.step (requests submissions) σ.files (.fail t) = .ok files) :
    Inv digest submissions { σ with files } := by
  simp only [FilePins.step] at hok
  cases hp : σ.files.phase t with
  | deleting cids =>
    simp only [hp] at hok
    cases hok
  | ready | importing | saving =>
    simp only [hp] at hok
    cases hok
    exact h.thrown

/-- **Step of the system.** -/
theorem inv_step {o : ContentsOp ι β} (hown : OwnPaths submissions) (h : Inv digest submissions σ)
    (hok : step digest latin1 submissions σ o = .ok σ') : Inv digest submissions σ' := by
  cases o with
  | files o =>
    cases o with
    | importFile t cid =>
      obtain ⟨files, hfiles, hok⟩ := bind_eq_ok.mp hok
      cases hnext : σ.nextFile submissions t with
      | none => simp only [hnext] at hok; cases hok
      | some entry =>
        simp only [hnext] at hok
        split_ifs at hok with hhashed
        cases hok
        exact h.importFile hown hfiles hnext hhashed
    | resume t l =>
      obtain ⟨files, hfiles, hok⟩ := bind_eq_ok.mp hok
      cases hok
      exact h.resume hfiles
    | deleteFile t cid =>
      obtain ⟨files, hfiles, hok⟩ := bind_eq_ok.mp hok
      cases hok
      exact h.deleteFile hfiles
    | fail t =>
      obtain ⟨files, hfiles, hok⟩ := bind_eq_ok.mp hok
      cases hok
      exact h.fail hfiles
  | writeFile t content =>
    simp only [step] at hok
    cases hnext : σ.nextFile submissions t with
    | none => simp only [hnext] at hok; cases hok
    | some entry =>
      simp only [hnext] at hok
      split_ifs at hok with hhashed
      cases hok
      exact h.writeFile hown hnext (by simpa using hhashed)
  | hashFile t =>
    simp only [step] at hok
    cases hn : (σ.files.phase t).reading with
    | none => simp only [hn] at hok; cases hok
    | some n =>
      cases hnext : σ.nextFile submissions t with
      | none => simp only [hn, hnext] at hok; cases hok
      | some entry =>
        simp only [hn, hnext] at hok
        split_ifs at hok with hhash
        cases hok
        exact h.hashFile hn hnext hhash

omit [DecidableEq ι] in
theorem inv_start {rows : FileRows} {given : Cid → Option β}
    (hrows : ∀ T, ∀ r ∈ rows T, Bound ((start (ι := ι) rows given).Genuine digest) T r) :
    Inv digest submissions (start rows given) where
  rows T v hv := by
    obtain ⟨r, hr, rfl⟩ := List.mem_map.mp hv
    refine ⟨fun r' hr' cid hcid => ?_, fun u r' hr' => by cases hr'⟩
    cases hr'
    refine ⟨?_, hrows T r hr cid hcid⟩
    have href : (rowKey T r, cid) ∈ refs rows :=
      mem_refs.mpr ⟨T, mem_rowRefs.mpr ⟨r, hr, rfl, Option.mem_def.mp hcid⟩⟩
    exact List.mem_map_of_mem href
  phases _ := trivial
  hashed _ _ h := by cases h

/-- A step leaves the tables and the file store, or is one of `FilePins`. -/
theorem files_step {o : ContentsOp ι β} (hok : step digest latin1 submissions σ o = .ok σ') :
    σ'.files = σ.files ∨ ∃ o', FilePins.step (requests submissions) σ.files o' = .ok σ'.files := by
  cases o with
  | files o =>
    refine .inr ⟨o, ?_⟩
    cases o with
    | importFile t cid =>
      obtain ⟨files, hfiles, hok⟩ := bind_eq_ok.mp hok
      cases hnext : σ.nextFile submissions t with
      | none => simp only [hnext] at hok; cases hok
      | some entry =>
        simp only [hnext] at hok
        split_ifs at hok
        cases hok
        exact hfiles
    | resume | deleteFile | fail =>
      obtain ⟨files, hfiles, hok⟩ := bind_eq_ok.mp hok
      cases hok
      exact hfiles
  | writeFile t content =>
    simp only [step] at hok
    cases hnext : σ.nextFile submissions t with
    | none => simp only [hnext] at hok; cases hok
    | some entry =>
      simp only [hnext] at hok
      split_ifs at hok
      cases hok
      exact .inl rfl
  | hashFile t =>
    simp only [step] at hok
    split at hok
    · split_ifs at hok
      cases hok
      exact .inl rfl
    · cases hok

/-- What happens to the tables and the file store is a run of `FilePins`. -/
theorem files_run (digest : β → Hash) (latin1 : String → String) (submissions : ι → Submission)
    (σ : Contents ι β) (ops : List (ContentsOp ι β)) :
    ∃ os, (run (step digest latin1 submissions) σ ops).files =
      run (FilePins.step (requests submissions)) σ.files os := by
  induction ops generalizing σ with
  | nil => exact ⟨[], rfl⟩
  | cons o ops ih =>
    obtain ⟨os, hos⟩ := ih (attempt (step digest latin1 submissions) σ o)
    rw [run_cons, hos]
    rcases attempt_cases (step digest latin1 submissions) σ o with ⟨_, -, heq⟩ | hok
    · exact ⟨os, by rw [heq]⟩
    · obtain hsame | ⟨o', hstep⟩ := files_step hok
      · exact ⟨os, by rw [hsame]⟩
      · exact ⟨o' :: os, by rw [run_cons, attempt_of_ok hstep]⟩

end Contents

/-- **The contents behind the rows.**  Whatever the requests do at once, throw or roll back, a stored row
that has a CID has the hash of what was imported under it. -/
theorem genuine_run (digest : β → Hash) (latin1 : String → String) {submissions : ι → Submission}
    (happart : Apart submissions) (rows : FileRows) (given : Cid → Option β)
    (hrows : ∀ T, ∀ r ∈ rows T, Bound ((Contents.start (ι := ι) rows given).Genuine digest) T r)
    (ops : List (ContentsOp ι β)) {σ : Contents ι β}
    (hσ : run (Contents.step digest latin1 submissions) (.start rows given) ops = σ) :
    ∀ T, ∀ r ∈ storedAll σ.files.tables T, Bound (σ.Genuine digest) T r := by
  intro T r hr cid hcid
  have hinv : Contents.Inv digest submissions σ := hσ ▸ run_induct
    (fun _ _ _ h hok => Contents.inv_step happart.ownPaths h hok) (Contents.inv_start hrows) ops
  exact ((hinv.rows T).stored r hr cid hcid).2

/-! ### Three requests at once -/

/-- SHA-256, on three files. -/
def sampleSha256 (content : String) : Hash :=
  if content = "abc" then "0xba7816bf8f01cfea414140de5dae2223b00361a396177a9cb410ff61f20015ad"
  else if content = "{}" then "0x44136fa355b3678a1146ad16f7e8649e94fb4fc21fe77e8310c060f61caaff8a"
  else "0xe3b0c44298fc1c149afbf4c8996fb92427ae41e4649b934ca495991b7852b855"

/-- The file of an item, not uploaded yet. -/
def expectedFile : FileRows
  | .files .item => [⟨"collection", "item", sampleSha256 "abc", some "abc.txt", none, none⟩]
  | _ => []

def approvedCallback : IdenfyCallback where
  final := true
  overall := .approved
  fileUrls _ := none
  raw := "{}"
  storePayload := ⟨sampleSha256 "{}", "", 2⟩
  storeFile _ := ⟨⟨"", "", 0⟩, "", ""⟩
  now := 9

inductive Client
  | issuer
  | owner
  | idenfy
  deriving DecidableEq

/-- The file of the item, a file that the owner adds to a LOC, and a callback for another LOC. -/
def submissionsAtOnce : Client → Submission
  | .issuer => .uploadFile .item "collection" "item" (sampleSha256 "abc")
      ⟨"abc.txt", 3, "text/plain", false, "/tmp/tmp-1-7"⟩
  | .owner => .addFile "loc" { hash := sampleSha256 "" } (.polkadot "alice") 8 id
      ⟨"empty.txt", 0, "text/plain", false, "/tmp/tmp-2-7"⟩
  | .idenfy => .callback (.polkadot "owner") "identity" approvedCallback 7

example : getUploadedFile sampleSha256 id (fun _ => some "abc")
    (some [⟨"abc.txt", 3, "text/plain", false, "/tmp/tmp-1-7"⟩]) (sampleSha256 "") =
    .error (.badRequest
      ("Received hash " ++ sampleSha256 "" ++ " does not match " ++ sampleSha256 "abc")) := by decide

theorem submissionsAtOnce_apart : Apart submissionsAtOnce where
  uploads t u := by cases t <;> cases u <;> decide
  names t file hfile millis fileName heq := by
    obtain ⟨rest, hrest, hdigits⟩ := digits_of_tempFileName millis fileName
    rw [← heq] at hrest
    -- the names of the uploads start with a letter
    have hletter : ∀ file ∈ (submissionsAtOnce t).sent,
        (file.tempFilePath.toList.drop "/tmp/".toList.length).takeWhile Char.isDigit = [] := by
      cases t <;> decide
    have hnone := hletter file hfile
    rw [hrest, List.drop_left] at hnone
    exact Nat.toDigits_ne_nil (hdigits.symm.trans hnone)
  callbacks t u := by cases t <;> cases u <;> decide

def opsAtOnce : List (ContentsOp Client String) :=
  [.files (.resume .issuer none), .files (.resume .owner (some (locWithStatus .opened))),
    .files (.resume .idenfy (some LocRequest.draftWithVerification)),
    .writeFile .issuer "abc", .writeFile .owner "", .writeFile .idenfy "{}",
    .hashFile .idenfy, .hashFile .issuer, .hashFile .owner,
    .files (.importFile .issuer "Qm1"), .files (.importFile .owner "Qm2"),
    .files (.importFile .idenfy "Qm3"),
    .files (.resume .idenfy (some LocRequest.draftWithVerification)),
    .files (.resume .owner (some (locWithStatus .opened))), .files (.resume .issuer none),
    .files (.resume .idenfy none), .files (.resume .owner none), .files (.resume .issuer none),
    .files (.resume .idenfy none), .files (.resume .owner none), .files (.resume .issuer none)]

theorem genuine_run_atOnce :
    ∃ σ, run (Contents.step sampleSha256 id submissionsAtOnce) (.start expectedFile fun _ => none)
        opsAtOnce = σ ∧
      (storedAll σ.files.tables .loc).map (rowCid .loc) = [some "Qm3", some "Qm2"] ∧
      (storedAll σ.files.tables (.files .item)).map (rowCid (.files .item)) = [some "Qm1"] ∧
      ∀ T, ∀ r ∈ storedAll σ.files.tables T, Bound (σ.Genuine sampleSha256) T r := by
  refine ⟨_, rfl, by decide +kernel, by decide +kernel,
    genuine_run sampleSha256 id submissionsAtOnce_apart expectedFile (fun _ => none)
      (fun T r hr cid hcid => ?_) opsAtOnce rfl⟩
  cases T with
  | loc => cases hr
  | files k =>
    cases k with
    | item =>
      rw [List.mem_singleton.mp hr] at hcid
      cases hcid
    | record => cases hr

end FilePins

end Logion
