import Logion.Chain.Extrinsic
import Logion.Lib.Custody
import Logion.Lib.Transactions
import Logion.Loc.Idenfy
import Logion.Store.SavedChildren
import Logion.Store.StoredFiles
import Mathlib.Data.Fintype.Defs

/-!
# FilePins — stored files and the rows that refer to them (`file.storage.service.ts`)

`importFile` encrypts a file, adds it to the file store and returns its CID; the request then writes the
CID into a row, in a transaction of its own (`addFile`, `uploadFile`, `callback`).  Other requests delete
rows and then the files (`deleteFile`, `cancelLocRequest`), or rows only (`cancelCreateOpenLoc`).  Only
`addFile` deletes what it has imported when its transaction throws.

* `System`, `step`: the tables, the pinned CIDs, the requests, and what a request does next.
* `AgreeAtRest`: when no request is in progress, the pinned CIDs are those of the rows, once each.
* `agree_run`: they agree so along the runs in which no request throws that has imported files and does
  not delete them again, and no commit takes a CID away that its request does not delete.
-/

namespace Logion

open Fallible Table ReadCommitted Custody

namespace FilePins

abbrev Cid := String

/-! ### Tables -/

/-- What a file of a collection is a file of. -/
inductive ParentKind
  | item
  | record
  deriving DecidableEq

/-- `loc_request_file`, `collection_item_file` and `tokens_record_file`. -/
inductive FileTable
  | loc
  | files (k : ParentKind)
  deriving DecidableEq

abbrev StoredRow : FileTable → Type
  | .loc => ItemRow .file
  | .files _ => FileRow

/-- What is stored, or what a transaction sees. -/
abbrev FileRows := (T : FileTable) → List (StoredRow T)

def clash : (T : FileTable) → StoredRow T → StoredRow T → Prop
  | .loc => ItemRow.clash
  | .files _ => FileRow.clash

instance : (T : FileTable) → DecidableRel (clash T)
  | .loc => inferInstanceAs (DecidableRel (ItemRow.clash (k := .file)))
  | .files _ => inferInstanceAs (DecidableRel FileRow.clash)

/-- The primary keys. -/
inductive FileKey
  | loc (requestId : UUID) (hash : Hash)
  | file (k : ParentKind) (key : UUID × Hash × Hash)
  deriving DecidableEq

def rowKey : (T : FileTable) → StoredRow T → FileKey
  | .loc, r =>
    let r : ItemRow .file := r
    .loc r.requestId r.columns.key
  | .files k, r =>
    let r : FileRow := r
    .file k r.key

/-- The CID of a row; the empty text is none. -/
def rowCid : (T : FileTable) → StoredRow T → Option Cid
  | .loc, r =>
    let r : ItemRow .file := r
    let data : FileData := r.columns.data
    nonEmpty data.cid
  | .files _, r =>
    let r : FileRow := r
    nonEmpty r.cid

/-- The references of some rows of one table. -/
def rowRefs (T : FileTable) (rows : List (StoredRow T)) : List (FileKey × Cid) :=
  rows.filterMap fun r => (rowCid T r).map fun cid => (rowKey T r, cid)

/-- The references of the files of items and records. -/
def fileRefs (rows : FileRows) : List (FileKey × Cid) :=
  rowRefs (.files .item) (rows (.files .item)) ++ rowRefs (.files .record) (rows (.files .record))

/-- All the references to CIDs. -/
def refs (rows : FileRows) : List (FileKey × Cid) := rowRefs .loc (rows .loc) ++ fileRefs rows

/-! ### Requests -/

structure AddFileView where
  hash : Hash
  nature : Option String := none
  restrictedDelivery : Option Bool := none
  direct : Option String := none

/-- What `getUploadedFile` returns. -/
structure UploadedFile where
  name : String
  size : ℕ
  mimetype : String

/-- A request.  `contributor` is the account that `ensureContributor` returns, and `legalOfficer` the
owner of the LOC of a correctly signed callback. -/
inductive Request
  | addFile (requestId : UUID) (view : AddFileView) (contributor : AccountId) (file : UploadedFile)
      (now : Moment)
  | deleteFile (requestId : UUID) (contributor : AccountId) (hash : Hash)
  | cancelLocRequest (requestId : UUID)
  | cancelCreateOpenLoc (requestId : UUID)
  | uploadFile (k : ParentKind) (collectionLocId : UUID) (parentId hash : Hash)
  | callback (legalOfficer : AccountId) (clientId : UUID) (json : IdenfyCallback)

/-- `uploadFile` of `collection.controller.ts`. -/
def CollectionController.uploadFile (collectionLocId : UUID) (itemId hash : Hash) : Request :=
  .uploadFile .item collectionLocId itemId hash

/-- `uploadFile` of `records.controller.ts`. -/
def TokensRecordController.uploadFile (collectionLocId : UUID) (recordId hash : Hash) : Request :=
  .uploadFile .record collectionLocId recordId hash

/-- `toFile`, of a stored file. -/
def toFile (view : AddFileView) (submitter : AccountId) (file : UploadedFile) (cid : Cid) :
    FileParams where
  hash := view.hash
  submitter := submitter
  data := {
    name := file.name
    cid := some cid
    contentType := some file.mimetype
    nature := view.nature.getD ""
    size := file.size
    restrictedDelivery := view.restrictedDelivery.getD false }

def submissionType (l : LocRequest) (contributor : AccountId) (view : AddFileView) : SubmissionType :=
  if l.getRequester = some contributor ∧ view.direct = some "true" then .directByRequester
  else if contributor = l.getOwner then .manualByOwner
  else .manualByUser

/-- The files with the CIDs that `importFile` returned for them. -/
def withCids (files : List FileParams) (cids : List Cid) : List FileParams :=
  List.zipWith (fun file cid => { file with data := { file.data with cid := some cid } }) files cids

/-- `findById`: the root and the other children come from tables that are not kept here, and may be
anything; the files are those of the table, without markers. -/
def findById (rows : FileRows) (requestId : UUID) (l : LocRequest) : LocRequest :=
  let files : List (ItemRow .file) := rows .loc
  { l with
    id := requestId
    files := (files.filter fun r => r.requestId = requestId).map ItemRow.columns
    filesToDelete := [] }

/-- The files of an item, or of a record, as its repository loads them. -/
def findBy (rows : FileRows) (k : ParentKind) (collectionLocId : UUID) (parentId : Hash) : FilesRoot :=
  let files : List FileRow := rows (.files k)
  ⟨collectionLocId, parentId,
    (files.filter (FileRow.ofParent collectionLocId parentId)).map fun r => { columns := r }⟩

/-- What a request does to the tables, and the rows whose files it deletes once it has committed. -/
structure Changes where
  statements : List (TableStatement StoredRow)
  removed : List (ItemRow .file) := []

def onLoc (ss : List (Statement (ItemRow .file))) : List (TableStatement StoredRow) :=
  ss.map fun s => ⟨.loc, s⟩

/-- The DELETE of `deleteRequest` on the files. -/
def deleteRequest (requestId : UUID) : Statement (ItemRow .file) :=
  .delete fun r => r.requestId = requestId

namespace Request

/-- The number of files that the request imports. -/
def imports : Request → ℕ
  | .addFile _ _ _ _ _ | .uploadFile _ _ _ _ => 1
  | .callback legalOfficer _ json => if json.Approving then (json.downloadFiles legalOfficer).length else 0
  | .deleteFile _ _ _ | .cancelLocRequest _ | .cancelCreateOpenLoc _ => 0

/-- What the request checks before it imports anything; `l` is what the queries find of the LOC. -/
def check (rows : FileRows) (l : Option LocRequest) : Request → Bool
  | .addFile requestId view _ _ _ => l.any fun l => ((findById rows requestId l).item? .file view.hash).isNone
  | .uploadFile k collectionLocId parentId hash =>
    ((findBy rows k collectionLocId parentId).file hash).any fun file => (nonEmpty file.columns.cid).isNone
  | .callback _ _ json => if json.Approving then l.isSome else true
  | .cancelCreateOpenLoc _ => l.isSome
  | .deleteFile _ _ _ | .cancelLocRequest _ => true

/-- The transaction: the LOC, the item or the record is loaded, and mutated in memory. -/
def mutate (rows : FileRows) (l : Option LocRequest) (cids : List Cid) : Request → Except Err Changes
  | .addFile requestId view contributor file now => do
    let l := findById rows requestId (← requireDefined l)
    let params := toFile view contributor file (cids.headD "")
    let l ← l.addFile params.hash params.submitter params.data (submissionType l contributor view) now
    return { statements := onLoc l.saveFiles }
  | .deleteFile requestId contributor hash => do
    let l := findById rows requestId (← requireDefined l)
    let l' ← l.removeFile contributor hash
    return {
      statements := onLoc l'.saveFiles
      removed := (l.item? .file hash).toList.map (Item.toRow requestId) }
  | .cancelLocRequest requestId => do
    let l := findById rows requestId (← requireDefined l)
    if l.status ≠ .draft ∧ l.status ≠ .reviewRejected ∧ l.status ≠ .reviewAccepted then
      throw (.error "Cannot delete non-draft and non-reviewed request")
    else return {
      statements := onLoc [deleteRequest requestId]
      removed := l.files.map (Item.toRow requestId) }
  | .cancelCreateOpenLoc requestId => do
    let l := findById rows requestId (← requireDefined l)
    if l.status ≠ .opened then throw (.error "Cannot delete non-open request")
    else return { statements := onLoc [deleteRequest requestId] }
  | .uploadFile k collectionLocId parentId hash => do
    let root ← (findBy rows k collectionLocId parentId).setFileCid hash (cids.headD "")
    return { statements := root.saveFiles.map fun s => ⟨.files k, s⟩ }
  | .callback legalOfficer clientId json => do
    let l := findById rows clientId (← requireDefined l)
    let files := if json.Approving then withCids (json.downloadFiles legalOfficer) cids else []
    let l ← l.updateIdenfyVerification json.final json.overall.toStatus json.raw
    let l ← l.addFiles files json.now
    return { statements := onLoc l.saveFiles }

/-- What it has imported is deleted again when the transaction throws. -/
def compensates : Request → Bool
  | .addFile _ _ _ _ _ => true
  | _ => false

end Request

/-! ### Runs -/

/-- Where a request is: the CIDs that it has imported so far; the rows that it removes, the statements
that have run and those to come; the files that it still has to delete. -/
inductive Phase
  | ready
  | importing (cids : List Cid)
  | saving (cids : List Cid) (removed : List (ItemRow .file)) (done todo : List (TableStatement StoredRow))
  | deleting (cids : List Cid)

/-- The statements that the request has run in its transaction. -/
def Phase.done : Phase → List (TableStatement StoredRow)
  | .saving _ _ done _ => done
  | _ => []

/-- The CIDs that the request has imported, and not committed yet. -/
def Phase.imported : Phase → List Cid
  | .importing cids | .saving cids _ _ _ => cids
  | _ => []

/-- The request has not started, or it has ended. -/
def Phase.isIdle : Phase → Bool
  | .ready | .deleting [] => true
  | _ => false

/-- The tables, the pinned CIDs, the CIDs that were ever imported, and the requests. -/
structure System (ι : Type) where
  tables : Versions ι StoredRow
  pinned : List Cid
  imported : List Cid
  phase : ι → Phase

/-- A request is resumed, and its queries find the LOC `l` apart from its files; it imports a file and
gets a new CID; it deletes one of its files; it throws before its commit. -/
inductive Op (ι : Type)
  | resume (t : ι) (l : Option LocRequest)
  | importFile (t : ι) (cid : Cid)
  | deleteFile (t : ι) (cid : Cid)
  | fail (t : ι)

/-- Why an operation does not take place. -/
inductive Idle
  | locked
  | elsewhere
  deriving DecidableEq

variable {ι : Type} [DecidableEq ι]

namespace System

variable (σ : System ι) (t : ι)

/-- The request `t` is at `p`, and leaves the tables so. -/
def moved (tables : Versions ι StoredRow) (p : Phase) : System ι :=
  { σ with tables := tables, phase := Function.update σ.phase t p }

variable (requests : ι → Request)

/-- The request `t` throws, and its transaction is rolled back. -/
def thrown : System ι :=
  σ.moved t (rollbackAll t σ.tables)
    (.deleting (if (requests t).compensates then (σ.phase t).imported else []))

def resume (l : Option LocRequest) : Except Idle (System ι) :=
  match σ.phase t with
  | .ready =>
    if (requests t).check (storedAll σ.tables) l then return σ.moved t σ.tables (.importing [])
    else return σ.moved t σ.tables (.deleting [])
  | .importing cids =>
    if cids.length < (requests t).imports then throw .elsewhere
    else match (requests t).mutate (viewAll t σ.tables) l cids with
    | .error _ => return σ.thrown t requests
    | .ok changes => return σ.moved t σ.tables (.saving cids changes.removed [] changes.statements)
  | .saving cids removed done (s :: todo) =>
    if ¬ Free (clash s.table) t s.statement (σ.tables s.table) then throw .locked
    else if ¬ Consistent (clash s.table) (s.statement.rows (viewAll t σ.tables s.table)) then
      return σ.thrown t requests
    else return σ.moved t (execOn t s σ.tables) (.saving cids removed (done ++ [s]) todo)
  | .saving _ removed _ [] =>
    return σ.moved t (commitAll t σ.tables) (.deleting (removed.filterMap (rowCid .loc)))
  | .deleting _ => throw .elsewhere

/-- `importFile`: a CID that no file had before. -/
def importFile (cid : Cid) : Except Idle (System ι) :=
  match σ.phase t with
  | .importing cids =>
    if cids.length < (requests t).imports ∧ cid ∉ σ.imported ∧ cid ≠ "" then
      return { σ.moved t σ.tables (.importing (cids ++ [cid])) with
        pinned := σ.pinned ++ [cid], imported := σ.imported ++ [cid] }
    else throw .elsewhere
  | _ => throw .elsewhere

/-- `deleteFile`; the files of a cancelled LOC are deleted at once, and not awaited. -/
def deleteFile (cid : Cid) : Except Idle (System ι) :=
  match σ.phase t with
  | .deleting cids =>
    if cid ∈ cids then
      return { σ.moved t σ.tables (.deleting (cids.erase cid)) with
        pinned := σ.pinned.filter (· ≠ cid) }
    else throw .elsewhere
  | _ => throw .elsewhere

end System

variable (requests : ι → Request)

def step (σ : System ι) : Op ι → Except Idle (System ι)
  | .resume t l => σ.resume t requests l
  | .importFile t cid => σ.importFile t requests cid
  | .deleteFile t cid => σ.deleteFile t cid
  | .fail t =>
    match σ.phase t with
    | .deleting _ => throw .elsewhere
    | _ => return σ.thrown t requests

/-- No request has started, and what the rows refer to is pinned. -/
def start (rows : FileRows) : System ι where
  tables T := (rows T).map fun r => ⟨some r, none⟩
  pinned := (refs rows).map Prod.snd
  imported := (refs rows).map Prod.snd
  phase _ := .ready

/-! ### The contract -/

/-- What a row refers to is pinned, and what is pinned one row refers to. -/
structure Agree (σ : System ι) : Prop where
  pinned : ∀ T, ∀ r ∈ stored (σ.tables T), ∀ cid ∈ rowCid T r, cid ∈ σ.pinned
  referenced : ∀ cid ∈ σ.pinned, ((refs (storedAll σ.tables)).filter fun p => p.2 = cid).length = 1

/-- **The contract**: files and rows agree when no request is in progress. -/
def AgreeAtRest (σ : System ι) : Prop := (∀ t, (σ.phase t).isIdle = true) → Agree σ

/-- The statement, on the stored rows, takes no CID away but those of the rows removed: the LOC files
that it deletes have them, those that it updates keep theirs, and the file of an item or a record that
it updates is the only one, without CID. -/
def Keeps (removed : List (ItemRow .file)) (rows : FileRows) : TableStatement StoredRow → Prop
  | ⟨.loc, .delete condition⟩ => ∀ r ∈ rows .loc, condition r = true →
      ∀ cid ∈ rowCid .loc r, cid ∈ removed.filterMap (rowCid .loc)
  | ⟨.loc, .update condition set⟩ => ∀ r ∈ rows .loc, condition r = true →
      rowCid .loc (set r) = rowCid .loc r
  | ⟨.files k, .update condition _⟩ => ((rows (.files k)).filter condition).map (rowCid (.files k)) = [none]
  | _ => True

instance (removed : List (ItemRow .file)) (rows : FileRows) : ∀ s, Decidable (Keeps removed rows s)
  | ⟨.loc, .delete condition⟩ => inferInstanceAs (Decidable (∀ r ∈ rows .loc, condition r = true →
      ∀ cid ∈ rowCid .loc r, cid ∈ removed.filterMap (rowCid .loc)))
  | ⟨.loc, .update condition set⟩ => inferInstanceAs (Decidable (∀ r ∈ rows .loc, condition r = true →
      rowCid .loc (set r) = rowCid .loc r))
  | ⟨.files k, .update condition _⟩ => inferInstanceAs
      (Decidable (((rows (.files k)).filter condition).map (rowCid (.files k)) = [none]))
  | ⟨.loc, .insert _⟩ | ⟨.files _, .insert _⟩ | ⟨.files _, .delete _⟩ => .isTrue trivial

instance (t : ι) (ss : List (TableStatement StoredRow)) (db : Versions ι StoredRow) :
    Decidable (NoneMissedAll t ss db) :=
  decidable_of_iff (∀ T ∈ [FileTable.loc, .files .item, .files .record],
      NoneMissed t (statementsOn T ss) (db T))
    ⟨fun h T => h T (by
      cases T with
      | loc => simp
      | files k => cases k <;> simp), fun h T _ => h T⟩

/-- The commit of `t` harms no file: no statement of another request has missed a row that it commits,
and its own statements take no CID away but those that it deletes then. -/
structure InOrder (σ : System ι) (t : ι) (removed : List (ItemRow .file))
    (done : List (TableStatement StoredRow)) : Prop where
  missed : ∀ u, u ≠ t → NoneMissedAll t (σ.phase u).done σ.tables
  keeps : ∀ s ∈ done, Keeps removed (storedAll σ.tables) s

instance [Fintype ι] (σ : System ι) (t : ι) (removed : List (ItemRow .file))
    (done : List (TableStatement StoredRow)) : Decidable (InOrder σ t removed done) :=
  decidable_of_iff ((∀ u, u ≠ t → NoneMissedAll t (σ.phase u).done σ.tables) ∧
      ∀ s ∈ done, Keeps removed (storedAll σ.tables) s)
    ⟨fun h => ⟨h.1, h.2⟩, fun h => ⟨h.missed, h.keeps⟩⟩

/-- A request that throws has imported nothing, or deletes it again. -/
def MayThrow (σ : System ι) (t : ι) : Prop :=
  (requests t).compensates = true ∨ (σ.phase t).imported = []

instance (σ : System ι) (t : ι) : Decidable (MayThrow requests σ t) :=
  inferInstanceAs (Decidable ((requests t).compensates = true ∨ (σ.phase t).imported = []))

/-- The step that comes next in the phase harms no file. -/
def UndisturbedAt (σ : System ι) (t : ι) (l : Option LocRequest) : Phase → Prop
  | .importing cids => MayThrow requests σ t ∨ cids.length < (requests t).imports ∨
      Returns ((requests t).mutate (viewAll t σ.tables) l cids)
  | .saving _ _ _ (s :: _) => MayThrow requests σ t ∨
      Consistent (clash s.table) (s.statement.rows (viewAll t σ.tables s.table))
  | .saving _ removed done [] => InOrder σ t removed done
  | _ => True

instance [Fintype ι] (σ : System ι) (t : ι) (l : Option LocRequest) :
    ∀ p, Decidable (UndisturbedAt requests σ t l p)
  | .importing cids => inferInstanceAs (Decidable (MayThrow requests σ t ∨
      cids.length < (requests t).imports ∨
        Returns ((requests t).mutate (viewAll t σ.tables) l cids)))
  | .saving _ _ _ (s :: _) => inferInstanceAs (Decidable (MayThrow requests σ t ∨
      Consistent (clash s.table) (s.statement.rows (viewAll t σ.tables s.table))))
  | .saving _ removed done [] => inferInstanceAs (Decidable (InOrder σ t removed done))
  | .ready | .deleting _ => .isTrue trivial

/-- The step harms no file. -/
def Undisturbed (σ : System ι) : Op ι → Prop
  | .resume t l => UndisturbedAt requests σ t l (σ.phase t)
  | .fail t => MayThrow requests σ t
  | _ => True

instance [Fintype ι] (σ : System ι) : ∀ o, Decidable (Undisturbed requests σ o)
  | .resume t l => inferInstanceAs (Decidable (UndisturbedAt requests σ t l (σ.phase t)))
  | .fail t => inferInstanceAs (Decidable (MayThrow requests σ t))
  | .importFile _ _ | .deleteFile _ _ => .isTrue trivial

/-! ### References -/

section

variable {T : FileTable} {rows rows' : FileRows} {xs ys : List (StoredRow T)} {p : FileKey × Cid}
  {requestId : UUID} {hash : Hash}

theorem mem_rowRefs : p ∈ rowRefs T xs ↔ ∃ r ∈ xs, rowKey T r = p.1 ∧ rowCid T r = some p.2 := by
  unfold rowRefs
  rw [List.mem_filterMap]
  refine exists_congr fun r => and_congr_right fun _ => ?_
  rw [Option.map_eq_some_iff]
  constructor
  · rintro ⟨cid, hcid, rfl⟩
    exact ⟨rfl, hcid⟩
  · rintro ⟨hkey, hcid⟩
    exact ⟨p.2, hcid, Prod.ext hkey rfl⟩

theorem rowRefs_append : rowRefs T (xs ++ ys) = rowRefs T xs ++ rowRefs T ys := List.filterMap_append

theorem rowRefs_perm (h : xs.Perm ys) : (rowRefs T xs).Perm (rowRefs T ys) := h.filterMap _

theorem rowRefs_cids : (rowRefs T xs).map Prod.snd = xs.filterMap (rowCid T) := by
  unfold rowRefs
  rw [List.map_filterMap]
  refine List.filterMap_congr fun r _ => ?_
  rw [Option.map_map]
  exact Option.map_id'

/-- Rows with the same keys and CIDs. -/
theorem rowRefs_congr (h : xs.map (fun r => (rowKey T r, rowCid T r)) =
    ys.map fun r => (rowKey T r, rowCid T r)) : rowRefs T xs = rowRefs T ys := by
  have hof : ∀ zs : List (StoredRow T), rowRefs T zs =
      (zs.map fun r => (rowKey T r, rowCid T r)).filterMap fun p => p.2.map fun cid => (p.1, cid) :=
    fun zs => by
      rw [rowRefs, List.filterMap_map]
      rfl
  rw [hof, hof, h]

theorem rowRefs_filter {keep : StoredRow T → Bool} {keepRef : FileKey × Cid → Bool}
    (h : ∀ r ∈ xs, ∀ cid ∈ rowCid T r, keepRef (rowKey T r, cid) = keep r) :
    rowRefs T (xs.filter keep) = (rowRefs T xs).filter keepRef := by
  induction xs with
  | nil => rfl
  | cons r xs ih =>
    have hrest := ih fun r' hr' => h r' (List.mem_cons_of_mem _ hr')
    have hcons : ∀ ys : List (StoredRow T), rowRefs T (r :: ys) = rowRefs T [r] ++ rowRefs T ys :=
      fun ys => List.filterMap_append (l := [r])
    cases hcid : rowCid T r with
    | none =>
      have hnone : rowRefs T [r] = [] := by simp [rowRefs, hcid]
      rw [hcons, hnone, List.nil_append, List.filter_cons]
      split_ifs
      · rw [hcons, hnone, List.nil_append, hrest]
      · exact hrest
    | some cid =>
      have hone : rowRefs T [r] = [(rowKey T r, cid)] := by simp [rowRefs, hcid]
      have hkeep := h r List.mem_cons_self cid hcid
      rw [hcons, hone, List.singleton_append, List.filter_cons, List.filter_cons, hkeep]
      split_ifs
      · rw [hcons, hone, List.singleton_append, hrest]
      · exact hrest

/-- The files of items and records have other keys. -/
theorem fileRefs_key (h : p ∈ fileRefs rows) : p.1 ≠ .loc requestId hash := by
  rcases List.mem_append.mp h with h | h <;>
  · obtain ⟨r, -, hkey, -⟩ := mem_rowRefs.mp h
    rw [← hkey]
    simp [rowKey]

theorem refs_perm (h : ∀ T, (rows T).Perm (rows' T)) : (refs rows).Perm (refs rows') :=
  (rowRefs_perm (h .loc)).append ((rowRefs_perm (h _)).append (rowRefs_perm (h _)))

theorem mem_refs : p ∈ refs rows ↔ ∃ T, p ∈ rowRefs T (rows T) := by
  unfold refs fileRefs
  rw [List.mem_append, List.mem_append]
  constructor
  · rintro (h | h | h)
    · exact ⟨_, h⟩
    · exact ⟨_, h⟩
    · exact ⟨_, h⟩
  · rintro ⟨T, h⟩
    cases T with
    | loc => exact .inl h
    | files k =>
      cases k with
      | item => exact .inr (.inl h)
      | record => exact .inr (.inr h)

/-- More references in one table. -/
theorem refs_append {new : List (FileKey × Cid)}
    (hT : (rowRefs T (rows' T)).Perm (rowRefs T (rows T) ++ new))
    (hothers : ∀ T', T' ≠ T → rows' T' = rows T') : (refs rows').Perm (refs rows ++ new) := by
  unfold refs fileRefs
  cases T with
  | loc =>
    rw [hothers (.files .item) (by simp), hothers (.files .record) (by simp)]
    refine (hT.append_right _).trans ?_
    rw [List.append_assoc, List.append_assoc]
    exact List.Perm.append_left _ List.perm_append_comm
  | files k =>
    rw [hothers .loc (by simp)]
    cases k with
    | item =>
      rw [hothers (.files .record) (by simp)]
      rw [List.append_assoc, List.append_assoc]
      refine List.Perm.append_left _ ((hT.append_right _).trans ?_)
      rw [List.append_assoc]
      exact List.Perm.append_left _ List.perm_append_comm
    | record =>
      rw [hothers (.files .item) (by simp), List.append_assoc, List.append_assoc]
      exact List.Perm.append_left _ (List.Perm.append_left _ hT)

end

/-! ### The statements of a request -/

/-- The statements of a request that has imported `cids`, and deletes the files of the rows `removed`. -/
inductive SavedBy : List Cid → List (ItemRow .file) → List (TableStatement StoredRow) → Prop
  | added {cids : List Cid} {new : List (ItemRow .file)}
      (hcids : (new.filterMap (rowCid .loc)).Perm cids) : SavedBy cids [] (onLoc (new.map .insert))
  | removed {requestId : UUID} {file : LocFile} {shifted : List LocFile} :
      SavedBy [] [file.toRow requestId]
        (onLoc (.delete (itemWhere requestId .file file) :: shifted.map fun f =>
          .update (itemWhere requestId .file f) fun _ => f.toRow requestId))
  | deleted {requestId : UUID} {removed : List (ItemRow .file)}
      (hremoved : ∀ r ∈ removed, r.requestId = requestId) :
      SavedBy [] removed (onLoc [deleteRequest requestId])
  | uploaded {k : ParentKind} {condition : FileRow → Bool} {row : FileRow} {cid : Cid}
      (hcid : nonEmpty row.cid = some cid) :
      SavedBy [cid] [] [⟨.files k, .update condition fun _ => row⟩]

/-- What the statements make of the references: they take those away whose files are deleted then, and
add one for each CID that was imported. -/
def Settles (cids : List Cid) (removed : List (ItemRow .file)) (before after : List (FileKey × Cid)) :
    Prop :=
  ∃ (keep : FileKey × Cid → Bool) (new : List (FileKey × Cid)),
    after.Perm (before.filter keep ++ new) ∧ (new.map Prod.snd).Perm cids ∧
    (∀ p ∈ before, keep p = false → p.2 ∈ (rowRefs .loc removed).map Prod.snd) ∧
    ∀ p ∈ rowRefs .loc removed, ∀ q ∈ before, q.1 = p.1 → keep q = false

section

variable {rows : FileRows} {cids : List Cid} {removed : List (ItemRow .file)}
  {ss : List (Statement (ItemRow .file))} {requestId : UUID}

theorem afterAll_onLoc : afterAll (onLoc ss) rows .loc = after ss (rows .loc) :=
  congrArg (after · (rows .loc)) (statementsOn_map_self StoredRow .loc ss)

theorem afterAll_onLoc_of_ne {T : FileTable} (h : T ≠ .loc) : afterAll (onLoc ss) rows T = rows T :=
  congrArg (after · (rows T)) (statementsOn_map_of_ne StoredRow FileTable.loc (Ne.symm h) ss)

theorem refs_onLoc :
    refs (afterAll (onLoc ss) rows) = rowRefs .loc (after ss (rows .loc)) ++ fileRefs rows := by
  rw [refs, fileRefs, afterAll_onLoc, afterAll_onLoc_of_ne (by simp), afterAll_onLoc_of_ne (by simp),
    fileRefs]

theorem settles_of_append {rows' : FileRows} (new : List (FileKey × Cid))
    (hrefs : (refs rows').Perm (refs rows ++ new)) (hcids : (new.map Prod.snd).Perm cids) :
    Settles cids [] (refs rows) (refs rows') := by
  refine ⟨fun _ => true, new, ?_, hcids, fun p _ h => ?_, fun p hp => ?_⟩
  · rwa [List.filter_true]
  · cases h
  · cases hp

/-- New rows. -/
theorem settles_added {new : List (ItemRow .file)} (hcids : (new.filterMap (rowCid .loc)).Perm cids) :
    Settles cids [] (refs rows) (refs (afterAll (onLoc (new.map .insert)) rows)) := by
  have hafter : ∀ xs : List (ItemRow .file), after (new.map .insert) xs = xs ++ new := by
    clear hcids
    induction new with
    | nil => exact fun xs => (List.append_nil xs).symm
    | cons r new ih =>
      intro xs
      refine (ih (xs ++ [r])).trans ?_
      rw [List.append_assoc, List.singleton_append]
  refine settles_of_append (rowRefs .loc new) (refs_append (T := .loc) ?_ fun T hT => ?_) ?_
  · rw [afterAll_onLoc, hafter]
    exact List.Perm.of_eq rowRefs_append
  · exact afterAll_onLoc_of_ne hT
  · rw [rowRefs_cids]
    exact hcids

/-- The files that one DELETE selects, by their keys. -/
theorem settles_delete (condition : ItemRow .file → Bool) (keep : FileKey × Cid → Bool)
    {xs : List (ItemRow .file)}
    (hafter : rowRefs .loc xs = rowRefs .loc ((rows .loc).filter fun r => !condition r))
    (hkeep : ∀ r : ItemRow .file, ∀ cid, keep (rowKey .loc r, cid) = !condition r)
    (hothers : ∀ p ∈ fileRefs rows, keep p = true)
    (hkeeps : Keeps removed rows ⟨.loc, .delete condition⟩)
    (hremoved : ∀ r ∈ removed, condition r = true) :
    Settles [] removed (refs rows) (rowRefs .loc xs ++ fileRefs rows) := by
  refine ⟨keep, [], ?_, List.Perm.refl _, ?_, ?_⟩
  · have hfilter : rowRefs .loc ((rows .loc).filter fun r => !condition r) =
        (rowRefs .loc (rows .loc)).filter keep := rowRefs_filter fun r _ cid _ => hkeep r cid
    rw [List.append_nil, refs, List.filter_append, hafter, hfilter, List.filter_eq_self.mpr hothers]
  · intro p hp hnot
    rcases List.mem_append.mp hp with hp | hp
    · obtain ⟨r, hmem, hkey, hcid⟩ := mem_rowRefs.mp hp
      have hcondition : condition r = true := by
        have hval := hkeep r p.2
        rw [hkey] at hval
        simpa using hval.symm.trans hnot
      rw [rowRefs_cids]
      exact hkeeps r hmem hcondition p.2 hcid
    · rw [hothers p hp] at hnot
      cases hnot
  · intro p hp q _ hkey
    obtain ⟨r, hmem, hr, -⟩ := mem_rowRefs.mp hp
    have hval := hkeep r q.2
    rw [hr, ← hkey, hremoved r hmem] at hval
    exact hval

/-- All the files of a LOC. -/
theorem settles_deleted (hremoved : ∀ r ∈ removed, r.requestId = requestId)
    (hkeeps : Keeps removed rows ⟨.loc, deleteRequest requestId⟩) :
    Settles [] removed (refs rows) (refs (afterAll (onLoc [deleteRequest requestId]) rows)) := by
  rw [refs_onLoc]
  refine settles_delete (fun r => r.requestId = requestId) (fun p =>
    match p.1 with
    | .loc id _ => id ≠ requestId
    | .file _ _ => true) rfl (fun r cid => by simp [rowKey]) (fun p hp => ?_) hkeeps
    fun r hr => decide_eq_true (hremoved r hr)
  cases hkey : p.1 with
  | loc id hash => exact absurd hkey (fileRefs_key hp)
  | file k key => rfl

/-- An UPDATE of a file that keeps its CID. -/
theorem map_update {f : LocFile} {xs : List (ItemRow .file)}
    (h : ∀ r ∈ xs, itemWhere requestId .file f r = true →
      rowCid .loc (f.toRow requestId) = rowCid .loc r) :
    ((Statement.update (itemWhere requestId .file f) fun _ => f.toRow requestId).rows xs).map
        (fun r => (rowKey .loc r, rowCid .loc r)) = xs.map fun r => (rowKey .loc r, rowCid .loc r) := by
  rw [Statement.rows, List.map_map]
  refine List.map_congr_left fun r hr => ?_
  rw [Function.comp_apply]
  split_ifs with hwhere
  · have hkey : rowKey .loc (f.toRow requestId) = rowKey .loc r := by
      have hsel : r.requestId = requestId ∧ r.columns.key = f.key := by simpa [itemWhere] using hwhere
      simp [rowKey, Item.toRow, Item.row, hsel.1, hsel.2]
    rw [hkey, h r hr hwhere]
  · rfl

/-- The UPDATEs of the files that have moved. -/
theorem rowRefs_shifted {shifted : List LocFile} {xs : List (ItemRow .file)}
    (h : ∀ f ∈ shifted, ∀ r ∈ xs, itemWhere requestId .file f r = true →
      rowCid .loc (f.toRow requestId) = rowCid .loc r) :
    rowRefs .loc (after (shifted.map fun f =>
      .update (itemWhere requestId .file f) fun _ => f.toRow requestId) xs) = rowRefs .loc xs := by
  induction shifted generalizing xs with
  | nil => rfl
  | cons f shifted ih =>
    have hmap := map_update (h f List.mem_cons_self)
    refine (ih fun f' hf' r' hr' hwhere => ?_).trans (rowRefs_congr hmap)
    -- a row that an UPDATE leaves has the key and the CID of one that was there
    have hmem := List.mem_map_of_mem (f := fun r : ItemRow .file => (rowKey .loc r, rowCid .loc r)) hr'
    rw [hmap] at hmem
    obtain ⟨r, hr, heq⟩ := List.mem_map.mp hmem
    obtain ⟨hkey, hcid⟩ := Prod.mk.inj heq
    rw [← hcid]
    refine h f' (List.mem_cons_of_mem _ hf') r hr ?_
    have hkeys : r.requestId = r'.requestId ∧ r.columns.key = r'.columns.key := by
      simpa [rowKey] using hkey
    simpa [itemWhere, hkeys.1, hkeys.2] using hwhere

/-- One file; the next ones move. -/
theorem settles_removed {file : LocFile} {shifted : List LocFile}
    (hkeeps : ∀ s ∈ onLoc (.delete (itemWhere requestId .file file) :: shifted.map fun f =>
      .update (itemWhere requestId .file f) fun _ => f.toRow requestId),
      Keeps [file.toRow requestId] rows s) :
    Settles [] [file.toRow requestId] (refs rows) (refs (afterAll
      (onLoc (.delete (itemWhere requestId .file file) :: shifted.map fun f =>
        .update (itemWhere requestId .file f) fun _ => f.toRow requestId)) rows)) := by
  rw [refs_onLoc]
  refine settles_delete (itemWhere requestId .file file)
    (fun p => p.1 ≠ .loc requestId file.key) ?_ (fun r cid => ?_) (fun p hp => ?_)
    (hkeeps _ List.mem_cons_self) fun r hr => ?_
  · refine rowRefs_shifted fun f hf r hr hwhere => ?_
    refine hkeeps ⟨.loc, _⟩ (List.mem_cons_of_mem _ (List.mem_map_of_mem (List.mem_map_of_mem hf))) r
      (List.mem_of_mem_filter hr) hwhere
  · simp [rowKey, itemWhere]
  · exact decide_eq_true (fileRefs_key hp)
  · rw [List.mem_singleton.mp hr]
    simp [itemWhere, Item.toRow, Item.row]

/-- The CID of a file that had none, and that is alone in its item, or record. -/
theorem settles_uploaded {k : ParentKind} {condition : FileRow → Bool} {row : FileRow} {cid : Cid}
    (hcid : nonEmpty row.cid = some cid)
    (hkeeps : Keeps [] rows ⟨.files k, .update condition fun _ => row⟩) :
    Settles [cid] [] (refs rows) (refs (afterAll [⟨.files k, .update condition fun _ => row⟩] rows)) := by
  have hself : afterAll [⟨.files k, .update condition fun _ => row⟩] rows (.files k) =
      (rows (.files k)).map fun r => if condition r then row else r :=
    congrArg (after · (rows (.files k)))
      (statementsOn_self (s := (⟨.files k, .update condition fun _ => row⟩ : TableStatement StoredRow)))
  obtain ⟨r, hr, hnone⟩ := List.map_eq_singleton_iff.mp hkeeps
  have hrow : ((rows (.files k)).map fun r => if condition r then row else r).Perm
      (row :: (rows (.files k)).filter fun r => !condition r) := by
    refine ((List.filter_append_perm condition (rows (.files k))).symm.map _).trans ?_
    have hmem : condition r = true := by
      have hmem : r ∈ (rows (.files k)).filter condition := by simp [hr]
      exact (List.mem_filter.mp hmem).2
    have hfixed : ((rows (.files k)).filter fun r => !condition r).map
        (fun r => if condition r then row else r) = (rows (.files k)).filter fun r => !condition r := by
      refine (List.map_congr_left fun r hr => ?_).trans (List.map_id _)
      have hnot := (List.mem_filter.mp hr).2
      simp only [Bool.not_eq_true'] at hnot
      simp [hnot]
    rw [List.map_append, hr, hfixed, List.map_singleton, if_pos hmem, List.singleton_append]
  have hold : (rowRefs (.files k) (rows (.files k))).Perm
      (rowRefs (.files k) ((rows (.files k)).filter fun r => !condition r)) := by
    refine (rowRefs_perm (List.filter_append_perm condition (rows (.files k))).symm).trans ?_
    rw [rowRefs_append, hr]
    simp [rowRefs, hnone]
  refine settles_of_append [(rowKey (.files k) row, cid)]
    (refs_append (T := .files k) ?_ fun T hT => ?_) (List.Perm.refl _)
  · rw [hself]
    refine (rowRefs_perm hrow).trans ?_
    have hcons : rowRefs (.files k) (row :: (rows (.files k)).filter fun r => !condition r) =
        (rowKey (.files k) row, cid) ::
          rowRefs (.files k) ((rows (.files k)).filter fun r => !condition r) := by
      have hrowCid : rowCid (.files k) row = some cid := hcid
      simp [rowRefs, hrowCid]
    rw [hcons]
    exact (hold.symm.cons _).trans (List.perm_append_singleton _ _).symm
  · exact congrArg (after · (rows T)) (statementsOn_of_ne
      (s := (⟨.files k, .update condition fun _ => row⟩ : TableStatement StoredRow)) (Ne.symm hT))

theorem SavedBy.settles {ss : List (TableStatement StoredRow)} (h : SavedBy cids removed ss)
    (hkeeps : ∀ s ∈ ss, Keeps removed rows s) :
    Settles cids removed (refs rows) (refs (afterAll ss rows)) := by
  cases h with
  | added hcids => exact settles_added hcids
  | removed => exact settles_removed hkeeps
  | deleted hremoved => exact settles_deleted hremoved (hkeeps _ (List.mem_singleton.mpr rfl))
  | uploaded hcid => exact settles_uploaded hcid (hkeeps _ (List.mem_singleton.mpr rfl))

end

/-! ### The transactions -/

section

variable {rows : FileRows} {requestId : UUID} {l l' : LocRequest} {cids : List Cid}

theorem toRow_columns (r : ItemRow .file) (h : r.requestId = requestId) :
    r.columns.toRow requestId = r := by
  obtain ⟨id, columns, hplain⟩ := r
  cases h
  simp [Item.toRow, hplain]

/-- The rows of the loaded files. -/
theorem toRow_findById :
    (findById rows requestId l).files.map (Item.toRow requestId) =
      (rows .loc).filter fun r : ItemRow .file => r.requestId = requestId := by
  unfold findById
  rw [List.map_map]
  refine (List.map_congr_left fun r hr => ?_).trans (List.map_id _)
  exact toRow_columns r (by simpa using (List.mem_filter.mp hr).2)

theorem mem_files_findById {r : ItemRow .file}
    (hr : r ∈ (findById rows requestId l).files.map (Item.toRow requestId)) :
    r ∈ rows .loc ∧ r.requestId = requestId := by
  rw [toRow_findById] at hr
  exact (List.mem_filter.mp hr).imp_right fun hid => by simpa using hid

theorem unmarked_findById {f : LocFile} (hf : f ∈ (findById rows requestId l).files) :
    f.toAdd = false ∧ f.toUpdate = false := by
  obtain ⟨r, -, rfl⟩ := List.mem_map.mp hf
  rw [← r.plain]
  exact ⟨rfl, rfl⟩

theorem saveFiles_eq : l.saveFiles =
    l.filesToDelete.map (fun f => .delete (itemWhere l.id .file f)) ++
      (order Item.index l.files).flatMap (itemParameters l.id .file).saveChild := rfl

/-- The statements of new files. -/
theorem saveFiles_added {old added : List LocFile} (hfiles : l.files = old ++ added)
    (hdelete : l.filesToDelete = []) (hold : ∀ f ∈ old, f.toAdd = false ∧ f.toUpdate = false)
    (hadded : ∀ f ∈ added, f.toAdd = true) : ∃ new : List (ItemRow .file),
    l.saveFiles = new.map .insert ∧ new.Perm (added.map (Item.toRow l.id)) := by
  have hperm : (order Item.index l.files).Perm (old ++ added) := hfiles ▸ order_perm l.files
  have hchild : ∀ f ∈ order Item.index l.files, (itemParameters l.id .file).saveChild f =
      if f.toAdd then [.insert (f.toRow l.id)] else [] := by
    intro f hf
    unfold ChildParameters.saveChild
    rcases List.mem_append.mp (hperm.subset hf) with hf | hf
    · simp [itemParameters, hold f hf]
    · simp [itemParameters, hadded f hf]
  refine ⟨((order Item.index l.files).filter Item.toAdd).map (Item.toRow l.id), ?_, ?_⟩
  · rw [saveFiles_eq, hdelete, List.map_nil, List.nil_append, List.flatMap_congr hchild, List.map_map]
    generalize order Item.index l.files = files
    induction files with
    | nil => rfl
    | cons f files ih =>
      rw [List.flatMap_cons, ih, List.filter_cons]
      cases hf : f.toAdd <;> simp
  · refine ((hperm.filter _).map _).trans ?_
    rw [List.filter_append, List.filter_eq_self.mpr hadded,
      List.filter_eq_nil_iff.mpr fun f hf => by simp [(hold f hf).1], List.nil_append]

/-- The statements of a removal. -/
theorem saveFiles_removed {file : LocFile} (hdelete : l.filesToDelete = [file])
    (hfiles : ∀ f ∈ l.files, f.toAdd = false) : ∃ shifted : List LocFile,
    l.saveFiles = .delete (itemWhere l.id .file file) :: shifted.map fun f =>
      .update (itemWhere l.id .file f) fun _ => f.toRow l.id := by
  have hchild : ∀ f ∈ order Item.index l.files, (itemParameters l.id .file).saveChild f =
      if f.toUpdate then [.update (itemWhere l.id .file f) fun _ => f.toRow l.id] else [] := by
    intro f hf
    have hadd : f.toAdd = false := hfiles f ((order_perm l.files).subset hf)
    unfold ChildParameters.saveChild
    exact if_neg (by simp [itemParameters, hadd])
  refine ⟨(order Item.index l.files).filter Item.toUpdate, ?_⟩
  rw [saveFiles_eq, hdelete, List.map_singleton, List.singleton_append, List.flatMap_congr hchild]
  refine congrArg _ ?_
  generalize order Item.index l.files = files
  induction files with
  | nil => rfl
  | cons f files ih =>
    rw [List.flatMap_cons, ih, List.filter_cons]
    cases hf : f.toUpdate <;> simp

/-- The column of a LOC file. -/
def fileCid (f : LocFile) : Option Cid :=
  let data : FileData := f.data
  data.cid

theorem addFile_files {hash : Hash} {submitter : AccountId} {data : FileData} {type : SubmissionType}
    {now : Moment} (h : l.addFile hash submitter data type now = .ok l') :
    l'.filesToDelete = l.filesToDelete ∧ ∃ f : LocFile, l'.files = l.files ++ [f] ∧
      f.toAdd = true ∧ fileCid f = data.cid := by
  obtain ⟨-, rfl⟩ := LocRequest.addItem_ok h
  exact ⟨rfl, _, rfl, rfl, rfl⟩

theorem addFiles_files {files : List FileParams} {now : Moment} (h : l.addFiles files now = .ok l') :
    l'.filesToDelete = l.filesToDelete ∧ ∃ added : List LocFile,
      l'.files = l.files ++ added ∧ (∀ f ∈ added, f.toAdd = true) ∧
        added.map fileCid = files.map fun file => file.data.cid := by
  induction files generalizing l with
  | nil =>
    cases h
    exact ⟨rfl, [], by simp⟩
  | cons file files ih =>
    rw [LocRequest.addFiles, List.foldlM_cons] at h
    obtain ⟨l₁, h₁, h⟩ := bind_eq_ok.mp h
    obtain ⟨hdelete, f, hf, htoAdd, hcid⟩ := addFile_files h₁
    obtain ⟨hdelete', added, hadded, hall, hcids⟩ := ih h
    refine ⟨hdelete'.trans hdelete, f :: added, ?_, ?_, ?_⟩
    · rw [hadded, hf, List.append_assoc, List.singleton_append]
    · rw [List.forall_mem_cons]
      exact ⟨htoAdd, hall⟩
    · rw [List.map_cons, List.map_cons, hcid, hcids]

/-- The transaction of a request that has added files with the CIDs that it has imported. -/
theorem savedBy_added {added : List LocFile} (hne : ∀ cid ∈ cids, cid ≠ "")
    (hdelete : l'.filesToDelete = []) (hfiles : l'.files = (findById rows requestId l).files ++ added)
    (hadded : ∀ f ∈ added, f.toAdd = true) (hcids : added.map fileCid = cids.map some) :
    SavedBy cids [] (onLoc l'.saveFiles) := by
  obtain ⟨new, hsave, hnew⟩ := saveFiles_added hfiles hdelete (fun f hf => unmarked_findById hf) hadded
  rw [hsave]
  refine .added ((hnew.filterMap _).trans (List.Perm.of_eq ?_))
  rw [List.filterMap_map]
  have hrow : ∀ f : LocFile, rowCid .loc (f.toRow l'.id) = nonEmpty (fileCid f) := fun _ => rfl
  calc added.filterMap (rowCid .loc ∘ Item.toRow l'.id)
      = (added.map fileCid).filterMap nonEmpty := by
        rw [List.filterMap_map]
        exact List.filterMap_congr fun f _ => hrow f
    _ = cids := by
        rw [hcids, List.filterMap_map]
        refine (List.filterMap_congr fun cid hcid => ?_).trans List.filterMap_some
        simp [nonEmpty, hne cid hcid]

theorem withCids_cids {files : List FileParams} (hlen : files.length = cids.length) :
    (withCids files cids).map (fun file => file.data.cid) = cids.map some := by
  induction files generalizing cids with
  | nil => rw [List.length_eq_zero_iff.mp hlen.symm]; rfl
  | cons file files ih =>
    cases cids with
    | nil => cases hlen
    | cons cid cids =>
      have hrest := ih (Nat.succ.inj hlen)
      rw [withCids, List.zipWith_cons_cons, List.map_cons, List.map_cons]
      exact congrArg _ hrest

theorem updateIdenfyVerification_files {final : Bool} {overall : IdenfyStatus} {raw : String}
    (h : l.updateIdenfyVerification final overall raw = .ok l') :
    l'.filesToDelete = l.filesToDelete ∧ l'.files = l.files := by
  unfold LocRequest.updateIdenfyVerification at h
  split at h
  · cases h
  · split_ifs at h <;> cases h <;> exact ⟨rfl, rfl⟩

/-- The statements of `removeFile`. -/
theorem saveFiles_removeFile {contributor : AccountId} {hash : Hash}
    (h : (findById rows requestId l).removeFile contributor hash = .ok l') :
    ∃ (file : LocFile) (shifted : List LocFile), (findById rows requestId l).item? .file hash = some file ∧
      l'.saveFiles = .delete (itemWhere requestId .file file) :: shifted.map fun f =>
        .update (itemWhere requestId .file f) fun _ => f.toRow requestId := by
  obtain ⟨file, hfile, rfl⟩ := LocRequest.removeItem_ok h
  have hadd : ∀ f ∈ reindexChildren file.index (Keyed.eraseFirst Item.key file.key
      ((findById rows requestId l).items .file)), f.toAdd = false := by
    intro f hf
    obtain ⟨child, hchild, rfl⟩ := List.mem_map.mp hf
    rw [Keyed.lookup_key hfile] at hchild
    have hmem := (Keyed.perm_eraseFirst hfile).symm.subset (List.mem_cons_of_mem _ hchild)
    split_ifs <;> exact (unmarked_findById hmem).1
  obtain ⟨shifted, hsave⟩ := saveFiles_removed (l := ((findById rows requestId l).setItems .file
    (reindexChildren file.index (Keyed.eraseFirst Item.key file.key
      ((findById rows requestId l).items .file)))).setItemsToDelete .file
        ((findById rows requestId l).itemsToDelete .file ++ [file])) rfl hadd
  exact ⟨file, shifted, hfile, hsave⟩

/-- The files of an item, or of a record, are loaded from their table. -/
theorem loads_findBy (k : ParentKind) (collectionLocId : UUID) (parentId : Hash) :
    FileTables.Loads ⟨rows (.files k), []⟩ (findBy rows k collectionLocId parentId) := by
  refine ⟨List.Perm.of_eq ?_, fun file hfile => ?_⟩
  · unfold findBy
    rw [List.map_map]
    exact List.map_id _
  · obtain ⟨r, -, rfl⟩ := List.mem_map.mp hfile
    exact ⟨rfl, rfl, fun d hd => by cases hd⟩

/-- The statements of a callback. -/
theorem savedBy_callback {legalOfficer : AccountId} {json : IdenfyCallback} {l₁ : LocRequest}
    (hlen : cids.length = if json.Approving then (json.downloadFiles legalOfficer).length else 0)
    (hne : ∀ cid ∈ cids, cid ≠ "")
    (hupdate : (findById rows requestId l).updateIdenfyVerification json.final json.overall.toStatus
      json.raw = .ok l₁)
    (hadd : l₁.addFiles (if json.Approving then withCids (json.downloadFiles legalOfficer) cids else [])
      json.now = .ok l') : SavedBy cids [] (onLoc l'.saveFiles) := by
  obtain ⟨hdelete₁, hfiles₁⟩ := updateIdenfyVerification_files hupdate
  obtain ⟨hdelete, added, hfiles, hall, hcids⟩ := addFiles_files hadd
  refine savedBy_added hne (hdelete.trans hdelete₁) (hfiles.trans (congrArg (· ++ added) hfiles₁)) hall
    (hcids.trans ?_)
  split_ifs at hlen ⊢
  · exact withCids_cids hlen.symm
  · rw [List.length_eq_zero_iff.mp hlen]
    rfl

/-- **The transaction of a request**, once all its files are imported: its statements, and the rows
whose files it deletes, which it has found. -/
theorem savedBy_of_mutate {request : Request} {found : Option LocRequest} {changes : Changes}
    (hlen : cids.length = request.imports) (hne : ∀ cid ∈ cids, cid ≠ "")
    (h : request.mutate rows found cids = .ok changes) :
    SavedBy cids changes.removed changes.statements ∧ ∀ r ∈ changes.removed, r ∈ rows .loc := by
  cases request with
  | addFile requestId view contributor file now =>
    obtain ⟨l, -, h⟩ := bind_eq_ok.mp h
    obtain ⟨l', hadd, h⟩ := bind_eq_ok.mp h
    cases h
    obtain ⟨cid, rfl⟩ := List.length_eq_one_iff.mp hlen
    obtain ⟨hdelete, f, hf, htoAdd, hcid⟩ := addFile_files hadd
    have hadded : ∀ f' ∈ [f], f'.toAdd = true := fun f' hf' => by rwa [List.mem_singleton.mp hf']
    exact ⟨savedBy_added hne hdelete hf hadded (congrArg (fun cid => [cid]) hcid), fun r hr => by cases hr⟩
  | deleteFile requestId contributor hash =>
    obtain ⟨l, -, h⟩ := bind_eq_ok.mp h
    obtain ⟨l', hremove, h⟩ := bind_eq_ok.mp h
    cases h
    obtain rfl := List.length_eq_zero_iff.mp hlen
    obtain ⟨file, shifted, hfile, hsave⟩ := saveFiles_removeFile hremove
    rw [hfile, Option.toList_some, List.map_singleton, hsave]
    refine ⟨.removed, fun r hr => ?_⟩
    rw [List.mem_singleton.mp hr]
    exact (mem_files_findById (List.mem_map_of_mem (Keyed.mem_of_lookup hfile))).1
  | cancelLocRequest requestId =>
    obtain ⟨l, -, h⟩ := bind_eq_ok.mp h
    dsimp only at h
    split_ifs at h
    cases h
    obtain rfl := List.length_eq_zero_iff.mp hlen
    exact ⟨.deleted fun r hr => (mem_files_findById hr).2, fun r hr => (mem_files_findById hr).1⟩
  | cancelCreateOpenLoc requestId =>
    obtain ⟨l, -, h⟩ := bind_eq_ok.mp h
    dsimp only at h
    split_ifs at h
    cases h
    obtain rfl := List.length_eq_zero_iff.mp hlen
    refine ⟨.deleted fun r hr => ?_, fun r hr => ?_⟩ <;> cases hr
  | uploadFile k collectionLocId parentId hash =>
    obtain ⟨root, hset, h⟩ := bind_eq_ok.mp h
    cases h
    obtain ⟨cid, rfl⟩ := List.length_eq_one_iff.mp hlen
    obtain ⟨file, -, -, hsave⟩ := saveFiles_setFileCid (loads_findBy k collectionLocId parentId) hset
    rw [hsave]
    refine ⟨.uploaded ?_, fun r hr => by cases hr⟩
    simp [nonEmpty, hne cid List.mem_cons_self]
  | callback legalOfficer clientId json =>
    obtain ⟨l, -, h⟩ := bind_eq_ok.mp h
    obtain ⟨l₁, hupdate, h⟩ := bind_eq_ok.mp h
    obtain ⟨l', hadd, h⟩ := bind_eq_ok.mp h
    cases h
    exact ⟨savedBy_callback hlen hne hupdate hadd, fun r hr => by cases hr⟩

end

/-! ### The invariant -/

/-- What the request has to do with the file store. -/
def Phase.holder : Phase → Holder FileKey Cid
  | .ready => ⟨[], [], []⟩
  | .importing cids => ⟨cids, [], []⟩
  | .saving cids removed _ _ => ⟨cids, rowRefs .loc removed, []⟩
  | .deleting cids => ⟨[], [], cids⟩

/-- The CIDs, as resources that the rows record. -/
def System.ledger (σ : System ι) : Ledger ι FileKey Cid where
  used := σ.imported
  pool := σ.pinned
  records := refs (storedAll σ.tables)
  holder u := (σ.phase u).holder

/-- What a request relies on. -/
def PhaseInv (request : Request) : Phase → Prop
  | .importing cids => cids.length ≤ request.imports ∧ ∀ cid ∈ cids, cid ≠ ""
  | .saving cids removed done todo => SavedBy cids removed (done ++ todo)
  | _ => True

structure Inv (σ : System ι) : Prop where
  made : ∀ u, MadeAll u (σ.phase u).done σ.tables
  shapes : ∀ u, PhaseInv (requests u) (σ.phase u)
  sound : σ.ledger.Sound

section

variable {requests} {σ : System ι} {t : ι} {p : Phase} {tables : Versions ι StoredRow}

variable (σ t p tables) in
theorem holder_moved : (fun u => ((σ.moved t tables p).phase u).holder) =
    Function.update (fun u => (σ.phase u).holder) t p.holder :=
  Function.comp_update Phase.holder σ.phase t p

/-- **Step of a request.**  The other ones stay where they are. -/
theorem Inv.moved {σ' : System ι} (h : Inv requests σ) (htables : σ'.tables = tables)
    (hphase : σ'.phase = Function.update σ.phase t p) (hmade : MadeAll t p.done tables)
    (hothers : ∀ u, u ≠ t → MadeAll u (σ.phase u).done tables) (hshape : PhaseInv (requests t) p)
    (hsound : σ'.ledger.Sound) : Inv requests σ' where
  made u := by
    rw [htables, hphase]
    by_cases hu : u = t
    · rw [hu, Function.update_self]
      exact hmade
    · rw [Function.update_of_ne hu]
      exact hothers u hu
  shapes u := by
    rw [hphase]
    by_cases hu : u = t
    · rw [hu, Function.update_self]
      exact hshape
    · rw [Function.update_of_ne hu]
      exact h.shapes u
  sound := hsound

/-- The request throws; it deletes what it has imported, if that is anything. -/
theorem Inv.thrown (h : Inv requests σ) (hthrow : MayThrow requests σ t)
    (hbefore : ∀ cids, σ.phase t ≠ .deleting cids) : Inv requests (σ.thrown t requests) := by
  refine h.moved rfl rfl madeAll_rollback_self (fun u hu => (h.made u).rollback_other hu) trivial ?_
  have hcids : (if (requests t).compensates then (σ.phase t).imported else []) =
      (σ.phase t).holder.held := by
    have hheld : (σ.phase t).imported = (σ.phase t).holder.held := by cases σ.phase t <;> rfl
    rcases hthrow with hcompensates | himported
    · rw [if_pos hcompensates, hheld]
    · rw [← hheld, himported]
      exact ite_self _
  have hledger : (σ.thrown t requests).ledger = σ.ledger.abandon t := by
    unfold System.ledger Ledger.abandon System.thrown
    rw [holder_moved, hcids]
    simp only [System.moved, storedAll_rollbackAll]
    rfl
  rw [hledger]
  refine h.sound.abandon ?_
  show (σ.phase t).holder.condemned = []
  cases hphase : σ.phase t with
  | deleting cids => exact absurd hphase (hbefore cids)
  | ready | importing | saving => rfl

/-- A step that neither imports nor deletes files, and does not commit. -/
theorem Inv.quiet (h : Inv requests σ) (hmade : MadeAll t p.done tables)
    (hothers : ∀ u, u ≠ t → MadeAll u (σ.phase u).done tables)
    (hstored : storedAll tables = storedAll σ.tables) (hshape : PhaseInv (requests t) p)
    (hholder : p.holder = (σ.phase t).holder) : Inv requests (σ.moved t tables p) := by
  refine h.moved rfl rfl hmade hothers hshape ?_
  have hledger : (σ.moved t tables p).ledger = σ.ledger := by
    unfold System.ledger
    rw [holder_moved, hholder, Function.update_eq_self]
    simp only [System.moved, hstored]
  rw [hledger]
  exact h.sound

/-- The transaction has loaded what it mutates. -/
theorem Inv.mutated (h : Inv requests σ) {cids : List Cid} (hphase : σ.phase t = .importing cids)
    (hall : ¬ cids.length < (requests t).imports) {l : Option LocRequest} {changes : Changes}
    (hmutate : (requests t).mutate (viewAll t σ.tables) l cids = .ok changes) :
    Inv requests (σ.moved t σ.tables (.saving cids changes.removed [] changes.statements)) := by
  have hshape := h.shapes t
  rw [hphase] at hshape
  obtain ⟨hsaved, hrows⟩ := savedBy_of_mutate (Nat.le_antisymm hshape.1 (Nat.le_of_not_lt hall))
    hshape.2 hmutate
  have hmade := h.made t
  rw [hphase] at hmade
  refine h.moved rfl rfl hmade (fun u _ => h.made u) hsaved ?_
  have hledger : (σ.moved t σ.tables (.saving cids changes.removed [] changes.statements)).ledger =
      σ.ledger.claim t (rowRefs .loc changes.removed) := by
    unfold System.ledger Ledger.claim
    rw [holder_moved]
    simp only [hphase]
    rfl
  rw [hledger]
  refine h.sound.claim fun q hq => mem_refs.mpr ⟨.loc, ?_⟩
  obtain ⟨r, hmem, hr⟩ := mem_rowRefs.mp hq
  exact mem_rowRefs.mpr ⟨r, (hmade .loc).view.subset (hrows r hmem), hr⟩

/-- **Commit.** -/
theorem Inv.committed (h : Inv requests σ) {cids : List Cid} {removed : List (ItemRow .file)}
    {done : List (TableStatement StoredRow)} (hphase : σ.phase t = .saving cids removed done [])
    (hC : InOrder σ t removed done) : Inv requests
      (σ.moved t (commitAll t σ.tables) (.deleting (removed.filterMap (rowCid .loc)))) := by
  have hmade := h.made t
  rw [hphase] at hmade
  have hsaved := h.shapes t
  rw [hphase] at hsaved
  have hsettles : Settles cids removed (refs (storedAll σ.tables)) (refs (afterAll done
      (storedAll σ.tables))) := by
    have hsaved' : SavedBy cids removed done := by simpa [PhaseInv] using hsaved
    exact hsaved'.settles hC.keeps
  obtain ⟨keep, new, hafter, hnew, hlost, hgone⟩ := hsettles
  refine h.moved rfl rfl madeAll_commit_self
    (fun u hu => (h.made u).commit_other hu (hC.missed u hu)) trivial ?_
  have hledger : (σ.moved t (commitAll t σ.tables)
      (.deleting (removed.filterMap (rowCid .loc)))).ledger =
        σ.ledger.settle t (refs (storedAll (commitAll t σ.tables))) := by
    unfold System.ledger Ledger.settle
    rw [holder_moved, ← rowRefs_cids]
    simp only [hphase]
    rfl
  have hholder : σ.ledger.holder t = ⟨cids, rowRefs .loc removed, []⟩ := congrArg Phase.holder hphase
  rw [hledger]
  have hrecords := (refs_perm fun T => hmade.stored_commit T).trans hafter
  exact h.sound.settle (by rw [hholder]) hrecords (by rwa [hholder]) (by rwa [hholder]) (by rwa [hholder])

theorem Inv.importFile (h : Inv requests σ) {cid : Cid} {σ' : System ι}
    (hok : σ.importFile t requests cid = .ok σ') : Inv requests σ' := by
  unfold System.importFile at hok
  cases hphase : σ.phase t with
  | importing cids =>
    simp only [hphase] at hok
    split_ifs at hok with hnew
    cases hok
    obtain ⟨hlen, hfresh, hne⟩ := hnew
    have hshape := h.shapes t
    rw [hphase] at hshape
    have hmade := h.made t
    rw [hphase] at hmade
    refine h.moved (p := .importing (cids ++ [cid])) rfl rfl hmade (fun u _ => h.made u) ⟨?_, ?_⟩ ?_
    · rw [List.length_append]
      exact hlen
    · intro c hc
      rcases List.mem_append.mp hc with hc | hc
      · exact hshape.2 c hc
      · rwa [List.mem_singleton.mp hc]
    · have hledger : ({ σ.moved t σ.tables (.importing (cids ++ [cid])) with
          pinned := σ.pinned ++ [cid], imported := σ.imported ++ [cid] } : System ι).ledger =
            σ.ledger.acquire t cid := by
        have hholder := holder_moved σ t (.importing (cids ++ [cid])) σ.tables
        unfold System.ledger Ledger.acquire
        simp only [hphase]
        exact congrArg (Ledger.mk _ _ _) hholder
      rw [hledger]
      exact h.sound.acquire hfresh
  | ready | saving | deleting =>
    simp only [hphase] at hok
    cases hok

theorem Inv.deleteFile (h : Inv requests σ) {cid : Cid} {σ' : System ι}
    (hok : σ.deleteFile t cid = .ok σ') : Inv requests σ' := by
  unfold System.deleteFile at hok
  cases hphase : σ.phase t with
  | deleting cids =>
    simp only [hphase] at hok
    split_ifs at hok with hmem
    cases hok
    have hmade := h.made t
    rw [hphase] at hmade
    refine h.moved (p := .deleting (cids.erase cid)) rfl rfl hmade (fun u _ => h.made u) trivial ?_
    have hledger : ({ σ.moved t σ.tables (.deleting (cids.erase cid)) with
        pinned := σ.pinned.filter (· ≠ cid) } : System ι).ledger = σ.ledger.release t cid := by
      have hholder := holder_moved σ t (.deleting (cids.erase cid)) σ.tables
      unfold System.ledger Ledger.release
      simp only [hphase]
      exact congrArg (Ledger.mk _ _ _) hholder
    rw [hledger]
    refine h.sound.release ?_
    show cid ∈ (σ.phase t).holder.condemned
    rw [hphase]
    exact hmem
  | ready | importing | saving =>
    simp only [hphase] at hok
    cases hok

theorem Inv.resume (h : Inv requests σ) {l : Option LocRequest}
    (hC : Undisturbed requests σ (.resume t l)) {σ' : System ι} (hok : σ.resume t requests l = .ok σ') :
    Inv requests σ' := by
  unfold System.resume at hok
  simp only [Undisturbed, UndisturbedAt] at hC
  have hmade := h.made t
  cases hphase : σ.phase t with
  | ready =>
    rw [hphase] at hmade
    simp only [hphase] at hok
    split_ifs at hok <;> cases hok
    · exact h.quiet hmade (fun u _ => h.made u) rfl ⟨Nat.zero_le _, by simp⟩ (by rw [hphase]; rfl)
    · exact h.quiet hmade (fun u _ => h.made u) rfl trivial (by rw [hphase]; rfl)
  | importing cids =>
    simp only [hphase] at hok hC
    split_ifs at hok with hall
    cases hmutate : (requests t).mutate (viewAll t σ.tables) l cids with
    | error e =>
      simp only [hmutate] at hok
      cases hok
      refine h.thrown ?_ fun cids' => by rw [hphase]; simp
      refine hC.resolve_right ?_
      rintro (hlt | hreturns)
      · exact hall hlt
      · rw [hmutate] at hreturns
        exact not_returns_error e hreturns
    | ok changes =>
      simp only [hmutate] at hok
      cases hok
      exact h.mutated hphase hall hmutate
  | saving cids removed done todo =>
    rw [hphase] at hmade
    cases todo with
    | nil =>
      simp only [hphase] at hok hC
      cases hok
      exact h.committed hphase hC
    | cons s todo =>
      simp only [hphase] at hok hC
      split_ifs at hok with hfree hconsistent
      · cases hok
        have hshape := h.shapes t
        rw [hphase] at hshape
        refine h.quiet hmade.exec_self (fun u hu => (h.made u).exec_other hu hfree) storedAll_execOn ?_
          (by rw [hphase]; rfl)
        show SavedBy cids removed (done ++ [s] ++ todo)
        rwa [List.append_assoc]
      · cases hok
        exact h.thrown (hC.resolve_right hconsistent) fun cids' => by rw [hphase]; simp
  | deleting cids =>
    simp only [hphase] at hok
    cases hok

theorem inv_step {o : Op ι} {σ' : System ι} (h : Inv requests σ) (hC : Undisturbed requests σ o)
    (hok : step requests σ o = .ok σ') : Inv requests σ' := by
  cases o with
  | resume t l => exact h.resume hC hok
  | importFile t cid => exact h.importFile hok
  | deleteFile t cid => exact h.deleteFile hok
  | fail t =>
    simp only [step] at hok
    cases hphase : σ.phase t with
    | deleting cids =>
      simp only [hphase] at hok
      cases hok
    | ready | importing | saving =>
      simp only [hphase] at hok
      cases hok
      exact h.thrown hC fun cids => by rw [hphase]; simp

omit [DecidableEq ι] in
theorem storedAll_start (rows : FileRows) : storedAll (start rows : System ι).tables = rows := by
  funext T
  show ((rows T).map _).filterMap _ = rows T
  rw [List.filterMap_map]
  exact List.filterMap_some

theorem inv_start (rows : FileRows) (hrows : ((refs rows).map Prod.snd).Nodup) :
    Inv requests (start rows) where
  made _ := madeAll_nil fun T v hv => by
    obtain ⟨r, -, rfl⟩ := List.mem_map.mp hv
    rfl
  shapes _ := trivial
  sound := by
    have hrefs : (start rows : System ι).ledger.records = refs rows := congrArg refs (storedAll_start rows)
    refine ⟨?_, ?_, fun _ hc => hc, fun c hc => .inl ?_, fun _ => List.nodup_nil, ?_, ?_, ?_⟩
    · rwa [hrefs]
    · rw [hrefs]
      exact fun q hq => List.mem_map_of_mem hq
    · obtain ⟨q, hq, rfl⟩ := List.mem_map.mp hc
      exact ⟨q.1, hrefs ▸ hq⟩
    all_goals
      intro u c hc
      cases hc

theorem Inv.agree (h : Inv requests σ) : AgreeAtRest σ := by
  intro hidle
  constructor
  · intro T r hr cid hcid
    exact h.sound.pooled (rowKey T r, cid) (mem_refs.mpr ⟨T, mem_rowRefs.mpr ⟨r, hr, rfl, hcid⟩⟩)
  · intro cid hcid
    refine h.sound.recorded_once (fun u => ?_) hcid
    show (σ.phase u).holder.held = [] ∧ (σ.phase u).holder.condemned = []
    have hu := hidle u
    cases hphase : σ.phase u with
    | ready => exact ⟨rfl, rfl⟩
    | deleting cids =>
      cases cids with
      | nil => exact ⟨rfl, rfl⟩
      | cons cid cids =>
        rw [hphase] at hu
        cases hu
    | importing | saving =>
      rw [hphase] at hu
      cases hu

end

/-- **Files and rows agree** when no request is in progress, in every run whose steps harm no file. -/
theorem agree_run (rows : FileRows) (hrows : ((refs rows).map Prod.snd).Nodup) (ops : List (Op ι))
    (h : Along (step requests) (Undisturbed requests) (start rows) ops) :
    AgreeAtRest (run (step requests) (start rows) ops) :=
  (run_invariant (I := Inv requests) (fun _ _ _ hinv hC hok => inv_step hinv hC hok)
    (inv_start rows hrows) h).agree

/-! ### Requests in turn, and requests that leave files behind -/

def firstData : FileData where
  name := "first"
  cid := some "Qm1"
  contentType := none
  nature := ""
  size := 1
  restrictedDelivery := false

def firstFile : LocFile where
  key := "0x01"
  index := 0
  submitter := .polkadot "alice"
  lifecycle := EmbeddableLifecycle.fromSubmissionType .manualByUser 0
  data := firstData

/-- The file of a LOC, and a file of an item, which is not uploaded yet. -/
def storedFiles : FileRows
  | .loc => [Item.toRow "loc" firstFile]
  | .files .item => [⟨"collection", "item", "0x02", some "second", none, none⟩]
  | .files .record => []

def locWithStatus (status : LocRequestStatus) : LocRequest :=
  { id := "loc", status := status, requester := none, ownerAddress := "alice", locType := .transaction }

/-- The LOC is cancelled, and the file of the item is uploaded. -/
def cancelAndUpload : Bool → Request
  | false => .cancelLocRequest "loc"
  | true => CollectionController.uploadFile "collection" "item" "0x02"

/-- Both transactions are open at once, on different tables. -/
def cancelDuringUpload : List (Op Bool) :=
  [.resume true none, .importFile true "Qm2", .resume true none, .resume false none,
    .resume false (some (locWithStatus .draft)), .resume true none, .resume false none,
    .resume true none, .resume false none, .deleteFile false "Qm1"]

theorem agree_run_cancelDuringUpload :
    Agree (run (step cancelAndUpload) (start storedFiles) cancelDuringUpload) :=
  agree_run cancelAndUpload storedFiles (by decide) cancelDuringUpload (by decide) (by decide)

/-- The open LOC is deleted. -/
def deleteOpenLoc : Bool → Request := fun _ => .cancelCreateOpenLoc "loc"

/-- The file of the item is uploaded, twice. -/
def uploadTwice : Bool → Request :=
  fun _ => CollectionController.uploadFile "collection" "item" "0x02"

/-- Both uploads have found the file without CID when the first one commits. -/
def uploadsAtOnce : List (Op Bool) :=
  [.resume false none, .importFile false "Qm2", .resume true none, .importFile true "Qm3",
    .resume false none, .resume true none, .resume false none, .resume false none,
    .resume true none, .resume true none]

/-- What the file store keeps though no row refers to it: the file of a deleted LOC, the file of an
upload that has thrown, and the first one of two files of the same upload. -/
theorem files_notAgree :
    ¬ AgreeAtRest (run (step deleteOpenLoc) (start storedFiles)
        (List.replicate 4 (.resume false (some (locWithStatus .opened))))) ∧
      ¬ AgreeAtRest (run (step uploadTwice) (start storedFiles)
        [.resume false none, .importFile false "Qm2", .fail false]) ∧
      ¬ AgreeAtRest (run (step uploadTwice) (start storedFiles) uploadsAtOnce) := by
  refine ⟨fun h => ?_, fun h => ?_, fun h => ?_⟩
  · exact absurd ((h (by decide)).referenced "Qm1" (by decide)) (by decide)
  · exact absurd ((h (by decide)).referenced "Qm2" (by decide)) (by decide)
  · exact absurd ((h (by decide)).referenced "Qm2" (by decide)) (by decide)

end FilePins

end Logion
