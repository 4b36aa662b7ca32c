import Logion.Model.Basic
import Logion.Store.Children

/-!
# StoredFiles — the files of collection items and tokens records

`CollectionRepository` and `TokensRecordRepository` save the files of an item, or of a record, in the
same way (`collection.model.ts`, `tokensrecord.model.ts`): an updated file writes all its columns, the
primary key included, on the rows that a WHERE clause selects by the item or the record alone.

* `FilesRoot.setFileCid`, `FilesRoot.saveFiles`, `FileTables.save`: the code.
* `saveFiles_setFileCid`: the one statement that a new CID gives.
* `rows_update_alone`: what becomes of the rows when the item has one file.
* `cidStored_iff`: the CID is stored, and nothing else touched, exactly when the file is alone.
-/

namespace Logion

open Fallible Table

/-! ### Rows and entities -/

/-- A row of `collection_item_file` or `tokens_record_file`; `parentId` is the column `item_id` of the
one and `record_id` of the other. -/
structure FileRow where
  collectionLocId : UUID
  parentId : Hash
  hash : Hash
  name : Option String
  contentType : Option String
  cid : Option String
  deriving DecidableEq, Repr

namespace FileRow

/-- The primary key. -/
def key (r : FileRow) : UUID × Hash × Hash := (r.collectionLocId, r.parentId, r.hash)

def clash (r r' : FileRow) : Prop := r.key = r'.key

instance : DecidableRel clash := fun r r' => inferInstanceAs (Decidable (r.key = r'.key))

/-- The file belongs to this item, or record. -/
def ofParent (collectionLocId : UUID) (parentId : Hash) (r : FileRow) : Bool :=
  r.collectionLocId = collectionLocId && r.parentId = parentId

/-- The row with another CID, if it is the one with that key. -/
def withCid (key : UUID × Hash × Hash) (cid : String) (r : FileRow) : FileRow :=
  if r.key = key then { r with cid := some cid } else r

end FileRow

/-- A row of `collection_item_file_delivered` or `tokens_record_file_delivered`, without the random
id that is its primary key. -/
structure DeliveredRow where
  collectionLocId : UUID
  parentId : Hash
  hash : Hash
  deliveredFileHash : Hash
  generatedOn : Option Moment
  owner : String
  deriving DecidableEq, Repr

/-- `CollectionItemFileDelivered`, `TokensRecordFileDelivered`. -/
structure DeliveredFile where
  columns : DeliveredRow
  toAdd : Bool
  deriving DecidableEq, Repr

/-- `CollectionItemFile`, `TokensRecordFile`. -/
structure StoredFile where
  columns : FileRow
  delivered : List DeliveredFile := []
  toAdd : Bool := false
  toUpdate : Bool := false
  deriving DecidableEq, Repr

/-- `setCid`; an empty CID is none. -/
def StoredFile.setCid (file : StoredFile) (cid : String) : Except Err StoredFile :=
  if file.columns.cid.getD "" ≠ "" then throw (.error "File has already a CID")
  else return { file with columns.cid := some cid, toUpdate := true }

/-- What `CollectionItemAggregateRoot` and `TokensRecordAggregateRoot` have in common. -/
structure FilesRoot where
  collectionLocId : UUID
  parentId : Hash
  files : List StoredFile
  deriving DecidableEq, Repr

abbrev CollectionItemAggregateRoot := FilesRoot

abbrev TokensRecordAggregateRoot := FilesRoot

/-- The tables of one of the two repositories. -/
structure FileTables where
  files : List FileRow
  delivered : List DeliveredRow
  deriving DecidableEq, Repr

def StoredFile.hash (file : StoredFile) : Hash := file.columns.hash

namespace FilesRoot

variable (root : FilesRoot)

def file (hash : Hash) : Option StoredFile := Keyed.lookup StoredFile.hash hash root.files

def setFileCid (hash : Hash) (cid : String) : Except Err FilesRoot :=
  match root.file hash with
  | none => throw (.error s!"No file with hash {hash}")
  | some file => do
    let file ← file.setCid cid
    return { root with files := Keyed.modifyFirst StoredFile.hash hash (fun _ => file) root.files }

/-! ### Saving -/

/-- The WHERE clause does not look at the file. -/
def fileParameters : ChildParameters StoredFile FileRow where
  toAdd := StoredFile.toAdd
  toUpdate := StoredFile.toUpdate
  row := StoredFile.columns
  whereExpression _ := FileRow.ofParent root.collectionLocId root.parentId

def saveFiles : List (Statement FileRow) := root.fileParameters.saveChildren root.files []

end FilesRoot

/-- Deliveries are never updated. -/
def deliveredParameters : ChildParameters DeliveredFile DeliveredRow where
  toAdd := DeliveredFile.toAdd
  toUpdate _ := false
  row := DeliveredFile.columns
  whereExpression _ _ := false

def StoredFile.saveDelivered (file : StoredFile) : List (Statement DeliveredRow) :=
  deliveredParameters.saveChildren file.delivered []

/-- `save`, without the row of the root, which these functions leave alone. -/
def FileTables.save (db : FileTables) (root : FilesRoot) : Except Violation FileTables := do
  let files ← execAll FileRow.clash root.saveFiles db.files
  let delivered ← execAll (fun _ _ => False) (root.files.flatMap StoredFile.saveDelivered) db.delivered
  return ⟨files, delivered⟩

def CollectionRepository.save (db : FileTables) (root : CollectionItemAggregateRoot) :
    Except Violation FileTables := db.save root

def TokensRecordRepository.save (db : FileTables) (root : TokensRecordAggregateRoot) :
    Except Violation FileTables := db.save root

/-- The entity that the repository loads: its files in any order, without markers. -/
structure FileTables.Loads (db : FileTables) (root : FilesRoot) : Prop where
  rows : (root.files.map StoredFile.columns).Perm
    (db.files.filter (FileRow.ofParent root.collectionLocId root.parentId))
  unmarked : ∀ file ∈ root.files, file.toAdd = false ∧ file.toUpdate = false ∧
    ∀ d ∈ file.delivered, d.toAdd = false

/-! ### The statement of a new CID -/

variable {db : FileTables} {root root' : FilesRoot} {hash : Hash} {cid : String}

theorem setCid_eq_ok {file file' : StoredFile} : file.setCid cid = .ok file' ↔
    file.columns.cid.getD "" = "" ∧
      file' = { file with columns.cid := some cid, toUpdate := true } := by
  unfold StoredFile.setCid
  by_cases hcid : file.columns.cid.getD "" = ""
  · simp [hcid, eq_comm]
  · simp [hcid]

theorem setFileCid_eq_ok : root.setFileCid hash cid = .ok root' ↔
    ∃ file file', root.file hash = some file ∧ file.setCid cid = .ok file' ∧ root' = { root with
      files := Keyed.modifyFirst StoredFile.hash hash (fun _ => file') root.files } := by
  unfold FilesRoot.setFileCid
  cases root.file hash with
  | none => simp
  | some file => simp [bind_eq_ok, eq_comm (a := root')]

/-- The other files are not marked: there is one statement, of the file with the new CID. -/
theorem saveFiles_setFileCid (hload : db.Loads root) (hset : root.setFileCid hash cid = .ok root') :
    ∃ file ∈ root.files, file.columns.hash = hash ∧
      root'.saveFiles = [.update (FileRow.ofParent root.collectionLocId root.parentId)
        fun _ => { file.columns with cid := some cid }] := by
  obtain ⟨file, file', hfile, hcid, rfl⟩ := setFileCid_eq_ok.mp hset
  obtain ⟨-, rfl⟩ := setCid_eq_ok.mp hcid
  have hhash : file.hash = hash := Keyed.lookup_key hfile
  refine ⟨file, Keyed.mem_of_lookup hfile, hhash, ?_⟩
  obtain ⟨htoAdd, -, -⟩ := hload.unmarked file (Keyed.mem_of_lookup hfile)
  have hsilent : ∀ f ∈ root.files, root.fileParameters.saveChild f = [] := by
    intro f hf
    obtain ⟨hadd, hupdate, -⟩ := hload.unmarked f hf
    simp [ChildParameters.saveChild, FilesRoot.fileParameters, hadd, hupdate]
  have hstatement := Keyed.flatMap_modifyFirst
    (f := fun _ => { file with columns.cid := some cid, toUpdate := true }) hsilent hfile
  refine hstatement.trans ?_
  simp [ChildParameters.saveChild, FilesRoot.fileParameters, htoAdd]

/-- No delivery is saved. -/
theorem saveDelivered_setFileCid (hload : db.Loads root)
    (hset : root.setFileCid hash cid = .ok root') :
    root'.files.flatMap StoredFile.saveDelivered = [] := by
  obtain ⟨file, file', hfile, hcid, rfl⟩ := setFileCid_eq_ok.mp hset
  obtain ⟨-, rfl⟩ := setCid_eq_ok.mp hcid
  have hnone : ∀ f ∈ root.files, f.saveDelivered = [] := by
    intro f hf
    obtain ⟨-, -, hdelivered⟩ := hload.unmarked f hf
    refine List.flatMap_eq_nil_iff.mpr fun d hd => ?_
    simp [ChildParameters.saveChild, deliveredParameters, hdelivered d hd]
  refine (Keyed.flatMap_modifyFirst hnone hfile).trans ?_
  exact hnone file (Keyed.mem_of_lookup hfile)

/-! ### The rows of the item -/

variable {collectionLocId : UUID} {parentId : Hash} {t : List FileRow} {r : FileRow}

theorem ofParent_iff : r.ofParent collectionLocId parentId = true ↔
    r.collectionLocId = collectionLocId ∧ r.parentId = parentId := by
  simp [FileRow.ofParent]

theorem withCid_key (key : UUID × Hash × Hash) (r : FileRow) : (r.withCid key cid).key = r.key := by
  unfold FileRow.withCid
  split_ifs <;> rfl

/-- A new CID on one row violates no constraint. -/
theorem consistent_withCid (h : Consistent FileRow.clash t) (key : UUID × Hash × Hash) :
    Consistent FileRow.clash (t.map (FileRow.withCid key cid)) := by
  unfold Consistent at *
  rw [List.pairwise_map]
  refine h.imp fun hne => ?_
  unfold FileRow.clash at *
  rwa [withCid_key, withCid_key]

/-- When one row is written on all the files of the item, they are at most one. -/
theorem length_le_one_of_consistent {new : FileRow}
    (hnew : new.ofParent collectionLocId parentId = true)
    (h : Consistent FileRow.clash
      (Statement.rows (.update (FileRow.ofParent collectionLocId parentId) fun _ => new) t)) :
    (t.filter (FileRow.ofParent collectionLocId parentId)).length ≤ 1 := by
  have hsame : (Statement.rows (.update (FileRow.ofParent collectionLocId parentId) fun _ => new)
      t).filter (FileRow.ofParent collectionLocId parentId) =
      List.replicate (t.filter (FileRow.ofParent collectionLocId parentId)).length new := by
    clear h
    induction t with
    | nil => rfl
    | cons r t ih =>
      rw [Statement.rows] at ih ⊢
      by_cases hr : r.ofParent collectionLocId parentId = true
      · simp [hr, hnew, ih, List.replicate_succ]
      · simp [hr, ih]
  have hreplicate := h.filter (FileRow.ofParent collectionLocId parentId)
  rw [hsame, Consistent, List.pairwise_replicate] at hreplicate
  exact hreplicate.resolve_right fun hne => hne rfl

variable (cid) in
/-- The UPDATE of a file that is alone in its item changes the CID of its row only. -/
theorem rows_update_alone (hr : t.filter (FileRow.ofParent collectionLocId parentId) = [r]) :
    Statement.rows (.update (FileRow.ofParent collectionLocId parentId)
      fun _ => { r with cid := some cid }) t = t.map (FileRow.withCid r.key cid) := by
  have hparent : r.ofParent collectionLocId parentId = true := by
    have hmem : r ∈ t.filter (FileRow.ofParent collectionLocId parentId) := by simp [hr]
    exact (List.mem_filter.mp hmem).2
  refine List.map_congr_left fun x hx => ?_
  by_cases hxp : x.ofParent collectionLocId parentId = true
  · have hmem : x ∈ t.filter (FileRow.ofParent collectionLocId parentId) :=
      List.mem_filter.mpr ⟨hx, hxp⟩
    rw [hr, List.mem_singleton] at hmem
    rw [if_pos hxp, hmem, FileRow.withCid, if_pos rfl]
  · have hkey : x.key ≠ r.key := by
      intro hkey
      obtain ⟨hloc, hid⟩ := ofParent_iff.mp hparent
      simp only [FileRow.key, Prod.mk.injEq] at hkey
      exact hxp (ofParent_iff.mpr ⟨hkey.1.trans hloc, hkey.2.1.trans hid⟩)
    rw [if_neg hxp, FileRow.withCid, if_neg hkey]

/-! ### One file -/

/-- What the save of a new CID comes to. -/
theorem save_setFileCid (hload : db.Loads root) (hset : root.setFileCid hash cid = .ok root') :
    ∃ file ∈ root.files, file.columns.hash = hash ∧
      db.save root' = (do
        let files ← Statement.exec FileRow.clash (.update
          (FileRow.ofParent root.collectionLocId root.parentId)
          fun _ => { file.columns with cid := some cid }) db.files
        return { db with files := files }) := by
  obtain ⟨file, hfile, hhash, hstatements⟩ := saveFiles_setFileCid hload hset
  refine ⟨file, hfile, hhash, ?_⟩
  unfold FileTables.save
  rw [hstatements, saveDelivered_setFileCid hload hset]
  simp [execAll]

/-- The rows of the item are those of the loaded files. -/
theorem FileTables.Loads.mem_rows (hload : db.Loads root) {file : StoredFile}
    (hfile : file ∈ root.files) :
    file.columns ∈ db.files.filter (FileRow.ofParent root.collectionLocId root.parentId) :=
  hload.rows.subset (List.mem_map_of_mem hfile)

/-- **A CID is stored on its file, and nothing else is touched,** exactly when the item, or the
record, has no other file. -/
theorem cidStored_iff (hdb : Consistent FileRow.clash db.files) (hload : db.Loads root)
    (hset : root.setFileCid hash cid = .ok root') :
    ∀ save ∈ [CollectionRepository.save, TokensRecordRepository.save],
      save db root' = .ok { db with
        files := db.files.map (FileRow.withCid (root.collectionLocId, root.parentId, hash) cid) } ↔
      (db.files.filter (FileRow.ofParent root.collectionLocId root.parentId)).length = 1 := by
  obtain ⟨file, hfile, rfl, hsave⟩ := save_setFileCid hload hset
  have hmem := hload.mem_rows hfile
  have hparent := (List.mem_filter.mp hmem).2
  obtain ⟨hloc, hid⟩ := ofParent_iff.mp hparent
  suffices h : db.save root' = .ok { db with
      files := db.files.map
        (FileRow.withCid (root.collectionLocId, root.parentId, file.columns.hash) cid) } ↔
      (db.files.filter (FileRow.ofParent root.collectionLocId root.parentId)).length = 1 by
    simpa [CollectionRepository.save, TokensRecordRepository.save] using h
  rw [hsave]
  constructor
  · intro h
    obtain ⟨files, hexec, -⟩ := bind_eq_ok.mp h
    have hnew : FileRow.ofParent root.collectionLocId root.parentId
        { file.columns with cid := some cid } = true := ofParent_iff.mpr ⟨hloc, hid⟩
    have hle := length_le_one_of_consistent hnew (exec_ok.mp hexec).1
    have hpos := List.length_pos_of_mem hmem
    omega
  · intro hone
    obtain ⟨r, hr⟩ := List.length_eq_one_iff.mp hone
    rw [hr, List.mem_singleton] at hmem
    have hrows := rows_update_alone cid (hmem ▸ hr)
    have hkey : (root.collectionLocId, root.parentId, file.columns.hash) = file.columns.key := by
      rw [FileRow.key, hloc, hid]
    have hexec := exec_ok.mpr ⟨hrows ▸ consistent_withCid hdb file.columns.key, rfl⟩
    rw [hexec, hrows, hkey]
    rfl

/-! ### Items of one and of two files -/

/-- A file of an item, not uploaded yet. -/
def sampleFile (hash : Hash) : FileRow where
  collectionLocId := "c38e5ab8"
  parentId := "0x1307"
  hash := hash
  name := some "picture.png"
  contentType := some "image/png"
  cid := none

def sampleItem (hashes : List Hash) : FilesRoot where
  collectionLocId := "c38e5ab8"
  parentId := "0x1307"
  files := hashes.map fun hash => { columns := sampleFile hash }

theorem sample_loads (hashes : List Hash) :
    FileTables.Loads ⟨hashes.map sampleFile, []⟩ (sampleItem hashes) where
  rows := by
    have hall : (hashes.map sampleFile).filter (FileRow.ofParent "c38e5ab8" "0x1307") =
        hashes.map sampleFile := by
      refine List.filter_eq_self.mpr fun r hr => ?_
      obtain ⟨hash, -, rfl⟩ := List.mem_map.mp hr
      exact ofParent_iff.mpr ⟨rfl, rfl⟩
    simp only [sampleItem, hall, List.map_map]
    exact List.Perm.refl _
  unmarked file hfile := by
    obtain ⟨hash, -, rfl⟩ := List.mem_map.mp hfile
    simp

/-- An item with one file. -/
theorem cidStored_iff_oneFile :
    ∃ root', (sampleItem ["0x979f"]).setFileCid "0x979f" "147852" = .ok root' ∧
      CollectionRepository.save ⟨[sampleFile "0x979f"], []⟩ root' =
        .ok ⟨[{ sampleFile "0x979f" with cid := some "147852" }], []⟩ := by
  have hset : (sampleItem ["0x979f"]).setFileCid "0x979f" "147852" = .ok _ := rfl
  have hsaves := cidStored_iff (by decide) (sample_loads ["0x979f"]) hset
  exact ⟨_, hset, (hsaves _ List.mem_cons_self).mpr rfl⟩

/-- With a second file the UPDATE gives both rows the same primary key, and the save fails. -/
theorem cid_notStored_twoFiles :
    ∃ root', (sampleItem ["0x979f", "0x38c7"]).setFileCid "0x979f" "147852" = .ok root' ∧
      FileTables.Loads ⟨[sampleFile "0x979f", sampleFile "0x38c7"], []⟩
        (sampleItem ["0x979f", "0x38c7"]) ∧
      Consistent FileRow.clash [sampleFile "0x979f", sampleFile "0x38c7"] ∧
      ∀ save ∈ [CollectionRepository.save, TokensRecordRepository.save],
        save ⟨[sampleFile "0x979f", sampleFile "0x38c7"], []⟩ root' = .error .duplicateKey :=
  ⟨_, rfl, sample_loads ["0x979f", "0x38c7"], by decide, by decide⟩

end Logion
