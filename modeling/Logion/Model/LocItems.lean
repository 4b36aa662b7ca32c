import Logion.Lib.Keyed
import Logion.Model.Lifecycle

/-!
# LocItems — files, metadata items and links of a LOC (`loc_items.ts`, `child.ts`)

`LocFile`, `LocMetadataItem` and `LocLink` are the same record up to their own columns: a key (the
file hash, the name hash, the link target), a database index, a submitter, a lifecycle and the two
markers `_toAdd` and `_toUpdate` of `Child`.  `Item k` is that record, with the columns of the kind
`k` in `data`.  Every way of creating an item sets its lifecycle and submitter, which are therefore
not optional here.
-/

namespace Logion

open Keyed

/-- The three collections of a LOC, in the order in which the bulk operations visit them. -/
inductive ItemKind
  | metadata
  | file
  | link
  deriving DecidableEq, Repr

/-- A file copy delivered to an owner (`LocFileDelivered`). -/
structure LocFileDelivered where
  deliveredFileHash : Hash
  generatedOn : Moment
  owner : String
  toAdd : Bool
  deriving DecidableEq, Repr

/-- `EmbeddableStorageFees`. -/
structure StorageFees where
  inclusionFee : ℕ
  storageFee : Option ℕ
  deriving DecidableEq, Repr

structure FileData where
  name : String
  cid : Option String
  contentType : Option String
  nature : String
  size : ℕ
  restrictedDelivery : Bool
  fees : Option StorageFees := none
  storageFeePaidBy : Option String := none
  delivered : List LocFileDelivered := []
  oid : Option ℕ := none
  deriving DecidableEq, Repr

structure MetadataData where
  name : String
  value : String
  inclusionFee : Option ℕ := none
  deriving DecidableEq, Repr

structure LinkData where
  nature : String
  inclusionFee : Option ℕ := none
  deriving DecidableEq, Repr

/-- The columns of each kind of item. -/
def ItemData : ItemKind → Type
  | .metadata => MetadataData
  | .file => FileData
  | .link => LinkData

instance : (k : ItemKind) → DecidableEq (ItemData k)
  | .metadata => inferInstanceAs (DecidableEq MetadataData)
  | .file => inferInstanceAs (DecidableEq FileData)
  | .link => inferInstanceAs (DecidableEq LinkData)

structure Item (k : ItemKind) where
  key : String
  index : ℕ
  submitter : AccountId
  lifecycle : EmbeddableLifecycle
  data : ItemData k
  toAdd : Bool := false
  toUpdate : Bool := false
  deriving DecidableEq

abbrev LocMetadataItem := Item .metadata
abbrev LocFile := Item .file
abbrev LocLink := Item .link

/-- The status getter of an item. -/
abbrev Item.status {k : ItemKind} (item : Item k) : ItemStatus := item.lifecycle.status

/-- The first item of a collection with the given key. -/
abbrev findItem {k : ItemKind} (key : String) (items : List (Item k)) : Option (Item k) :=
  lookup Item.key key items

/-- The items a chain call refers to (`LocItems`). -/
structure LocItems where
  metadataNameHashes : List Hash
  fileHashes : List Hash
  linkTargets : List UUID
  deriving DecidableEq, Repr

/-- `EMPTY_ITEMS`. -/
def emptyItems : LocItems := ⟨[], [], []⟩

/-- The keys of one kind. -/
def LocItems.keys (items : LocItems) : ItemKind → List String
  | .metadata => items.metadataNameHashes
  | .file => items.fileHashes
  | .link => items.linkTargets

/-! ### Children with an index -/

/-- `mutateAllItems`: the transition of every item the filter selects. -/
def mutateAllItems {k : ItemKind} (mutator : Item k → Except Err EmbeddableLifecycle)
    (items : List (Item k)) (filter : Item k → Bool) : Except Err (List (Item k)) :=
  items.mapM fun item =>
    if filter item then do
      let lifecycle ← mutator item
      return { item with lifecycle := lifecycle, toUpdate := true }
    else return item

/-- `reindexChildren`: close the gap left at `dbIndex`. -/
def reindexChildren {k : ItemKind} (dbIndex : ℕ) (children : List (Item k)) : List (Item k) :=
  children.map fun child =>
    if child.index > dbIndex then { child with index := child.index - 1, toUpdate := true }
    else child

/-- `deleteIndexedChild` on the first child with the given key: the remaining children and the
children to delete. -/
def deleteIndexedChild {k : ItemKind} (child : Item k) (children childrenToDelete : List (Item k)) :
    List (Item k) × List (Item k) :=
  (reindexChildren child.index (eraseFirst Item.key child.key children), childrenToDelete ++ [child])

end Logion
