import Logion.Lib.Transactions
import Logion.Model.Basic

/-!
# CollectionLimit — the size limit of a collection (`collection.controller.ts`)

`submitItemPublicData` loads the collection, counts its items, and then adds one in a transaction of its
own (`addCollectionItem`); `cancelItem` deletes one.  Nothing is locked between the count and the INSERT.

* `Column`: a nullable column, which is `undefined` in memory and `null` once it was reloaded.
* `System`, `step`: the items, the calls, and what a call does next.
* `limitEnforced_iff`: the limit is enforced in every state of a run, and no item is refused without
  one, exactly when no collection without a limit is counted, and no collection that has grown since
  its items were counted overflows.
-/

namespace Logion

open Fallible Table ReadCommitted

/-- A nullable column of an instance. -/
inductive Column (α : Type)
  | undefined
  | null
  | value (a : α)
  deriving DecidableEq

/-- The column as TypeORM reads it. -/
def Column.reload {α : Type} : Option α → Column α
  | none => .null
  | some a => .value a

namespace CollectionLimit

/-! ### Items -/

/-- A row of `collection_item`. -/
structure CollectionItem where
  collectionLocId : UUID
  itemId : Hash
  description : Option String
  tokenType : Option String
  tokenId : Option String
  addedOn : Option Moment
  deriving DecidableEq

/-- The primary key. -/
def CollectionItem.clash (r r' : CollectionItem) : Prop :=
  r.collectionLocId = r'.collectionLocId ∧ r.itemId = r'.itemId

instance : DecidableRel CollectionItem.clash :=
  fun r r' => inferInstanceAs (Decidable (r.collectionLocId = r'.collectionLocId ∧ r.itemId = r'.itemId))

/-- `findBy`. -/
def findBy (collectionLocId : UUID) (itemId : Hash) (rows : List CollectionItem) :
    Option CollectionItem :=
  rows.find? fun r => r.collectionLocId = collectionLocId && r.itemId = itemId

/-- `countBy`. -/
def countBy (collectionLocId : UUID) (rows : List CollectionItem) : ℕ :=
  rows.countP fun r => r.collectionLocId = collectionLocId

/-- The columns of a collection LOC; they are set when it is created. -/
structure CollectionParams where
  collectionMaxSize : Option ℕ
  collectionCanUpload : Option Bool

/-- The same columns of a loaded LOC. -/
structure LoadedCollection where
  collectionMaxSize : Column ℕ
  collectionCanUpload : Column Bool

def CollectionParams.load (c : CollectionParams) : LoadedCollection where
  collectionMaxSize := .reload c.collectionMaxSize
  collectionCanUpload := .reload c.collectionCanUpload

structure CollectionItemFileView where
  hash : Option String
  name : Option String
  contentType : Option String

structure TermsAndConditionsElementView where
  type : Option String
  details : Option String

structure TokenView where
  type : Option String
  id : Option String

/-- `CreateCollectionItemView`. -/
structure CreateCollectionItemView where
  itemId : Option Hash
  description : Option String := none
  files : Option (List CollectionItemFileView) := none
  termsAndConditions : Option (List TermsAndConditionsElementView) := none
  token : Option TokenView := none

/-- The collection accepts no files, and there are some.  `!null` is true. -/
def LoadedCollection.refusesFiles (c : LoadedCollection) (body : CreateCollectionItemView) : Bool :=
  match c.collectionCanUpload with
  | .undefined => false
  | .null => body.files.any fun files => 0 < files.length
  | .value canUpload => !canUpload && body.files.any fun files => 0 < files.length

/-- `size >= collection.collectionMaxSize`.  `null` is converted to 0. -/
def LoadedCollection.isFull (c : LoadedCollection) (size : ℕ) : Bool :=
  match c.collectionMaxSize with
  | .undefined => false
  | .null => true
  | .value maxSize => maxSize ≤ size

/-- The file passes `requireDefined`, and `CollectionItemFile.from` does not throw. -/
def CollectionItemFileView.isAccepted (file : CollectionItemFileView) : Bool :=
  file.hash.isSome && file.name.any (· ≠ "") && file.contentType.any (· ≠ "")

/-- `collectionFactory.newItem`, with the `requireDefined` of its arguments; the files and the terms are
rows of other tables. -/
def newItem (collectionLocId : UUID) (itemId : Hash) (body : CreateCollectionItemView) :
    Option CollectionItem :=
  let files := body.files.getD []
  let terms := body.termsAndConditions.getD []
  if body.description.isNone then none
  else if files.any fun file => !file.isAccepted then none
  else if terms.any fun e => e.type.isNone || e.details.isNone then none
  else if body.token.any fun token => token.type.isNone || token.id.isNone then none
  else some {
    collectionLocId := collectionLocId
    itemId := itemId
    description := body.description
    tokenType := body.token.bind TokenView.type
    tokenId := body.token.bind TokenView.id
    addedOn := none }

/-- The statement of `repository.save(item)`, after the row was read again: the columns that the new
item does not define are not written. -/
def saveItem (item : CollectionItem) : Option CollectionItem → Statement CollectionItem
  | none => .insert item
  | some _ => .update (fun r => r.collectionLocId = item.collectionLocId && r.itemId = item.itemId)
      fun r => { r with
        description := item.description, tokenType := item.tokenType, tokenId := item.tokenId }

/-- The DELETE of `collectionRepository.delete`. -/
def deleteItem (item : CollectionItem) : Statement CollectionItem :=
  .delete fun r => r.collectionLocId = item.collectionLocId && r.itemId = item.itemId

/-! ### Calls -/

/-- A call of `submitItemPublicData` or `cancelItem`; `published` is what the node answers. -/
inductive Call
  | submit (collectionLocId : UUID) (body : CreateCollectionItemView)
  | cancel (collectionLocId : UUID) (itemId : Hash) (published : Bool)

def Call.collectionLocId : Call → UUID
  | .submit id _ => id
  | .cancel id _ _ => id

/-- Where a call is; `size` is what it has counted. -/
inductive Phase
  | ready
  | noneExisting (itemId : Hash)
  | collectionLoaded (itemId : Hash) (collection : LoadedCollection)
  | built (size : Option ℕ) (item : CollectionItem)
  | adding (size : Option ℕ) (item : CollectionItem)
  | saving (size : Option ℕ) (item : CollectionItem) (reread : Option CollectionItem)
  | saved (size : Option ℕ) (inserted : Bool)
  | found (item : CollectionItem)
  | deleted
  | done
  | failed (e : Option Err)

structure System (ι : Type) where
  items : List (Version ι CollectionItem)
  phase : ι → Phase

/-- A call is resumed, or fails before its commit. -/
inductive Op (ι : Type)
  | resume (t : ι)
  | fail (t : ι)

/-- Why a call is not resumed. -/
inductive Idle
  | locked
  | ended
  deriving DecidableEq

def tooManyItems : Err := .badRequest "Collection has too many items"

variable {ι : Type} [DecidableEq ι]

/-- The call `t` is at `p`, and leaves the items so. -/
def System.moved (σ : System ι) (t : ι) (items : List (Version ι CollectionItem)) (p : Phase) :
    System ι where
  items := items
  phase := Function.update σ.phase t p

/-- The call `t` throws, and its transaction is rolled back. -/
def System.thrown (σ : System ι) (t : ι) (e : Option Err) : System ι :=
  σ.moved t (rollback t σ.items) (.failed e)

/-- A statement of `t`, once it has to wait for no other transaction. -/
def System.statement (σ : System ι) (t : ι) (s : Statement CollectionItem) (p : Phase) :
    Except Idle (System ι) :=
  if ¬ Free CollectionItem.clash t s σ.items then throw .locked
  else if ¬ Consistent CollectionItem.clash (s.rows (view t σ.items)) then return σ.thrown t none
  else return σ.moved t (exec t s σ.items) p

/-- The item is built once the checks have passed. -/
def System.build (σ : System ι) (t : ι) (size : Option ℕ) (item : Option CollectionItem) : System ι :=
  match item with
  | none => σ.thrown t none
  | some item => σ.moved t σ.items (.built size item)

variable (collections : UUID → Option CollectionParams) (calls : ι → Call)

/-- `submitItemPublicData`. -/
def System.submit (σ : System ι) (t : ι) (collectionLocId : UUID) (body : CreateCollectionItemView) :
    Except Idle (System ι) :=
  match σ.phase t with
  | .ready =>
    match body.itemId with
    | none => return σ.thrown t none
    | some itemId =>
      match findBy collectionLocId itemId (view t σ.items) with
      | some _ =>
        return σ.thrown t <|
          some (.badRequest "Cannot replace existing item, you may try to cancel it first")
      | none => return σ.moved t σ.items (.noneExisting itemId)
  | .noneExisting itemId =>
    match collections collectionLocId with
    | none => return σ.thrown t none
    | some collection =>
      if collection.load.refusesFiles body then
        return σ.thrown t (some (.badRequest "Collection does not accept item files"))
      else if collection.load.collectionMaxSize = .undefined then
        return σ.build t none (newItem collectionLocId itemId body)
      else return σ.moved t σ.items (.collectionLoaded itemId collection.load)
  | .collectionLoaded itemId collection =>
    let size := countBy collectionLocId (view t σ.items)
    if collection.isFull size then return σ.thrown t (some tooManyItems)
    else return σ.build t (some size) (newItem collectionLocId itemId body)
  -- `addCollectionItem`
  | .built size item =>
    match findBy item.collectionLocId item.itemId (view t σ.items) with
    | some _ => return σ.thrown t (some (.error "Cannot replace existing item"))
    | none => return σ.moved t σ.items (.adding size item)
  | .adding size item =>
    return σ.moved t σ.items
      (.saving size item (findBy item.collectionLocId item.itemId (view t σ.items)))
  | .saving size item reread => σ.statement t (saveItem item reread) (.saved size reread.isNone)
  | .saved _ _ => return σ.moved t (commit t σ.items) .done
  | _ => throw .ended

/-- `cancelItem`. -/
def System.cancel (σ : System ι) (t : ι) (collectionLocId : UUID) (itemId : Hash) (published : Bool) :
    Except Idle (System ι) :=
  match σ.phase t with
  | .ready =>
    if published then
      return σ.thrown t <|
        some (.badRequest "Collection Item already published, cannot be cancelled")
    else match findBy collectionLocId itemId (view t σ.items) with
    | none =>
      return σ.thrown t <|
        some (.badRequest ("Collection Item " ++ collectionLocId ++ " " ++ itemId ++ " not found"))
    | some item => return σ.moved t σ.items (.found item)
  | .found item =>
    if item.addedOn.isSome then
      return σ.thrown t (some (.error "Cannot delete already published item"))
    else σ.statement t (deleteItem item) .deleted
  | .deleted => return σ.moved t (commit t σ.items) .done
  | _ => throw .ended

/-- The call has not committed, and not ended. -/
def Phase.beforeCommit : Phase → Bool
  | .done | .failed _ => false
  | _ => true

def step (σ : System ι) : Op ι → Except Idle (System ι)
  | .resume t =>
    match calls t with
    | .submit id body => σ.submit collections t id body
    | .cancel id itemId published => σ.cancel t id itemId published
  | .fail t => if (σ.phase t).beforeCommit then return σ.thrown t none else throw .ended

/-- Items are stored, and no call has started. -/
def start (rows : List CollectionItem) : System ι where
  items := rows.map fun r => ⟨some r, none⟩
  phase _ := .ready

/-! ### The contract -/

/-- The maximum size of a collection that has one. -/
def limit (id : UUID) : Option ℕ := (collections id).bind CollectionParams.collectionMaxSize

/-- No collection has more items than its maximum. -/
def WithinLimits (rows : List CollectionItem) : Prop :=
  ∀ id, ∀ maxSize ∈ limit collections id, countBy id rows ≤ maxSize

/-- The step refuses no item for the size of its collection, unless the maximum is set and reached. -/
def RefusedFairly (σ : System ι) : Op ι → Prop
  | .resume t => ∀ σ', step collections calls σ (.resume t) = .ok σ' →
      σ'.phase t = .failed (some tooManyItems) →
      ∃ maxSize ∈ limit collections (calls t).collectionLocId,
        maxSize ≤ countBy (calls t).collectionLocId (stored σ.items)
  | .fail _ => True

/-- A submission at a phase: it counts no collection without a maximum, and when it commits an item to
a collection that has grown since it was counted, there is still room for it. -/
def UndisturbedAt (id : UUID) (items : List (Version ι CollectionItem)) (t : ι) : Phase → Prop
  | .collectionLoaded _ collection => collection.collectionMaxSize ≠ .null
  | .saved (some size) true => size < countBy id (stored items) →
      ∀ maxSize ∈ limit collections id, countBy id (view t items) ≤ maxSize
  | _ => True

instance (id : UUID) (items : List (Version ι CollectionItem)) (t : ι) :
    ∀ p, Decidable (UndisturbedAt collections id items t p)
  | .collectionLoaded _ collection =>
    inferInstanceAs (Decidable (collection.collectionMaxSize ≠ .null))
  | .saved (some size) true => inferInstanceAs (Decidable (size < countBy id (stored items) →
      ∀ maxSize ∈ limit collections id, countBy id (view t items) ≤ maxSize))
  | .saved none _ | .saved (some _) false | .ready | .noneExisting _ | .built _ _ | .adding _ _
  | .saving _ _ _ | .found _ | .deleted | .done | .failed _ => .isTrue trivial

/-- A call at its next step. -/
def UndisturbedCall (items : List (Version ι CollectionItem)) (t : ι) (p : Phase) : Call → Prop
  | .submit id _ => UndisturbedAt collections id items t p
  | .cancel _ _ _ => True

instance (items : List (Version ι CollectionItem)) (t : ι) (p : Phase) :
    ∀ call, Decidable (UndisturbedCall collections items t p call)
  | .submit id _ => inferInstanceAs (Decidable (UndisturbedAt collections id items t p))
  | .cancel _ _ _ => .isTrue trivial

/-- The step harms no limit. -/
def Undisturbed (σ : System ι) : Op ι → Prop
  | .resume t => UndisturbedCall collections σ.items t (σ.phase t) (calls t)
  | .fail _ => True

instance (σ : System ι) : ∀ o, Decidable (Undisturbed collections calls σ o)
  | .resume t =>
    inferInstanceAs (Decidable (UndisturbedCall collections σ.items t (σ.phase t) (calls t)))
  | .fail _ => .isTrue trivial

/-! ### Counting -/

section

variable {id : UUID} {rows rows' : List CollectionItem}

theorem countBy_append : countBy id (rows ++ rows') = countBy id rows + countBy id rows' :=
  List.countP_append

theorem countBy_perm (h : rows.Perm rows') : countBy id rows = countBy id rows' := h.countP_eq _

theorem countBy_delete (item : CollectionItem) :
    countBy id ((deleteItem item).rows rows) ≤ countBy id rows :=
  List.Sublist.countP_le List.filter_sublist

variable (id rows) in
/-- A save adds at most one item, to the collection of the item that it saves. -/
theorem countBy_save (item : CollectionItem) (reread : Option CollectionItem) :
    countBy id ((saveItem item reread).rows rows) ≤
      countBy id rows + if id = item.collectionLocId then (if reread.isNone then 1 else 0) else 0 := by
  cases reread with
  | none =>
    rw [saveItem, Statement.rows, countBy_append]
    by_cases h : id = item.collectionLocId
    · simp [countBy, h]
    · simp [countBy, h, Ne.symm h]
  | some r =>
    rw [saveItem, Statement.rows, countBy, List.countP_map]
    refine le_of_eq_of_le (List.countP_congr fun r' _ => ?_) (Nat.le_add_right _ _)
    simp only [Function.comp_apply]
    split_ifs <;> rfl

variable {items : List (Version ι CollectionItem)} {t u : ι}

/-- What a commit stores, the other transactions see as well. -/
theorem countBy_commit_other (hne : u ≠ t) :
    countBy id (view u (commit t items)) + countBy id (stored items) =
      countBy id (view u items) + countBy id (stored (commit t items)) := by
  have hall : Confined (fun _ => True) t items := fun _ _ _ => by simp
  obtain ⟨kept, old, new, hstored, hstored', -, -, hviews⟩ := commit_split hall
  obtain ⟨seen, hview, hview'⟩ := hviews u hne
  rw [countBy_perm hstored, countBy_perm hstored', countBy_perm hview, countBy_perm hview']
  simp only [countBy_append]
  omega

end

/-! ### The invariant -/

/-- The call has inserted an item. -/
def Phase.inserted : Phase → ℕ
  | .saved _ true => 1
  | _ => 0

/-- The items were counted, when there is a maximum, and there was room. -/
def Counted (id : UUID) (size : Option ℕ) : Prop :=
  ∀ maxSize ∈ limit collections id, ∃ n, size = some n ∧ n < maxSize

/-- What a call on the collection `id` relies on. -/
def PhaseInv (id : UUID) : Phase → Prop
  | .collectionLoaded _ collection => ∃ c, collections id = some c ∧ collection = c.load
  | .built size item | .adding size item | .saving size item _ =>
    item.collectionLocId = id ∧ Counted collections id size
  | .saved size _ => Counted collections id size
  | _ => True

structure Inv (σ : System ι) : Prop where
  phase : ∀ t, PhaseInv collections (calls t).collectionLocId (σ.phase t)
  counts : ∀ t id, countBy id (view t σ.items) ≤ countBy id (stored σ.items) +
    if id = (calls t).collectionLocId then (σ.phase t).inserted else 0

/-- What a resumed call does: `full` is the outcome of the check that it makes. -/
inductive Resumed (σ : System ι) (t : ι) (id : UUID) : System ι → Prop
  | moved {p : Phase} (hbefore : (σ.phase t).inserted = 0) (hp : PhaseInv collections id p)
      (hinserted : p.inserted = 0) (hfailed : ∀ e, p ≠ .failed e)
      (hroom : ∀ itemId c, σ.phase t = .collectionLoaded itemId c →
        c.isFull (countBy id (view t σ.items)) = false) :
      Resumed σ t id (σ.moved t σ.items p)
  | thrown {e : Option Err} (hbefore : (σ.phase t).inserted = 0)
      (hfull : e = some tooManyItems → ∃ itemId c, σ.phase t = .collectionLoaded itemId c)
      (hroom : ∀ itemId c, σ.phase t = .collectionLoaded itemId c →
        (c.isFull (countBy id (view t σ.items)) = true ↔ e = some tooManyItems)) :
      Resumed σ t id (σ.thrown t e)
  | executed {s : Statement CollectionItem} {p : Phase} (hbefore : (σ.phase t).inserted = 0)
      (hp : PhaseInv collections id p) (hfailed : ∀ e, p ≠ .failed e)
      (hloaded : ∀ itemId c, σ.phase t ≠ .collectionLoaded itemId c)
      (hfree : Free CollectionItem.clash t s σ.items)
      (hcount : ∀ id' rows, countBy id' (s.rows rows) ≤
        countBy id' rows + if id' = id then p.inserted else 0) :
      Resumed σ t id (σ.moved t (exec t s σ.items) p)
  | committed (hphase : σ.phase t = .deleted ∨ ∃ size inserted, σ.phase t = .saved size inserted) :
      Resumed σ t id (σ.moved t (commit t σ.items) .done)

section

variable {collections calls} {σ σ' : System ι} {t : ι} {id : UUID}

theorem newItem_collectionLocId {itemId : Hash} {body : CreateCollectionItemView}
    {item : CollectionItem} (h : newItem id itemId body = some item) : item.collectionLocId = id := by
  simp only [newItem] at h
  split_ifs at h
  rw [← Option.some.inj h]

/-- A call that does not count the items throws. -/
theorem resumed_thrown {e : Option Err} (hbefore : (σ.phase t).inserted = 0)
    (hloaded : ∀ itemId c, σ.phase t ≠ .collectionLoaded itemId c) (he : e ≠ some tooManyItems) :
    Resumed collections σ t id (σ.thrown t e) :=
  .thrown hbefore (fun h => absurd h he) fun itemId c hphase => absurd hphase (hloaded itemId c)

/-- A call that does not count the items goes on. -/
theorem resumed_moved {p : Phase} (hbefore : (σ.phase t).inserted = 0)
    (hloaded : ∀ itemId c, σ.phase t ≠ .collectionLoaded itemId c) (hp : PhaseInv collections id p)
    (hinserted : p.inserted = 0) (hfailed : ∀ e, p ≠ .failed e) :
    Resumed collections σ t id (σ.moved t σ.items p) :=
  .moved hbefore hp hinserted hfailed fun itemId c hphase => absurd hphase (hloaded itemId c)

/-- The checks have passed. -/
theorem resumed_build {size : Option ℕ} {itemId : Hash} {body : CreateCollectionItemView}
    (hbefore : (σ.phase t).inserted = 0) (hcounted : Counted collections id size)
    (hroom : ∀ itemId c, σ.phase t = .collectionLoaded itemId c →
      c.isFull (countBy id (view t σ.items)) = false) :
    Resumed collections σ t id (σ.build t size (newItem id itemId body)) := by
  cases hitem : newItem id itemId body with
  | none =>
    refine .thrown hbefore (fun h => by cases h) fun itemId c hphase => ?_
    rw [hroom itemId c hphase]
    exact iff_of_false (by simp) (by simp)
  | some item =>
    exact .moved hbefore ⟨newItem_collectionLocId hitem, hcounted⟩ rfl (fun e he => by cases he) hroom

/-- A statement runs, or violates the primary key. -/
theorem resumed_statement {s : Statement CollectionItem} {p : Phase}
    (hbefore : (σ.phase t).inserted = 0) (hp : PhaseInv collections id p)
    (hfailed : ∀ e, p ≠ .failed e) (hloaded : ∀ itemId c, σ.phase t ≠ .collectionLoaded itemId c)
    (hcount : ∀ id' rows, countBy id' (s.rows rows) ≤
      countBy id' rows + if id' = id then p.inserted else 0)
    (h : σ.statement t s p = .ok σ') : Resumed collections σ t id σ' := by
  unfold System.statement at h
  split_ifs at h with hfree hconsistent
  · cases h
    exact .executed hbefore hp hfailed hloaded (by simpa using hfree) hcount
  · cases h
    exact resumed_thrown hbefore hloaded (by simp)

theorem resumed_submit {body : CreateCollectionItemView}
    (hinv : PhaseInv collections id (σ.phase t)) (h : σ.submit collections t id body = .ok σ') :
    Resumed collections σ t id σ' := by
  cases hphase : σ.phase t with
  | ready =>
    have hbefore : (σ.phase t).inserted = 0 := by rw [hphase]; rfl
    have hloaded : ∀ itemId c, σ.phase t ≠ .collectionLoaded itemId c := by simp [hphase]
    cases hid : body.itemId with
    | none =>
      simp only [System.submit, hphase, hid] at h
      cases h
      exact resumed_thrown hbefore hloaded (by simp)
    | some itemId =>
      cases hfind : findBy id itemId (view t σ.items) with
      | none =>
        simp only [System.submit, hphase, hid, hfind] at h
        cases h
        exact resumed_moved hbefore hloaded trivial rfl (by simp)
      | some item =>
        simp only [System.submit, hphase, hid, hfind] at h
        cases h
        exact resumed_thrown hbefore hloaded (by simp [tooManyItems])
  | noneExisting itemId =>
    have hbefore : (σ.phase t).inserted = 0 := by rw [hphase]; rfl
    have hloaded : ∀ itemId c, σ.phase t ≠ .collectionLoaded itemId c := by simp [hphase]
    cases hc : collections id with
    | none =>
      simp only [System.submit, hphase, hc] at h
      cases h
      exact resumed_thrown hbefore hloaded (by simp)
    | some c =>
      simp only [System.submit, hphase, hc] at h
      split_ifs at h with hfiles hundefined
      · cases h
        exact resumed_thrown hbefore hloaded (by simp [tooManyItems])
      · cases hmax : c.collectionMaxSize <;>
          simp [CollectionParams.load, Column.reload, hmax] at hundefined
      · cases h
        exact resumed_moved hbefore hloaded ⟨c, hc, rfl⟩ rfl (by simp)
  | collectionLoaded itemId c =>
    have hbefore : (σ.phase t).inserted = 0 := by rw [hphase]; rfl
    rw [hphase] at hinv
    obtain ⟨params, hparams, rfl⟩ := hinv
    simp only [System.submit, hphase] at h
    split_ifs at h with hfull
    · cases h
      refine .thrown hbefore (fun _ => ⟨itemId, _, hphase⟩) fun itemId' c' hp => ?_
      cases hphase.symm.trans hp
      exact iff_of_true hfull rfl
    · cases h
      refine resumed_build hbefore (fun maxSize hmax => ⟨_, rfl, ?_⟩) fun itemId' c' hp => ?_
      · have hset : params.collectionMaxSize = some maxSize := by simpa [limit, hparams] using hmax
        simpa [LoadedCollection.isFull, CollectionParams.load, Column.reload, hset] using hfull
      · cases hphase.symm.trans hp
        simpa using hfull
  | built size item =>
    have hbefore : (σ.phase t).inserted = 0 := by rw [hphase]; rfl
    have hloaded : ∀ itemId c, σ.phase t ≠ .collectionLoaded itemId c := by simp [hphase]
    rw [hphase] at hinv
    cases hfind : findBy item.collectionLocId item.itemId (view t σ.items) with
    | none =>
      simp only [System.submit, hphase, hfind] at h
      cases h
      exact resumed_moved hbefore hloaded hinv rfl (by simp)
    | some _ =>
      simp only [System.submit, hphase, hfind] at h
      cases h
      exact resumed_thrown hbefore hloaded (by simp [tooManyItems])
  | adding size item =>
    rw [hphase] at hinv
    simp only [System.submit, hphase] at h
    cases h
    exact resumed_moved (by rw [hphase]; rfl) (by simp [hphase]) hinv rfl (by simp)
  | saving size item reread =>
    rw [hphase] at hinv
    obtain ⟨rfl, hcounted⟩ := hinv
    simp only [System.submit, hphase] at h
    refine resumed_statement (p := .saved size reread.isNone) (by rw [hphase]; rfl) hcounted
      (fun e he => by cases he) (by simp [hphase]) (fun id' rows => ?_) h
    have hsave := countBy_save id' rows item reread
    cases reread <;> exact hsave
  | saved size inserted =>
    simp only [System.submit, hphase] at h
    cases h
    exact .committed (.inr ⟨size, inserted, hphase⟩)
  | found | deleted | done | failed =>
    simp only [System.submit, hphase] at h
    cases h

theorem resumed_cancel {itemId : Hash} {published : Bool}
    (h : σ.cancel t id itemId published = .ok σ') : Resumed collections σ t id σ' := by
  cases hphase : σ.phase t with
  | ready =>
    have hbefore : (σ.phase t).inserted = 0 := by rw [hphase]; rfl
    have hloaded : ∀ itemId c, σ.phase t ≠ .collectionLoaded itemId c := by simp [hphase]
    simp only [System.cancel, hphase] at h
    split_ifs at h
    · cases h
      exact resumed_thrown hbefore hloaded (by simp [tooManyItems])
    · cases hfind : findBy id itemId (view t σ.items) with
      | none =>
        rw [hfind] at h
        cases h
        refine resumed_thrown hbefore hloaded fun he => ?_
        have htext := Err.badRequest.inj (Option.some.inj he)
        have hchar := congrArg (fun text => text.toList[11]?) htext
        simp at hchar
      | some item =>
        rw [hfind] at h
        cases h
        exact resumed_moved hbefore hloaded trivial rfl (by simp)
  | found item =>
    have hbefore : (σ.phase t).inserted = 0 := by rw [hphase]; rfl
    have hloaded : ∀ itemId c, σ.phase t ≠ .collectionLoaded itemId c := by simp [hphase]
    simp only [System.cancel, hphase] at h
    split_ifs at h
    · cases h
      exact resumed_thrown hbefore hloaded (by simp [tooManyItems])
    · exact resumed_statement (p := .deleted) hbefore trivial (fun e he => by cases he) hloaded
        (fun id' rows => Nat.le_add_right_of_le (countBy_delete item)) h
  | deleted =>
    simp only [System.cancel, hphase] at h
    cases h
    exact .committed (.inl hphase)
  | noneExisting | collectionLoaded | built | adding | saving | saved | done | failed =>
    simp only [System.cancel, hphase] at h
    cases h

/-- **Step of a call.** -/
theorem Inv.resumed (h : Inv collections calls σ) (hok : step collections calls σ (.resume t) = .ok σ') :
    Resumed collections σ t (calls t).collectionLocId σ' := by
  have hinv := h.phase t
  simp only [step] at hok
  cases hcall : calls t with
  | submit id body =>
    rw [hcall] at hok hinv
    exact resumed_submit hinv hok
  | cancel id itemId published =>
    rw [hcall] at hok
    exact resumed_cancel hok

/-- The call `t` goes to `p`, and what the others see changes as much as what is stored. -/
theorem Inv.moved (h : Inv collections calls σ) {items : List (Version ι CollectionItem)} {p : Phase}
    (hp : PhaseInv collections (calls t).collectionLocId p)
    (hself : ∀ id, countBy id (view t items) ≤ countBy id (stored items) +
      if id = (calls t).collectionLocId then p.inserted else 0)
    (hothers : ∀ u, u ≠ t → ∀ id, countBy id (view u items) + countBy id (stored σ.items) =
      countBy id (view u σ.items) + countBy id (stored items)) :
    Inv collections calls (σ.moved t items p) where
  phase u := by
    by_cases hut : u = t
    · subst hut
      simpa only [System.moved, Function.update_self] using hp
    · simpa only [System.moved, Function.update_of_ne hut] using h.phase u
  counts u id := by
    by_cases hut : u = t
    · subst hut
      simpa only [System.moved, Function.update_self] using hself id
    · have hview := h.counts u id
      have hsame := hothers u hut id
      simp only [System.moved, Function.update_of_ne hut]
      omega

theorem Inv.thrown (h : Inv collections calls σ) (t : ι) (e : Option Err) :
    Inv collections calls (σ.thrown t e) :=
  h.moved trivial
    (fun id => Nat.le_add_right_of_le (Nat.le_of_eq (countBy_perm made_rollback_self.view)))
    fun u hne id => by rw [view_rollback_other hne, stored_rollback]

theorem Inv.next (h : Inv collections calls σ)
    (hresumed : Resumed collections σ t (calls t).collectionLocId σ') : Inv collections calls σ' := by
  have hview := h.counts t
  cases hresumed with
  | @moved p hbefore hp hinserted =>
    refine h.moved hp (fun id => ?_) fun u _ id => rfl
    simpa [hinserted, hbefore] using hview id
  | thrown => exact h.thrown t _
  | @executed s p hbefore hp hfailed hloaded hfree hcount =>
    refine h.moved hp (fun id => ?_) fun u hne id => ?_
    · rw [view_exec_self, stored_exec]
      have hsame : countBy id (view t σ.items) ≤ countBy id (stored σ.items) := by
        simpa [hbefore] using hview id
      exact Nat.le_trans (hcount id _) (Nat.add_le_add_right hsame _)
    · rw [view_exec_other hne hfree, stored_exec]
  | committed =>
    exact h.moved trivial
      (fun id => Nat.le_add_right_of_le (Nat.le_of_eq (countBy_perm made_commit_self.view)))
      fun u hne id => countBy_commit_other hne

theorem inv_step {o : Op ι} (h : Inv collections calls σ)
    (hok : step collections calls σ o = .ok σ') : Inv collections calls σ' := by
  cases o with
  | resume t => exact h.next (h.resumed hok)
  | fail t =>
    simp only [step] at hok
    split_ifs at hok
    cases hok
    exact h.thrown t none

omit [DecidableEq ι] in
theorem stored_start (rows : List CollectionItem) : stored (start rows : System ι).items = rows := by
  simp [stored, start, List.filterMap_map]

theorem inv_start (rows : List CollectionItem) : Inv collections calls (start rows) where
  phase _ := trivial
  counts t id := by
    refine Nat.le_add_right_of_le (Nat.le_of_eq (countBy_perm (made_nil fun v hv => ?_).view))
    obtain ⟨r, -, rfl⟩ := List.mem_map.mp hv
    rfl

/-! ### The exact condition -/

theorem refusedFairly_iff (hok : step collections calls σ (.resume t) = .ok σ') :
    RefusedFairly collections calls σ (.resume t) ↔ (σ'.phase t = .failed (some tooManyItems) →
      ∃ maxSize ∈ limit collections (calls t).collectionLocId,
        maxSize ≤ countBy (calls t).collectionLocId (stored σ.items)) := by
  constructor
  · exact fun h => h σ' hok
  · intro h σ'' hok'
    cases hok.symm.trans hok'
    exact h

theorem isFull_of_null {c : LoadedCollection} (h : c.collectionMaxSize = .null) (size : ℕ) :
    c.isFull size = true := by
  rw [LoadedCollection.isFull, h]

/-- A step that neither counts a collection without a maximum nor commits an item. -/
theorem undisturbed_of (hbefore : (σ.phase t).inserted = 0)
    (hloaded : ∀ itemId c, σ.phase t = .collectionLoaded itemId c → c.collectionMaxSize ≠ .null) :
    Undisturbed collections calls σ (.resume t) := by
  rw [Undisturbed]
  cases calls t with
  | cancel => trivial
  | submit id body =>
    cases hphase : σ.phase t with
    | collectionLoaded itemId c => exact hloaded itemId c hphase
    | saved size inserted =>
      rw [hphase] at hbefore
      cases inserted with
      | true => cases hbefore
      | false => cases size <;> trivial
    | _ => trivial

/-- An item is refused for the size of its collection. -/
theorem Inv.refused_iff (h : Inv collections calls σ) (hok : step collections calls σ (.resume t) = .ok σ')
    {itemId : Hash} {c : LoadedCollection} (hphase : σ.phase t = .collectionLoaded itemId c)
    (hfull : c.isFull (countBy (calls t).collectionLocId (view t σ.items)) = true) :
    Undisturbed collections calls σ (.resume t) ↔
      ∃ maxSize ∈ limit collections (calls t).collectionLocId,
        maxSize ≤ countBy (calls t).collectionLocId (stored σ.items) := by
  have hinv := h.phase t
  have hcounts := h.counts t (calls t).collectionLocId
  cases hcall : calls t with
  | cancel id itemId' published =>
    simp only [step, hcall, System.cancel, hphase] at hok
    cases hok
  | submit id body =>
    rw [hcall, hphase] at hinv hcounts
    rw [hcall] at hfull
    obtain ⟨params, hparams, rfl⟩ := hinv
    have hlimit : limit collections id = params.collectionMaxSize := by
      rw [limit, show collections id = some params from hparams, Option.bind_some]
    simp only [Undisturbed, UndisturbedCall, hcall, hphase, UndisturbedAt, Call.collectionLocId, hlimit]
    cases hmax : params.collectionMaxSize with
    | none => simp [CollectionParams.load, Column.reload, hmax]
    | some maxSize =>
      have hle : maxSize ≤ countBy id (view t σ.items) := by
        simp only [LoadedCollection.isFull, CollectionParams.load, Column.reload, hmax] at hfull
        exact of_decide_eq_true hfull
      refine iff_of_true (by simp [CollectionParams.load, Column.reload, hmax]) ⟨maxSize, rfl, ?_⟩
      exact Nat.le_trans hle (by simpa [Phase.inserted, Call.collectionLocId] using hcounts)

/-- A commit. -/
theorem Inv.commit_iff (h : Inv collections calls σ)
    (hwithin : WithinLimits collections (stored σ.items))
    (hok : step collections calls σ (.resume t) = .ok σ')
    (hphase : σ.phase t = .deleted ∨ ∃ size inserted, σ.phase t = .saved size inserted) :
    Undisturbed collections calls σ (.resume t) ↔
      WithinLimits collections (view t σ.items) := by
  have hcounts := h.counts t
  have hsame : (σ.phase t).inserted = 0 → WithinLimits collections (view t σ.items) := by
    intro hzero id maxSize hmax
    have hle := hcounts id
    simp only [hzero, ite_self, Nat.add_zero] at hle
    exact Nat.le_trans hle (hwithin id maxSize hmax)
  rcases hphase with hphase | ⟨size, inserted, hphase⟩
  · exact iff_of_true (undisturbed_of (by rw [hphase]; rfl) (by simp [hphase]))
      (hsame (by rw [hphase]; rfl))
  cases inserted with
  | false =>
    exact iff_of_true (undisturbed_of (by rw [hphase]; rfl) (by simp [hphase]))
      (hsame (by rw [hphase]; rfl))
  | true =>
    have hinv := h.phase t
    cases hcall : calls t with
    | cancel id itemId published =>
      simp only [step, hcall, System.cancel, hphase] at hok
      cases hok
    | submit id body =>
      rw [hcall, hphase] at hinv
      simp only [hcall, hphase, Call.collectionLocId, Phase.inserted] at hcounts hinv
      simp only [Undisturbed, UndisturbedCall, hcall, hphase]
      constructor
      · intro hC id' maxSize hmax
        have hle := hcounts id'
        by_cases hid : id' = id
        · subst hid
          obtain ⟨n, rfl, hn⟩ := hinv maxSize hmax
          by_cases hgrown : n < countBy id' (stored σ.items)
          · exact hC hgrown maxSize hmax
          · rw [if_pos rfl] at hle
            omega
        · rw [if_neg hid] at hle
          exact Nat.le_trans hle (hwithin id' maxSize hmax)
      · intro hwithin'
        cases size with
        | none => trivial
        | some n => exact fun _ maxSize hmax => hwithin' id maxSize hmax

/-- A step that is not a commit leaves the limits as they are; one that is keeps them when there is
still room. -/
theorem Inv.resume_iff (h : Inv collections calls σ)
    (hwithin : WithinLimits collections (stored σ.items))
    (hok : step collections calls σ (.resume t) = .ok σ') :
    Undisturbed collections calls σ (.resume t) ↔
      WithinLimits collections (stored σ'.items) ∧ RefusedFairly collections calls σ (.resume t) := by
  rw [refusedFairly_iff hok]
  have hroom : ∀ c : LoadedCollection, ∀ size, c.isFull size = false → c.collectionMaxSize ≠ .null := by
    intro c size hnot hnull
    simp [isFull_of_null hnull] at hnot
  cases h.resumed hok with
  | moved hbefore _ _ hfailed hnot =>
    refine iff_of_true (undisturbed_of hbefore fun itemId c hp => hroom c _ (hnot itemId c hp))
      ⟨hwithin, fun hp => ?_⟩
    simp only [System.moved, Function.update_self] at hp
    exact absurd hp (hfailed _)
  | @thrown e hbefore hfull hiff =>
    have hstored : WithinLimits collections (stored (σ.thrown t e).items) := by
      rw [System.thrown, System.moved, stored_rollback]
      exact hwithin
    rw [and_iff_right hstored]
    simp only [System.thrown, System.moved, Function.update_self, Phase.failed.injEq]
    by_cases he : e = some tooManyItems
    · obtain ⟨itemId, c, hphase⟩ := hfull he
      rw [h.refused_iff hok hphase ((hiff itemId c hphase).mpr he)]
      exact ⟨fun hD _ => hD, fun hD => hD he⟩
    · refine iff_of_true (undisturbed_of hbefore fun itemId c hp => ?_) fun hp => absurd hp he
      exact hroom c _ (Bool.eq_false_iff.mpr fun hfull' => he ((hiff itemId c hp).mp hfull'))
  | executed hbefore _ hfailed hloaded =>
    refine iff_of_true (undisturbed_of hbefore fun itemId c hp => absurd hp (hloaded itemId c))
      ⟨?_, fun hp => ?_⟩
    · rw [System.moved, stored_exec]
      exact hwithin
    · simp only [System.moved, Function.update_self] at hp
      exact absurd hp (hfailed _)
  | committed hphase =>
    rw [h.commit_iff hwithin hok hphase, System.moved, stored_commit]
    refine (and_iff_left fun hp => ?_).symm
    simp only [Function.update_self] at hp
    cases hp

/-- A call that waits or has ended. -/
theorem undisturbed_of_error {e : Idle} (herror : step collections calls σ (.resume t) = .error e) :
    Undisturbed collections calls σ (.resume t) := by
  cases hcall : calls t with
  | cancel id itemId published => simp only [Undisturbed, UndisturbedCall, hcall]
  | submit id body =>
    refine undisturbed_of ?_ fun itemId c hphase => ?_
    · cases hphase : σ.phase t with
      | saved size inserted =>
        simp only [step, hcall, System.submit, hphase] at herror
        cases herror
      | _ => rfl
    · simp only [step, hcall, System.submit, hphase] at herror
      split_ifs at herror <;> cases herror

theorem step_iff {o : Op ι}
    (h : Inv collections calls σ ∧ WithinLimits collections (stored σ.items)) :
    Undisturbed collections calls σ o ↔
      (Inv collections calls (attempt (step collections calls) σ o) ∧
        WithinLimits collections (stored (attempt (step collections calls) σ o).items)) ∧
      RefusedFairly collections calls σ o := by
  obtain ⟨hinv, hwithin⟩ := h
  rcases attempt_cases (step collections calls) σ o with ⟨e, herror, hsame⟩ | hok
  · rw [hsame]
    cases o with
    | resume t =>
      refine iff_of_true (undisturbed_of_error herror) ⟨⟨hinv, hwithin⟩, fun σ' hok => ?_⟩
      cases herror.symm.trans hok
    | fail t => exact iff_of_true trivial ⟨⟨hinv, hwithin⟩, trivial⟩
  · have hinv' := inv_step hinv hok
    cases o with
    | resume t =>
      rw [hinv.resume_iff hwithin hok]
      exact and_congr_left fun _ => (and_iff_right hinv').symm
    | fail t =>
      refine iff_of_true trivial ⟨⟨hinv', ?_⟩, trivial⟩
      generalize attempt (step collections calls) σ (.fail t) = σ' at hok ⊢
      simp only [step] at hok
      split_ifs at hok
      cases hok
      rw [System.thrown, System.moved, stored_rollback]
      exact hwithin

end

/-- **The limit is enforced exactly**, in every state of a run, when and only when every step counts
collections with a maximum and commits items while there is room. -/
theorem limitEnforced_iff (rows : List CollectionItem) (hrows : WithinLimits collections rows)
    (ops : List (Op ι)) :
    Always (step collections calls) (fun σ => WithinLimits collections (stored σ.items)) (start rows) ops ∧
        Along (step collections calls) (RefusedFairly collections calls) (start rows) ops ↔
      Along (step collections calls) (Undisturbed collections calls) (start rows) ops := by
  have hstart : Inv collections calls (start rows) ∧
      WithinLimits collections (stored (start rows : System ι).items) :=
    ⟨inv_start rows, by rwa [stored_start]⟩
  rw [← always_along_iff (P := fun σ => Inv collections calls σ ∧
    WithinLimits collections (stored σ.items)) (fun σ o h => step_iff h) hstart]
  refine and_congr_left fun _ => ⟨fun h pre hpre => ⟨?_, h pre hpre⟩, fun h pre hpre => (h pre hpre).2⟩
  exact run_induct (fun σ o σ' hσ hok => inv_step hσ hok) hstart.1 pre

/-! ### A collection of at most one item, and one without a maximum -/

def oneItemCollection : UUID → Option CollectionParams
  | "limited" => some ⟨some 1, some false⟩
  | "unlimited" => some ⟨none, some false⟩
  | _ => none

/-- The first and the second submission are on the limited collection, the others on the other one. -/
def submissions : ℕ → Call
  | 0 => .submit "limited" { itemId := some "0x01", description := some "first" }
  | 1 => .submit "limited" { itemId := some "0x02", description := some "second" }
  | _ => .submit "unlimited" { itemId := some "0x03", description := some "third" }

/-- One submission after the other; the second one is refused. -/
def inTurn : List (Op ℕ) := List.replicate 7 (.resume 0) ++ List.replicate 3 (.resume 1)

/-- Both submissions have counted when the first one commits. -/
def atOnce : List (Op ℕ) :=
  List.replicate 3 (.resume 0) ++ List.replicate 3 (.resume 1) ++ List.replicate 4 (.resume 0) ++
    List.replicate 4 (.resume 1)

theorem limitEnforced_iff_inTurn :
    Always (step oneItemCollection submissions)
        (fun σ => WithinLimits oneItemCollection (stored σ.items)) (start []) inTurn ∧
      Along (step oneItemCollection submissions) (RefusedFairly oneItemCollection submissions)
        (start []) inTurn :=
  (limitEnforced_iff oneItemCollection submissions [] (fun _ _ _ => Nat.zero_le _) inTurn).mpr
    (by decide)

/-- Two submissions overflow the limited collection, and the other one refuses its first item. -/
theorem limit_notEnforced :
    ¬ Always (step oneItemCollection submissions)
        (fun σ => WithinLimits oneItemCollection (stored σ.items)) (start []) atOnce ∧
      ¬ Along (step oneItemCollection submissions) (RefusedFairly oneItemCollection submissions)
        (start []) (List.replicate 3 (.resume 2)) := by
  constructor
  · intro h
    have hle := h atOnce (List.prefix_refl _) "limited" 1 rfl
    exact absurd hle (by decide)
  · rintro ⟨-, -, hrefused, -⟩
    obtain ⟨maxSize, hmax, -⟩ := hrefused _ rfl rfl
    cases hmax

end CollectionLimit

end Logion
