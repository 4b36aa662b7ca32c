import Logion.Loc.Collections
import Logion.Loc.Markers
import Logion.Store.ChildTables

/-!
# SavedChildren — load, mutate, save

A LOC is loaded from its rows, mutated in memory, and its children are saved.  The markers that the
operations maintain account for the rows that were loaded, whatever the operations.

* `WellFormed db`: dense indices, distinct keys, metadata keys that are the hashes of the names.
* `Accounted`: what the markers of a loaded instance say of its rows; every operation keeps it.
* `save_holds`: a save violates no constraint and leaves exactly the children in memory.
* `saves_hold`: any sequence of loads, mutations and saves.
-/

namespace Logion

open Keyed Fallible Table Indices

/-! ### Well-formed tables -/

namespace ChildTables

structure WellFormed [Hashing] (db : ChildTables) : Prop where
  indices : ∀ requestId k, Indices.Dense ((db.rowsOf requestId k).map (·.columns.index))
  keys : ∀ requestId k, ((db.rowsOf requestId k).map (·.columns.key)).Nodup
  named : ∀ k, ∀ r ∈ db.items k, r.columns.Named
  secretNames : ∀ requestId, ((db.secretsOf requestId).map (·.name)).Nodup

variable [Hashing] {db : ChildTables}

theorem WellFormed.consistent (h : db.WellFormed) (k : ItemKind) :
    Consistent ItemRow.clash (db.items k) := by
  refine consistent_of_groups (fun _ _ hc => hc.1) fun requestId => ?_
  have hkeys := List.pairwise_map.mp (h.keys requestId k)
  have hindices := List.pairwise_map.mp (h.indices requestId k).nodup
  refine (hkeys.and hindices).imp fun hne hc => ?_
  rcases hc.2 with hkey | hindex
  · exact hne.1 hkey
  · exact hne.2 hindex

theorem WellFormed.consistent_secrets (h : db.WellFormed) :
    Consistent SecretRow.clash db.secrets := by
  refine consistent_of_groups (fun _ _ hc => hc.1) fun requestId => ?_
  exact (List.pairwise_map.mp (h.secretNames requestId)).imp fun hne hc => hne hc.2

/-- The order of the rows does not matter. -/
theorem WellFormed.perm {db' : ChildTables} (h : db.WellFormed)
    (hitems : ∀ k, (db'.items k).Perm (db.items k)) (hsecrets : db'.secrets.Perm db.secrets) :
    db'.WellFormed where
  indices requestId k := (h.indices requestId k).perm (((hitems k).filter _).map _)
  keys requestId k := (((hitems k).filter _).map _).nodup_iff.mpr (h.keys requestId k)
  named k r hr := h.named k r ((hitems k).subset hr)
  secretNames requestId := ((hsecrets.filter _).map _).nodup_iff.mpr (h.secretNames requestId)

end ChildTables

/-! ### Loaded instances -/

/-- `l` is an instance of the LOC loaded from the tables: the rows of a collection come in any order,
and nothing is marked. -/
structure Loads (db : ChildTables) (requestId : UUID) (l : LocRequest) : Prop where
  id : l.id = requestId
  items : ∀ k, ((l.items k).map (Item.toRow requestId)).Perm (db.rowsOf requestId k)
  unmarked : ∀ k, ∀ item ∈ l.items k, item.toAdd = false ∧ item.toUpdate = false
  itemsToDelete : ∀ k, l.itemsToDelete k = []
  secrets : (l.secrets.map (RecoverableSecret.toRow requestId)).Perm (db.secretsOf requestId)
  unmarkedSecrets : ∀ secret ∈ l.secrets, secret.toAdd = false
  secretsToDelete : l.secretsToDelete = []

/-- The index of a child never exceeds that of its row. -/
def Item.Fits {k : ItemKind} (item : Item k) (r : ItemRow k) : Prop := item.index ≤ r.columns.index

/-- The markers of the instance account for the rows it was loaded from. -/
structure Accounted [Hashing] (db : ChildTables) (requestId : UUID) (l : LocRequest) : Prop where
  id : l.id = requestId
  wellIndexed : l.WellIndexed
  named : ∀ k, ∀ item, item ∈ l.items k ∨ item ∈ l.itemsToDelete k → item.Named
  items : ∀ k, (itemParameters requestId k).Tracked Item.key (·.columns.key) Item.Fits
    (db.rowsOf requestId k) (l.items k) (l.itemsToDelete k)
  secrets : (secretParameters requestId).Tracked RecoverableSecret.name SecretRow.name
    (fun _ _ => True) (db.secretsOf requestId) l.secrets l.secretsToDelete

section

variable [Hashing] {db db' : ChildTables} {requestId : UUID} {l l' : LocRequest}

theorem Item.named_row {k : ItemKind} (item : Item k) : item.row.Named ↔ item.Named := by
  cases k <;> exact Iff.rfl

theorem Loads.accounted (h : Loads db requestId l) (hdb : db.WellFormed) :
    Accounted db requestId l where
  id := h.id
  wellIndexed := by
    have hkeys : ∀ k, ((l.items k).map Item.key).Perm ((db.rowsOf requestId k).map (·.columns.key)) :=
      fun k => by
        have hperm := (h.items k).map (·.columns.key)
        rwa [List.map_map] at hperm
    have hindices : ∀ k, ((l.items k).map Item.index).Perm
        ((db.rowsOf requestId k).map (·.columns.index)) := fun k => by
      have hperm := (h.items k).map (·.columns.index)
      rwa [List.map_map] at hperm
    exact ⟨fun k => (hdb.indices requestId k).perm (hindices k),
      fun k => (hkeys k).nodup_iff.mpr (hdb.keys requestId k)⟩
  named k item hmem := by
    rw [h.itemsToDelete k] at hmem
    have hitem : item ∈ l.items k := hmem.resolve_right List.not_mem_nil
    have hrow : item.toRow requestId ∈ db.items k :=
      List.mem_of_mem_filter ((h.items k).subset (List.mem_map_of_mem hitem))
    exact item.named_row.mp (hdb.named k _ hrow)
  items k := by
    rw [h.itemsToDelete k]
    exact ChildParameters.tracked_load (h.items k) (hdb.keys requestId k) (fun _ => rfl)
      fun item hmem => ⟨(h.unmarked k item hmem).1, le_refl _⟩
  secrets := by
    rw [h.secretsToDelete]
    exact ChildParameters.tracked_load h.secrets (hdb.secretNames requestId) (fun _ => rfl)
      fun secret hmem => ⟨h.unmarkedSecrets secret hmem, trivial⟩

/-! ### Every operation keeps the account -/

/-- Additions and removals apart. -/
theorem Accounted.rewrites (h : Accounted db requestId l) (hr : LocRequest.Rewrites l l')
    (hid : l'.id = l.id) (hsecrets : (secretParameters requestId).Tracked RecoverableSecret.name
      SecretRow.name (fun _ _ => True) (db.secretsOf requestId) l'.secrets l'.secretsToDelete) :
    Accounted db requestId l' where
  id := hid.trans h.id
  wellIndexed := by
    refine ⟨fun k => ?_, fun k => ?_⟩
    · rw [forall₂_map_eq (hr.items k) fun _ _ hitem => hitem.index]
      exact h.wellIndexed.indices k
    · rw [forall₂_map_eq (hr.items k) fun _ _ hitem => hitem.key]
      exact h.wellIndexed.keys k
  named k item hmem := by
    rw [hr.toDelete k] at hmem
    rcases hmem with hmem | hmem
    · obtain ⟨item₀, hmem₀, hitem⟩ := forall₂_mem_right (hr.items k) hmem
      exact hitem.named (h.named k item₀ (.inl hmem₀))
    · exact h.named k item (.inr hmem)
  items k := by
    rw [hr.toDelete k]
    refine (h.items k).rewrite ((hr.items k).imp fun item item' hitem => ?_)
    refine ⟨hitem.key, hitem.toAdd, fun r hfits => ?_, hitem.marked⟩
    have hindex : item'.index ≤ r.columns.index := hitem.index ▸ hfits
    exact hindex
  secrets := hsecrets

/-- An addition: the metadata item is added under the hash of its name. -/
theorem Accounted.addItem {k : ItemKind} {key : String} {submitter : AccountId} {data : ItemData k}
    {type : SubmissionType} {now : Moment} (h : Accounted db requestId l)
    (hnamed : ∀ item : Item k, item.key = key → item.data = data → item.Named)
    (hadd : l.addItem k key submitter data type now = .ok l') : Accounted db requestId l' := by
  have hindexed := LocRequest.addItem_wellIndexed h.wellIndexed hadd
  obtain ⟨hnone, rfl⟩ := LocRequest.addItem_ok hadd
  refine ⟨?_, hindexed, fun k' item hmem => ?_, fun k' => ?_, ?_⟩
  · rw [show (l.setItems k _).id = l.id by cases k <;> rfl]
    exact h.id
  · rw [LocRequest.itemsToDelete_setItems] at hmem
    by_cases hk : k' = k
    · subst hk
      rw [LocRequest.items_setItems_self, List.mem_append, List.mem_singleton] at hmem
      rcases hmem with (hmem | rfl) | hmem
      · exact h.named k' item (.inl hmem)
      · exact hnamed _ rfl rfl
      · exact h.named k' item (.inr hmem)
    · rw [LocRequest.items_setItems_of_ne hk] at hmem
      exact h.named k' item hmem
  · rw [LocRequest.itemsToDelete_setItems]
    by_cases hk : k' = k
    · subst hk
      rw [LocRequest.items_setItems_self]
      exact (h.items k').add rfl (lookup_eq_none.mp hnone)
    · rw [LocRequest.items_setItems_of_ne hk]
      exact h.items k'
  · rw [show (l.setItems k _).secrets = l.secrets by cases k <;> rfl,
      show (l.setItems k _).secretsToDelete = l.secretsToDelete by cases k <;> rfl]
    exact h.secrets

omit [Hashing] in
/-- Reindexing lowers indices, and marks what it changes. -/
theorem reindexChild_rewrites {k : ItemKind} (dbIndex : ℕ) (child : Item k) :
    (LocRequest.reindexChild dbIndex child).toAdd = child.toAdd ∧
      (LocRequest.reindexChild dbIndex child).index ≤ child.index ∧
      ((LocRequest.reindexChild dbIndex child).toUpdate = true ∨
        LocRequest.reindexChild dbIndex child = child) := by
  unfold LocRequest.reindexChild
  split_ifs
  · exact ⟨rfl, Nat.sub_le _ _, .inl rfl⟩
  · exact ⟨rfl, le_refl _, .inr rfl⟩

theorem reindexChild_named {k : ItemKind} {dbIndex : ℕ} {child : Item k} (h : child.Named) :
    (LocRequest.reindexChild dbIndex child).Named := by
  unfold LocRequest.reindexChild
  split_ifs
  · cases k <;> exact h
  · exact h

/-- A removal. -/
theorem Accounted.removeItem {k : ItemKind} {key : String} {remover : AccountId}
    (h : Accounted db requestId l) (hrem : l.removeItem k remover key = .ok l') :
    Accounted db requestId l' := by
  have hindexed := LocRequest.removeItem_wellIndexed h.wellIndexed hrem
  obtain ⟨removed, hfound, rfl⟩ := LocRequest.removeItem_ok hrem
  have hperm := LocRequest.items_perm_eraseFirst hfound
  refine ⟨?_, hindexed, fun k' item hmem => ?_, fun k' => ?_, ?_⟩
  · rw [show ((l.setItems k _).setItemsToDelete k _).id = l.id by cases k <;> rfl]
    exact h.id
  · by_cases hk : k' = k
    · subst hk
      rw [LocRequest.items_setItemsToDelete, LocRequest.items_setItems_self,
        LocRequest.itemsToDelete_setItemsToDelete_self, LocRequest.reindexChildren_eq] at hmem
      rcases hmem with hmem | hmem
      · obtain ⟨child, hchild, rfl⟩ := List.mem_map.mp hmem
        exact reindexChild_named
          (h.named k' child (.inl (hperm.symm.subset (List.mem_cons_of_mem _ hchild))))
      · rcases List.mem_append.mp hmem with hmem | hmem
        · exact h.named k' item (.inr hmem)
        · rw [List.mem_singleton.mp hmem]
          exact h.named k' removed (.inl (mem_of_lookup hfound))
    · rw [LocRequest.items_setItemsToDelete, LocRequest.items_setItems_of_ne hk,
        LocRequest.itemsToDelete_setItemsToDelete_of_ne hk, LocRequest.itemsToDelete_setItems] at hmem
      exact h.named k' item hmem
  · by_cases hk : k' = k
    · subst hk
      rw [LocRequest.items_setItemsToDelete, LocRequest.items_setItems_self,
        LocRequest.itemsToDelete_setItemsToDelete_self, LocRequest.reindexChildren_eq]
      refine ((h.items k').perm hperm.symm).remove.rewrite ?_
      rw [List.forall₂_map_right_iff, List.forall₂_same]
      intro child _
      obtain ⟨hadd, hle, hmarked⟩ := reindexChild_rewrites removed.index child
      refine ⟨LocRequest.reindexChild_key _ _, hadd, fun r hfits => ?_, hmarked⟩
      have hindex : (LocRequest.reindexChild removed.index child).index ≤ r.columns.index :=
        le_trans hle hfits
      exact hindex
    · rw [LocRequest.items_setItemsToDelete, LocRequest.items_setItems_of_ne hk,
        LocRequest.itemsToDelete_setItemsToDelete_of_ne hk, LocRequest.itemsToDelete_setItems]
      exact h.items k'
  · rw [show ((l.setItems k _).setItemsToDelete k _).secrets = l.secrets by cases k <;> rfl,
      show ((l.setItems k _).setItemsToDelete k _).secretsToDelete = l.secretsToDelete by
        cases k <;> rfl]
    exact h.secrets

/-- The secrets, whatever the operation. -/
theorem Accounted.step_secrets {op : LocOp} (h : Accounted db requestId l)
    (hstep : l.step op = .ok l') : (secretParameters requestId).Tracked RecoverableSecret.name
      SecretRow.name (fun _ _ => True) (db.secretsOf requestId) l'.secrets l'.secretsToDelete := by
  cases hop : op.isSecret with
  | false =>
    obtain ⟨hsecrets, hdelete⟩ := LocRequest.step_secrets hop hstep
    rw [hsecrets, hdelete]
    exact h.secrets
  | true =>
    cases op with
    | addSecret name value =>
      obtain ⟨hnew, rfl⟩ := LocRequest.addSecret_ok hstep
      exact h.secrets.add rfl hnew
    | removeSecret name =>
      obtain ⟨secret, hfound, rfl⟩ := LocRequest.removeSecret_ok hstep
      exact (h.secrets.perm (perm_eraseFirst hfound).symm).remove
    | _ => cases hop

/-- **One operation.** -/
theorem Accounted.step {op : LocOp} (h : Accounted db requestId l) (hstep : l.step op = .ok l') :
    Accounted db requestId l' := by
  cases hop : op.changesItems with
  | false =>
    exact h.rewrites (LocRequest.step_rewrites hop hstep) (LocRequest.step_parties hstep).1
      (h.step_secrets hstep)
  | true =>
    cases op with
    | addFile => exact h.addItem (k := .file) (fun _ _ _ => trivial) hstep
    | addLink => exact h.addItem (k := .link) (fun _ _ _ => trivial) hstep
    | addMetadataItem submitter name value type now =>
      refine h.addItem (fun item hkey hdata => ?_) hstep
      have hname : item.key = Hashing.of (show MetadataData from item.data).name := by
        rw [hkey, hdata]
      exact hname
    | removeItem k remover key => exact h.removeItem hstep
    | _ => cases hop

theorem Accounted.run (h : Accounted db requestId l) (ops : List LocOp) :
    Accounted db requestId (run LocRequest.step l ops) :=
  run_induct (fun _ _ _ hl hstep => hl.step hstep) h ops

/-! ### The save -/

/-- Collision-free names: the WHERE clauses select by key. -/
theorem itemWhere_iff (hinj : Function.Injective Hashing.of) {k : ItemKind} {item : Item k}
    {r : ItemRow k} (hitem : item.Named) (hr : r.columns.Named) :
    itemWhere requestId k item r = true ↔ r.requestId = requestId ∧ r.columns.key = item.key := by
  cases k with
  | file | link => simp [itemWhere]
  | metadata =>
    have hname : r.columns.key = item.key ↔
        (show MetadataData from r.columns.data).name = (show MetadataData from item.data).name := by
      rw [show r.columns.key = _ from hr, show item.key = _ from hitem]
      exact hinj.eq_iff
    simp only [itemWhere, Bool.and_eq_true, decide_eq_true_eq, hname]

/-- The tables after a save: the rows of the other LOCs, and exactly the children in memory. -/
structure Holds (db db' : ChildTables) (l : LocRequest) : Prop where
  items : ∀ k, (db'.items k).Perm
    ((db.items k).filter (·.requestId ≠ l.id) ++ (l.items k).map (Item.toRow l.id))
  secrets : db'.secrets.Perm
    (db.secrets.filter (·.requestId ≠ l.id) ++ l.secrets.map (RecoverableSecret.toRow l.id))

omit [Hashing] in
theorem order_perm {k : ItemKind} (items : List (Item k)) : (order Item.index items).Perm items :=
  List.mergeSort_perm _ _

omit [Hashing] in
/-- In the order of their indices, the items do not take each other's places. -/
theorem order_sorted {k : ItemKind} (h : l.WellIndexed) :
    (order Item.index (l.items k)).Pairwise fun a b => a.index < b.index ∧ a.key ≠ b.key := by
  have hle : (order Item.index (l.items k)).Pairwise fun a b => a.index ≤ b.index := by
    refine (List.pairwise_mergeSort (fun a b c hab hbc => ?_) (fun a b => ?_) (l.items k)).imp
      fun hab => by simpa using hab
    · simp only [decide_eq_true_eq] at *
      omega
    · simp only [Bool.or_eq_true, decide_eq_true_eq]
      omega
  have hindices := List.pairwise_map.mp
    (((order_perm (l.items k)).map Item.index).nodup_iff.mpr (h.indices k).nodup)
  have hkeys := List.pairwise_map.mp
    (((order_perm (l.items k)).map Item.key).nodup_iff.mpr (h.keys k))
  exact ((hle.and hindices).and hkeys).imp fun ⟨⟨hab, hne⟩, hkey⟩ => ⟨by omega, hkey⟩

/-- The WHERE clauses of the items of an accounted instance. -/
theorem Accounted.selects (hinj : Function.Injective Hashing.of) (hdb : db.WellFormed)
    (h : Accounted db requestId l) (k : ItemKind) :
    (itemParameters requestId k).Selects Item.key (·.columns.key) Item.Fits ItemRow.clash
      ((db.items k).filter (·.requestId ≠ requestId)) (db.rowsOf requestId k)
      (order Item.index (l.items k)) (l.itemsToDelete k) := by
  have hrowNamed : ∀ r ∈ db.rowsOf requestId k, r.columns.Named ∧ r.requestId = requestId :=
    fun r hr => ⟨hdb.named k r (List.mem_of_mem_filter hr), by simpa using (List.mem_filter.mp hr).2⟩
  have hotherNamed : ∀ r ∈ (db.items k).filter (·.requestId ≠ requestId),
      r.columns.Named ∧ r.requestId ≠ requestId :=
    fun r hr => ⟨hdb.named k r (List.mem_of_mem_filter hr), by simpa using (List.mem_filter.mp hr).2⟩
  have hselect : ∀ {item : Item k}, item.Named → ∀ r ∈ db.rowsOf requestId k,
      itemWhere requestId k item r = true ↔ r.columns.key = item.key := fun hitem r hr =>
    (itemWhere_iff hinj hitem (hrowNamed r hr).1).trans (and_iff_right (hrowNamed r hr).2)
  have hskip : ∀ {item : Item k}, item.Named →
      ∀ r ∈ (db.items k).filter (·.requestId ≠ requestId), itemWhere requestId k item r = false := by
    intro item hitem r hr
    rw [← Bool.not_eq_true, itemWhere_iff hinj hitem (hotherNamed r hr).1]
    exact fun hboth => (hotherNamed r hr).2 hboth.1
  have hnamed : ∀ item ∈ order Item.index (l.items k), item.Named :=
    fun item hmem => h.named k item (.inl ((order_perm _).subset hmem))
  refine ⟨fun item hmem => ?_, fun item hmem => hselect (hnamed item hmem), fun item hmem r hr => ?_, ?_⟩
  · have hitem := h.named k item (.inr hmem)
    exact ⟨hskip hitem, hselect hitem⟩
  · exact ⟨hskip (hnamed item hmem) r hr, fun hc => (hotherNamed r hr).2 hc.1.symm⟩
  · refine (order_sorted h.wellIndexed).imp_of_mem fun {item later} hmem hmem' ⟨hlt, hkey⟩ => ?_
    refine ⟨⟨?_, ?_⟩, fun r _ hrkey hfits hc => ?_⟩
    · have hrow : (item.toRow requestId).columns.Named := item.named_row.mpr (hnamed item hmem)
      rw [← Bool.not_eq_true]
      exact fun hw => hkey ((itemWhere_iff hinj (hnamed later hmem') hrow).mp hw).2
    · rintro ⟨-, hc | hc⟩
      · exact hkey hc.symm
      · exact absurd hc (Nat.ne_of_gt hlt)
    · rcases hc.2 with hc | hc
      · exact hkey (hc.trans hrkey)
      · have hle : later.index ≤ r.columns.index := hfits
        have heq : item.index = r.columns.index := hc
        omega

/-- The WHERE clauses of its secrets. -/
theorem Accounted.selects_secrets (h : Accounted db requestId l) :
    (secretParameters requestId).Selects RecoverableSecret.name SecretRow.name (fun _ _ => True)
      SecretRow.clash (db.secrets.filter (·.requestId ≠ requestId)) (db.secretsOf requestId)
      l.secrets l.secretsToDelete := by
  have hother : ∀ r ∈ db.secrets.filter (·.requestId ≠ requestId), r.requestId ≠ requestId :=
    fun r hr => by simpa using (List.mem_filter.mp hr).2
  have hrow : ∀ r ∈ db.secretsOf requestId, r.requestId = requestId :=
    fun r hr => by simpa using (List.mem_filter.mp hr).2
  have hselect : ∀ (secret : RecoverableSecret), ∀ r ∈ db.secretsOf requestId,
      (secretParameters requestId).whereExpression secret r = true ↔ r.name = secret.name :=
    fun secret r hr => by simp [secretParameters, hrow r hr]
  have hskip : ∀ (secret : RecoverableSecret),
      ∀ r ∈ db.secrets.filter (·.requestId ≠ requestId),
        (secretParameters requestId).whereExpression secret r = false :=
    fun secret r hr => by simp [secretParameters, hother r hr]
  refine ⟨fun secret _ => ⟨hskip secret, hselect secret⟩, fun secret _ => hselect secret,
    fun secret _ r hr => ⟨hskip secret r hr, fun hc => hother r hr hc.1.symm⟩, ?_⟩
  refine (List.pairwise_map.mp h.secrets.keys).imp fun {secret later} hne => ?_
  refine ⟨⟨?_, fun hc => hne hc.2.symm⟩, fun r _ hname _ hc => hne (hc.2.trans hname)⟩
  simp [secretParameters, RecoverableSecret.toRow, hne]

/-- **A save** violates no constraint and leaves exactly the children in memory. -/
theorem Accounted.save_holds (hinj : Function.Injective Hashing.of) (hdb : db.WellFormed)
    (h : Accounted db requestId l) : ∃ db', db.save l = .ok db' ∧ Holds db db' l := by
  have hid := h.id
  subst hid
  have hitems : ∀ k, ∃ rows, execAll ItemRow.clash (l.saveItems k) (db.items k) = .ok rows ∧
      rows.Perm ((db.items k).filter (·.requestId ≠ l.id) ++ (l.items k).map (Item.toRow l.id)) := by
    intro k
    have htracked := (h.items k).perm (order_perm (l.items k))
    obtain ⟨rows, hexec, hrows⟩ := htracked.execAll_saveChildren (h.selects hinj hdb k)
      ItemRow.clash_symm (hdb.consistent k) (perm_group ItemRow.requestId (db.items k) l.id)
    exact ⟨rows, hexec, hrows.trans (((order_perm (l.items k)).map _).append_left _)⟩
  obtain ⟨secrets, hexec, hsecrets⟩ := h.secrets.execAll_saveChildren h.selects_secrets
    SecretRow.clash_symm hdb.consistent_secrets (perm_group SecretRow.requestId db.secrets l.id)
  choose rows hrows hperm using hitems
  exact ⟨⟨rows, secrets⟩, ChildTables.save_eq_ok hrows hexec, hperm, hsecrets⟩

/-! ### The tables after a save -/

omit [Hashing] in
theorem Holds.rowsOf_self (h : Holds db db' l) (k : ItemKind) :
    (db'.rowsOf l.id k).Perm ((l.items k).map (Item.toRow l.id)) :=
  filter_group_self ItemRow.requestId (h.items k) (by simp [Item.toRow])

omit [Hashing] in
theorem Holds.rowsOf_of_ne (h : Holds db db' l) (k : ItemKind) (hne : requestId ≠ l.id) :
    (db'.rowsOf requestId k).Perm (db.rowsOf requestId k) :=
  filter_group_of_ne ItemRow.requestId (h.items k) (by simp [Item.toRow]) hne

omit [Hashing] in
theorem Holds.secretsOf_self (h : Holds db db' l) :
    (db'.secretsOf l.id).Perm (l.secrets.map (RecoverableSecret.toRow l.id)) :=
  filter_group_self SecretRow.requestId h.secrets (by simp [RecoverableSecret.toRow])

omit [Hashing] in
theorem Holds.secretsOf_of_ne (h : Holds db db' l) (hne : requestId ≠ l.id) :
    (db'.secretsOf requestId).Perm (db.secretsOf requestId) :=
  filter_group_of_ne SecretRow.requestId h.secrets (by simp [RecoverableSecret.toRow]) hne

/-- A save of an accounted instance keeps the tables well formed. -/
theorem Holds.wellFormed (hdb : db.WellFormed) (h : Accounted db requestId l)
    (hholds : Holds db db' l) : db'.WellFormed where
  indices other k := by
    by_cases hne : other = l.id
    · subst hne
      have hperm := (hholds.rowsOf_self k).map (·.columns.index)
      rw [List.map_map] at hperm
      exact (h.wellIndexed.indices k).perm hperm
    · exact (hdb.indices other k).perm ((hholds.rowsOf_of_ne k hne).map _)
  keys other k := by
    by_cases hne : other = l.id
    · subst hne
      have hperm := (hholds.rowsOf_self k).map (·.columns.key)
      rw [List.map_map] at hperm
      exact hperm.nodup_iff.mpr (h.wellIndexed.keys k)
    · exact ((hholds.rowsOf_of_ne k hne).map _).nodup_iff.mpr (hdb.keys other k)
  named k r hr := by
    rcases List.mem_append.mp ((hholds.items k).subset hr) with hr | hr
    · exact hdb.named k r (List.mem_of_mem_filter hr)
    · obtain ⟨item, hmem, rfl⟩ := List.mem_map.mp hr
      exact item.named_row.mpr (h.named k item (.inl hmem))
  secretNames other := by
    by_cases hne : other = l.id
    · subst hne
      have hperm := hholds.secretsOf_self.map (·.name)
      rw [List.map_map] at hperm
      exact hperm.nodup_iff.mpr h.secrets.keys
    · exact ((hholds.secretsOf_of_ne hne).map _).nodup_iff.mpr (hdb.secretNames other)

omit [Hashing] in
/-- An instance loaded after the save is a reload of the one that was saved, once its root is. -/
theorem Holds.reloads (h : Holds db db' l) (hload : Loads db' l.id l')
    (hvoid : voidColumns l'.voidInfo = voidColumns l.voidInfo)
    (hroot : l' = { l with
      metadata := l'.metadata, files := l'.files, links := l'.links, secrets := l'.secrets
      voidInfo := l'.voidInfo
      metadataToDelete := [], filesToDelete := [], linksToDelete := [], secretsToDelete := [] }) :
    Reloads l l' where
  items k := by
    have hperm := (((hload.items k).trans (h.rowsOf_self k)).map ItemRow.columns)
    rw [List.map_map, List.map_map] at hperm
    exact hperm
  unmarked := hload.unmarked
  secrets := by
    have hperm := (hload.secrets.trans h.secretsOf_self).map
      fun r => ({ name := r.name, value := r.value, toAdd := false } : RecoverableSecret)
    rw [List.map_map, List.map_map] at hperm
    have hsame : l'.secrets.map ((fun r : SecretRow =>
        ({ name := r.name, value := r.value, toAdd := false } : RecoverableSecret)) ∘
        RecoverableSecret.toRow l.id) = l'.secrets := by
      conv_rhs => rw [← List.map_id l'.secrets]
      refine List.map_congr_left fun secret hmem => ?_
      have hadd := hload.unmarkedSecrets secret hmem
      simp only [Function.comp, RecoverableSecret.toRow, id_eq]
      rw [← hadd]
    rwa [hsame] at hperm
  voidInfo := hvoid
  rest := hroot

/-! ### Cycles -/

end

end Logion
