import Logion.Lib.Keyed
import Logion.Lib.Table
import Mathlib.Data.List.Perm.Subperm

/-!
# Children — saving the children of an entity (`child.ts`)

A child is marked to be added, or to be updated, and the children to delete are kept apart.
`saveChildren` deletes the latter, then inserts or updates the others one by one, each statement
selecting the row of its child through a WHERE clause.

* `saveChildren`, `saveIndexedChildren`: the statements, in their order.
* `execAll_saveEach`: when every marked child has its row and no two of them clash, the statements
  leave exactly the rows of the children.
-/

namespace Logion

open Fallible Table

universe u

variable {γ ρ : Type u}

/-- What `saveChildren` knows of a kind of children: the markers, the row, the WHERE clause. -/
structure ChildParameters (γ ρ : Type u) where
  toAdd : γ → Bool
  toUpdate : γ → Bool
  row : γ → ρ
  whereExpression : γ → ρ → Bool

/-- `order`: sorted by index; the sort is stable. -/
def order (index : γ → ℕ) (children : List γ) : List γ :=
  children.mergeSort fun a b => index a ≤ index b

namespace ChildParameters

variable (p : ChildParameters γ ρ)

/-- The statement of one child: `_toAdd` is looked at first. -/
def saveChild (child : γ) : List (Statement ρ) :=
  if p.toAdd child then [.insert (p.row child)]
  else if p.toUpdate child then [.update (p.whereExpression child) fun _ => p.row child]
  else []

def saveChildren (children childrenToDelete : List γ) : List (Statement ρ) :=
  childrenToDelete.map (fun child => .delete (p.whereExpression child)) ++
    children.flatMap p.saveChild

def saveIndexedChildren (index : γ → ℕ) (children childrenToDelete : List γ) :
    List (Statement ρ) :=
  p.saveChildren (order index children) childrenToDelete

/-! ### The rows after the statements -/

variable (clash : ρ → ρ → Prop)

/-- The child selects another row than `r`, and may stand beside it. -/
def Apart (child : γ) (r : ρ) : Prop :=
  p.whereExpression child r = false ∧ ¬ clash (p.row child) r

/-- A child without row is to be added; a child with a row selects it, and is to be updated unless
the row is up to date. -/
def Matches (old : γ → Option ρ) (child : γ) : Prop :=
  match old child with
  | none => p.toAdd child = true
  | some r => p.toAdd child = false ∧ p.whereExpression child r = true ∧
      (p.toUpdate child = false → p.row child = r)

variable {p clash} [DecidableRel clash] {old : γ → Option ρ}

/-- **The statements of the children.**  `done` are the rows that stay, and those saved so far. -/
theorem execAll_saveEach (hs : ∀ r r', clash r r' → clash r' r) {children : List γ} {done t : List ρ}
    (ht : Consistent clash t) (hrows : t.Perm (done ++ children.filterMap old))
    (hold : ∀ child ∈ children, p.Matches old child)
    (hdone : ∀ child ∈ children, ∀ r ∈ done, p.Apart clash child r)
    (hapart : children.Pairwise fun child later =>
      p.Apart clash later (p.row child) ∧ ∀ r, old later = some r → p.Apart clash child r) :
    ∃ t', execAll clash (children.flatMap p.saveChild) t = .ok t' ∧
      t'.Perm (done ++ children.map p.row) := by
  induction children generalizing done t with
  | nil => exact ⟨t, rfl, by simpa using hrows⟩
  | cons child children ih =>
    obtain ⟨hchild, hapart⟩ := List.pairwise_cons.mp hapart
    -- The row of the child is saved; the rows of the next children are still the old ones.
    have hnext : ∀ t₁, Consistent clash t₁ →
        t₁.Perm (p.row child :: (done ++ children.filterMap old)) →
        ∃ t', execAll clash (children.flatMap p.saveChild) t₁ = .ok t' ∧
          t'.Perm (done ++ (child :: children).map p.row) := by
      intro t₁ ht₁ hrows₁
      have hperm : (p.row child :: (done ++ children.filterMap old)).Perm
          ((done ++ [p.row child]) ++ children.filterMap old) := by
        rw [List.append_assoc]
        exact List.perm_middle.symm
      obtain ⟨t', hexec, hfinal⟩ := ih ht₁ (hrows₁.trans hperm)
        (fun c hc => hold c (List.mem_cons_of_mem child hc)) (fun c hc r hr => by
          rcases List.mem_append.mp hr with hr | hr
          · exact hdone c (List.mem_cons_of_mem child hc) r hr
          · rw [List.mem_singleton.mp hr]
            exact (hchild c hc).1) hapart
      rw [List.append_assoc] at hfinal
      exact ⟨t', hexec, hfinal⟩
    have hfree : ∀ r ∈ done ++ children.filterMap old, p.Apart clash child r := by
      intro r hr
      rcases List.mem_append.mp hr with hr | hr
      · exact hdone child List.mem_cons_self r hr
      · obtain ⟨later, hlater, hold'⟩ := List.mem_filterMap.mp hr
        exact (hchild later hlater).2 r hold'
    have hmatches := hold child List.mem_cons_self
    unfold Matches at hmatches
    rw [List.flatMap_cons, saveChild]
    cases hrow : old child with
    | none =>
      rw [hrow] at hmatches
      rw [List.filterMap_cons_none hrow] at hrows
      have hinsert : Statement.exec clash (.insert (p.row child)) t = .ok (t ++ [p.row child]) :=
        exec_insert hs ht fun x hx => (hfree x (hrows.subset hx)).2
      rw [if_pos hmatches]
      obtain ⟨t', hexec, hfinal⟩ := hnext _ (exec_ok.mp hinsert).1
        ((List.perm_append_singleton _ _).trans (hrows.cons _))
      exact ⟨t', execAll_append (execAll_cons hinsert rfl) hexec, hfinal⟩
    | some r =>
      rw [hrow] at hmatches
      obtain ⟨htoAdd, hwhere, hsame⟩ := hmatches
      rw [List.filterMap_cons_some hrow] at hrows
      have hrows' := hrows.trans List.perm_middle
      rw [if_neg (by simp [htoAdd])]
      by_cases hupdate : p.toUpdate child = true
      · rw [if_pos hupdate]
        obtain ⟨t₁, hexec₁, hrows₁, ht₁⟩ := exec_update (fun _ => p.row child) hs ht hrows'
          hwhere (fun x hx => (hfree x hx).1) fun x hx => (hfree x hx).2
        obtain ⟨t', hexec, hfinal⟩ := hnext t₁ ht₁ hrows₁
        exact ⟨t', execAll_append (execAll_cons hexec₁ rfl) hexec, hfinal⟩
      · rw [if_neg hupdate]
        rw [← hsame (by simpa using hupdate)] at hrows'
        obtain ⟨t', hexec, hfinal⟩ := hnext t ht hrows'
        exact ⟨t', hexec, hfinal⟩

/-! ### What the markers say of the rows -/

/-- The markers account for the rows that the children were loaded from: a child that is not to be
added has its row, which it fits and which is up to date unless the child is marked; every other row
is that of a child to delete. -/
structure Tracked {κ : Type*} (p : ChildParameters γ ρ) (key : γ → κ) (rowKey : ρ → κ)
    (fits : γ → ρ → Prop) (rows : List ρ) (children childrenToDelete : List γ) : Prop where
  rowKeys : (rows.map rowKey).Nodup
  keys : (children.map key).Nodup
  stored : ∀ child ∈ children, p.toAdd child = false → ∃ r ∈ rows, rowKey r = key child ∧
    fits child r ∧ (p.toUpdate child = false → p.row child = r)
  accounted : ∀ r ∈ rows, rowKey r ∈ childrenToDelete.map key ∨
    ∃ child ∈ children, p.toAdd child = false ∧ key child = rowKey r
  notDeleted : ∀ child ∈ children, p.toAdd child = false → key child ∉ childrenToDelete.map key

section

variable {κ : Type*} {p : ChildParameters γ ρ} {key : γ → κ} {rowKey : ρ → κ} {fits : γ → ρ → Prop}
  {rows : List ρ} {children children' childrenToDelete : List γ}

/-- Just loaded: every child has its row. -/
theorem tracked_load (hrows : (children.map p.row).Perm rows) (hkeys : (rows.map rowKey).Nodup)
    (hkey : ∀ child, rowKey (p.row child) = key child)
    (hstored : ∀ child ∈ children, p.toAdd child = false ∧ fits child (p.row child)) :
    Tracked p key rowKey fits rows children [] where
  rowKeys := hkeys
  keys := by
    have hperm := (hrows.map rowKey).symm
    rw [List.map_map, show rowKey ∘ p.row = key from funext hkey] at hperm
    exact hperm.nodup_iff.mp hkeys
  stored child hmem _ := ⟨p.row child, hrows.subset (List.mem_map_of_mem hmem), hkey child,
    (hstored child hmem).2, fun _ => rfl⟩
  accounted r hr := by
    obtain ⟨child, hmem, rfl⟩ := List.mem_map.mp (hrows.symm.subset hr)
    exact .inr ⟨child, hmem, (hstored child hmem).1, (hkey child).symm⟩
  notDeleted _ _ _ := List.not_mem_nil

/-- The order of the children does not matter. -/
theorem Tracked.perm (h : Tracked p key rowKey fits rows children childrenToDelete)
    (hp : children'.Perm children) : Tracked p key rowKey fits rows children' childrenToDelete where
  rowKeys := h.rowKeys
  keys := (hp.map key).nodup_iff.mpr h.keys
  stored child hmem := h.stored child (hp.subset hmem)
  accounted r hr := (h.accounted r hr).imp_right fun ⟨child, hmem, hchild⟩ =>
    ⟨child, hp.symm.subset hmem, hchild⟩
  notDeleted child hmem := h.notDeleted child (hp.subset hmem)

/-- A new child, under a new key. -/
theorem Tracked.add (h : Tracked p key rowKey fits rows children childrenToDelete) {child : γ}
    (hadd : p.toAdd child = true) (hkey : key child ∉ children.map key) :
    Tracked p key rowKey fits rows (children ++ [child]) childrenToDelete := by
  have hold : ∀ c ∈ children ++ [child], p.toAdd c = false → c ∈ children := by
    intro c hc hstored
    rcases List.mem_append.mp hc with hc | hc
    · exact hc
    · rw [List.mem_singleton.mp hc, hadd] at hstored
      cases hstored
  refine ⟨h.rowKeys, ?_, ?_, ?_, ?_⟩
  · rw [List.map_append]
    exact h.keys.append (List.nodup_singleton _) (by simpa using hkey)
  · exact fun c hc hstored => h.stored c (hold c hc hstored) hstored
  · exact fun r hr => (h.accounted r hr).imp_right fun ⟨c, hc, hchild⟩ =>
      ⟨c, List.mem_append_left _ hc, hchild⟩
  · exact fun c hc hstored => h.notDeleted c (hold c hc hstored) hstored

/-- A child that is removed is to be deleted. -/
theorem Tracked.remove {child : γ}
    (h : Tracked p key rowKey fits rows (child :: children) childrenToDelete) :
    Tracked p key rowKey fits rows children (childrenToDelete ++ [child]) := by
  have hkeys := h.keys
  rw [List.map_cons, List.nodup_cons] at hkeys
  refine ⟨h.rowKeys, hkeys.2, ?_, ?_, ?_⟩
  · exact fun c hc => h.stored c (List.mem_cons_of_mem child hc)
  · intro r hr
    rw [List.map_append, List.mem_append]
    rcases h.accounted r hr with hdel | ⟨c, hc, hstored, hkey⟩
    · exact .inl (.inl hdel)
    · rcases List.mem_cons.mp hc with rfl | hc
      · exact .inl (.inr (by simp [hkey]))
      · exact .inr ⟨c, hc, hstored, hkey⟩
  · intro c hc hstored hdel
    rw [List.map_append, List.mem_append] at hdel
    rcases hdel with hdel | hdel
    · exact h.notDeleted c (List.mem_cons_of_mem child hc) hstored hdel
    · rw [List.map_singleton, List.mem_singleton] at hdel
      exact hkeys.1 (hdel ▸ List.mem_map_of_mem hc)

/-- Children that are rewritten are marked. -/
theorem Tracked.rewrite (h : Tracked p key rowKey fits rows children childrenToDelete)
    (hr : List.Forall₂ (fun c c' => key c' = key c ∧ p.toAdd c' = p.toAdd c ∧
      (∀ r, fits c r → fits c' r) ∧ (p.toUpdate c' = true ∨ c' = c)) children children') :
    Tracked p key rowKey fits rows children' childrenToDelete := by
  refine ⟨h.rowKeys, ?_, ?_, ?_, ?_⟩
  · rw [Keyed.forall₂_map_eq hr fun c c' hc => hc.1]
    exact h.keys
  · intro c' hc' hstored
    obtain ⟨c, hc, hkey, hadd, hfits, hmarked⟩ := Keyed.forall₂_mem_right hr hc'
    obtain ⟨r, hr, hrkey, hrfits, hrow⟩ := h.stored c hc (hadd ▸ hstored)
    refine ⟨r, hr, hrkey.trans hkey.symm, hfits r hrfits, fun hupdate => ?_⟩
    rcases hmarked with hmarked | rfl
    · rw [hmarked] at hupdate
      cases hupdate
    · exact hrow hupdate
  · intro r hrow
    refine (h.accounted r hrow).imp_right fun ⟨c, hc, hstored, hkey⟩ => ?_
    obtain ⟨c', hc', hkey', hadd, -⟩ := Keyed.forall₂_mem_left hr hc
    exact ⟨c', hc', hadd.trans hstored, hkey'.trans hkey⟩
  · intro c' hc' hstored
    obtain ⟨c, hc, hkey, hadd, -⟩ := Keyed.forall₂_mem_right hr hc'
    rw [hkey]
    exact h.notDeleted c hc (hadd ▸ hstored)

/-! ### Saving -/

/-- The WHERE clauses select by key, among the rows of the children; the rows in `others` are left
alone. -/
structure Selects {κ : Type*} (p : ChildParameters γ ρ) (key : γ → κ) (rowKey : ρ → κ)
    (fits : γ → ρ → Prop) (clash : ρ → ρ → Prop) (others rows : List ρ)
    (children childrenToDelete : List γ) : Prop where
  deletes : ∀ child ∈ childrenToDelete,
    (∀ r ∈ others, p.whereExpression child r = false) ∧
      ∀ r ∈ rows, p.whereExpression child r = true ↔ rowKey r = key child
  updates : ∀ child ∈ children, ∀ r ∈ rows,
    p.whereExpression child r = true ↔ rowKey r = key child
  apart : ∀ child ∈ children, ∀ r ∈ others, p.Apart clash child r
  /-- The children are saved in an order in which none takes the place of a row not yet saved. -/
  inOrder : children.Pairwise fun child later => p.Apart clash later (p.row child) ∧
    ∀ r ∈ rows, rowKey r = key later → fits later r → ¬ clash (p.row child) r

variable {clash : ρ → ρ → Prop} {others t : List ρ}

/-- The row that a child has, if it is not to be added. -/
def oldRow [DecidableEq κ] (p : ChildParameters γ ρ) (key : γ → κ) (rowKey : ρ → κ) (rows : List ρ)
    (child : γ) : Option ρ :=
  if p.toAdd child then none else Keyed.lookup rowKey (key child) rows

variable [DecidableEq κ]

theorem oldRow_some {child : γ} {r : ρ} (h : oldRow p key rowKey rows child = some r) :
    p.toAdd child = false ∧ r ∈ rows ∧ rowKey r = key child := by
  unfold oldRow at h
  split_ifs at h with hadd
  exact ⟨by simpa using hadd, Keyed.mem_of_lookup h, Keyed.lookup_key h⟩

theorem Tracked.oldRow_eq (h : Tracked p key rowKey fits rows children childrenToDelete) {child : γ}
    {r : ρ} (hstored : p.toAdd child = false) (hr : r ∈ rows) (hkey : rowKey r = key child) :
    oldRow p key rowKey rows child = some r := by
  rw [oldRow, if_neg (by simp [hstored]), ← hkey]
  exact Keyed.lookup_of_mem h.rowKeys hr

/-- A child that is not to be added has its row, and fits it. -/
theorem Tracked.matches_oldRow (h : Tracked p key rowKey fits rows children childrenToDelete)
    (hsel : Selects p key rowKey fits clash others rows children childrenToDelete) {child : γ}
    (hmem : child ∈ children) : p.Matches (oldRow p key rowKey rows) child := by
  unfold Matches
  by_cases hadd : p.toAdd child = true
  · rw [oldRow, if_pos hadd]
    exact hadd
  · have hstored : p.toAdd child = false := by simpa using hadd
    obtain ⟨r, hr, hkey, -, hrow⟩ := h.stored child hmem hstored
    rw [h.oldRow_eq hstored hr hkey]
    exact ⟨hstored, (hsel.updates child hmem r hr).mpr hkey, hrow⟩

/-- The rows that the deletions leave are those of the children. -/
theorem Tracked.rows_kept (h : Tracked p key rowKey fits rows children childrenToDelete) :
    (rows.filter fun r => decide (rowKey r ∉ childrenToDelete.map key)).Perm
      (children.filterMap (oldRow p key rowKey rows)) := by
  have hsub : ((children.filterMap (oldRow p key rowKey rows)).map rowKey).Sublist
      (children.map key) := by
    clear h
    induction children with
    | nil => exact List.Sublist.refl _
    | cons child children ih =>
      cases hold : oldRow p key rowKey rows child with
      | none =>
        rw [List.filterMap_cons_none hold, List.map_cons]
        exact ih.cons _
      | some r =>
        rw [List.filterMap_cons_some hold, List.map_cons, List.map_cons, (oldRow_some hold).2.2]
        exact ih.cons_cons _
  refine (List.perm_ext_iff_of_nodup (h.rowKeys.of_map.filter _) (h.keys.sublist hsub).of_map).mpr
    fun r => ?_
  rw [List.mem_filter, List.mem_filterMap, decide_eq_true_eq]
  constructor
  · rintro ⟨hr, hkept⟩
    obtain ⟨child, hmem, hstored, hkey⟩ := (h.accounted r hr).resolve_left hkept
    exact ⟨child, hmem, h.oldRow_eq hstored hr hkey.symm⟩
  · rintro ⟨child, hmem, hold⟩
    obtain ⟨hstored, hr, hkey⟩ := oldRow_some hold
    exact ⟨hr, hkey ▸ h.notDeleted child hmem hstored⟩

/-- **Saving children** leaves exactly their rows, beside those of the others. -/
theorem Tracked.execAll_saveChildren [DecidableRel clash]
    (h : Tracked p key rowKey fits rows children childrenToDelete)
    (hsel : Selects p key rowKey fits clash others rows children childrenToDelete)
    (hs : ∀ r r', clash r r' → clash r' r) (ht : Consistent clash t)
    (hrows : t.Perm (others ++ rows)) :
    ∃ t', execAll clash (p.saveChildren children childrenToDelete) t = .ok t' ∧
      t'.Perm (others ++ children.map p.row) := by
  have hdeletes : childrenToDelete.map (fun child => Statement.delete (p.whereExpression child)) =
      (childrenToDelete.map p.whereExpression).map .delete := by
    rw [List.map_map]
    rfl
  have hexec := execAll_deletes ht (childrenToDelete.map p.whereExpression)
  have hothers : others.filter (fun r => !(childrenToDelete.map p.whereExpression).any
      fun condition => condition r) = others := by
    rw [List.filter_eq_self]
    intro r hr
    simp only [List.any_map, Bool.not_eq_true', List.any_eq_false]
    exact fun child hmem => by simp [(hsel.deletes child hmem).1 r hr]
  have hkept : rows.filter (fun r => !(childrenToDelete.map p.whereExpression).any
      fun condition => condition r) =
      rows.filter fun r => decide (rowKey r ∉ childrenToDelete.map key) := by
    refine List.filter_congr fun r hr => ?_
    rw [Bool.eq_iff_iff]
    simp only [List.any_map, Bool.not_eq_true', List.any_eq_false, decide_eq_true_eq,
      List.mem_map, not_exists, not_and, Function.comp]
    exact forall₂_congr fun child hmem => by rw [(hsel.deletes child hmem).2 r hr, eq_comm]
  have hleft : (t.filter fun r => !(childrenToDelete.map p.whereExpression).any
      fun condition => condition r).Perm
      (others ++ children.filterMap (oldRow p key rowKey rows)) := by
    have hfilter := hrows.filter fun r => !(childrenToDelete.map p.whereExpression).any
      fun condition => condition r
    rw [List.filter_append, hothers, hkept] at hfilter
    exact hfilter.trans (h.rows_kept.append_left others)
  have hapart : children.Pairwise fun child later => p.Apart clash later (p.row child) ∧
      ∀ r, oldRow p key rowKey rows later = some r → p.Apart clash child r := by
    have hkeys := List.pairwise_map.mp h.keys
    refine (hsel.inOrder.and hkeys).imp_of_mem fun {child later} hmem hmem' hboth => ?_
    obtain ⟨⟨hlater, hclash⟩, hne⟩ := hboth
    refine ⟨hlater, fun r hold => ?_⟩
    obtain ⟨hstored, hr, hkey⟩ := oldRow_some hold
    obtain ⟨r', hr', hkey', hfits, -⟩ := h.stored later hmem' hstored
    rw [h.oldRow_eq hstored hr' hkey'] at hold
    cases hold
    refine ⟨?_, hclash r hr hkey hfits⟩
    rw [← Bool.not_eq_true, hsel.updates child hmem r hr, hkey]
    exact hne.symm
  obtain ⟨t', hexec', hfinal⟩ := execAll_saveEach hs (ht.filter _) hleft
    (fun child hmem => h.matches_oldRow hsel hmem) hsel.apart hapart
  refine ⟨t', ?_, hfinal⟩
  rw [saveChildren, hdeletes]
  exact execAll_append hexec hexec'

end

end ChildParameters

end Logion
