import Mathlib.Data.List.Range
import Mathlib.Data.List.Sort

/-!
# Indices — lists of indices without gap

A list of indices is dense when it is a permutation of `0, 1, ..., n - 1`, in any order.  Rows that
carry their position in a collection keep this invariant when a row is appended with the next index,
and when a row is removed and the rows after it move down by one (`closeGap`).

* `Dense.append`: the next index is the length of the list.
* `Dense.remove`: what is left after a removal, once the gap is closed.
* `closeGap_lt_iff`: closing the gap keeps the order of the other indices.
-/

namespace Indices

/-- The indices are exactly `0, 1, ..., n - 1`, in any order. -/
def Dense (is : List ℕ) : Prop := is.Perm (List.range is.length)

instance (is : List ℕ) : Decidable (Dense is) := inferInstanceAs (Decidable (is.Perm _))

variable {is js : List ℕ} {i j k : ℕ}

theorem dense_nil : Dense [] := List.Perm.nil

theorem Dense.perm (h : Dense is) (hp : js.Perm is) : Dense js := by
  unfold Dense at *
  rw [hp.length_eq]
  exact hp.trans h

theorem Dense.nodup (h : Dense is) : is.Nodup := h.nodup_iff.mpr List.nodup_range

theorem Dense.lt_length (h : Dense is) (hj : j ∈ is) : j < is.length :=
  List.mem_range.mp (h.mem_iff.mp hj)

/-- The next index is the length. -/
theorem Dense.append (h : Dense is) : Dense (is ++ [is.length]) := by
  unfold Dense at *
  rw [List.length_append, List.length_singleton, List.range_succ]
  exact h.append_right _

/-! ### Closing a gap -/

/-- The indices after `i` move down by one. -/
def closeGap (i j : ℕ) : ℕ := if j > i then j - 1 else j

theorem closeGap_lt_iff (hj : j ≠ i) (hk : k ≠ i) : closeGap i j < closeGap i k ↔ j < k := by
  unfold closeGap
  split_ifs <;> omega

/-- The indices before and after `i`, once the gap is closed. -/
theorem map_closeGap_erase_range {n : ℕ} (hi : i < n) :
    ((List.range n).erase i).map (closeGap i) = List.range (n - 1) := by
  obtain ⟨m, rfl⟩ : ∃ m, n = i + (1 + m) := ⟨n - i - 1, by omega⟩
  have hsplit : List.range (i + (1 + m)) = List.range i ++ i :: (List.range m).map (i + 1 + ·) := by
    rw [List.range_add, show 1 + m = m + 1 by omega, List.range_succ_eq_map]
    simp only [List.map_cons, List.map_map, Nat.add_zero]
    congr 2
    exact List.map_congr_left fun a _ => by simp only [Function.comp]; omega
  rw [hsplit, List.erase_append_right _ (by simp), List.erase_cons_head, List.map_append,
    show i + (1 + m) - 1 = i + m by omega, List.range_add, List.map_map]
  congr 1
  · rw [List.map_congr_left (g := id), List.map_id]
    intro a ha
    have := List.mem_range.mp ha
    simp only [closeGap, id]
    split_ifs <;> omega
  · refine List.map_congr_left fun a _ => ?_
    simp only [closeGap, Function.comp]
    split_ifs <;> omega

/-- **Removal.**  Without one of its indices, and once the gap is closed, a dense list is dense. -/
theorem Dense.remove (h : Dense (i :: is)) : Dense (is.map (closeGap i)) := by
  have hi : i < is.length + 1 := h.lt_length List.mem_cons_self
  have hperm : is.Perm ((List.range (is.length + 1)).erase i) := by
    have herase := List.Perm.erase i h
    rwa [List.erase_cons_head] at herase
  unfold Dense
  rw [List.length_map]
  have hclosed := hperm.map (closeGap i)
  rwa [map_closeGap_erase_range hi] at hclosed

end Indices
