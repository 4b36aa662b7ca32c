import Mathlib.Data.List.Basic
import Mathlib.Data.Nat.Notation

/-!
# Sorting — the stable sort by a key

* `filter_mergeSort`: sorting, then filtering, is filtering, then sorting.  With equal keys this needs
  the stability of the sort.
-/

namespace Sorting

universe u

variable {α : Type u} {p q : α → Bool} {xs ys us vs : List α}

/-- A list is cut in two where `q` stops in one way only. -/
theorem append_cut (h : xs ++ ys = us ++ vs) (hxs : ∀ a ∈ xs, q a = true) (hys : ∀ a ∈ ys, q a = false)
    (hus : ∀ a ∈ us, q a = true) (hvs : ∀ a ∈ vs, q a = false) : xs = us ∧ ys = vs := by
  have hfilter := congrArg (List.filter q) h
  rw [List.filter_append, List.filter_append, List.filter_eq_self.mpr hxs,
    List.filter_eq_self.mpr hus, List.filter_eq_nil_iff.mpr fun a ha => by simp [hys a ha],
    List.filter_eq_nil_iff.mpr fun a ha => by simp [hvs a ha], List.append_nil,
    List.append_nil] at hfilter
  subst hfilter
  exact ⟨rfl, List.append_cancel_left h⟩

/-- The place of the first element in the sorted list: after those that are smaller, before the
others. -/
theorem mergeSort_cons_cut (key : α → ℕ) (a : α) (xs : List α) :
    ∃ before after, (a :: xs).mergeSort (fun a b => key a ≤ key b) = before ++ a :: after ∧
      xs.mergeSort (fun a b => key a ≤ key b) = before ++ after ∧
      (∀ b ∈ before, key b < key a) ∧ ∀ b ∈ after, key a ≤ key b := by
  have htrans : ∀ a b c, decide (key a ≤ key b) = true → decide (key b ≤ key c) = true →
      decide (key a ≤ key c) = true := by
    simp only [decide_eq_true_eq]
    omega
  have htotal : ∀ a b, (decide (key a ≤ key b) || decide (key b ≤ key a)) = true := by
    simp only [Bool.or_eq_true, decide_eq_true_eq]
    omega
  obtain ⟨before, after, hcons, hrest, hbefore⟩ := List.mergeSort_cons htrans htotal a xs
  refine ⟨before, after, hcons, hrest, fun b hb => by simpa using hbefore b hb, fun b hb => ?_⟩
  have hsorted := List.pairwise_mergeSort htrans htotal (a :: xs)
  rw [hcons] at hsorted
  exact of_decide_eq_true (List.rel_of_pairwise_cons (List.pairwise_append.mp hsorted).2.1 hb)

/-- **A stable sort commutes with a filter.** -/
theorem filter_mergeSort (key : α → ℕ) (p : α → Bool) (xs : List α) :
    (xs.mergeSort fun a b => key a ≤ key b).filter p =
      (xs.filter p).mergeSort fun a b => key a ≤ key b := by
  induction xs with
  | nil => simp
  | cons a xs ih =>
    obtain ⟨before, after, hcons, hrest, hbefore, hafter⟩ := mergeSort_cons_cut key a xs
    rw [hrest, List.filter_append] at ih
    rw [hcons, List.filter_append, List.filter_cons, List.filter_cons]
    cases ha : p a with
    | false => simpa using ih
    | true =>
      obtain ⟨before', after', hcons', hrest', hbefore', hafter'⟩ :=
        mergeSort_cons_cut key a (xs.filter p)
      rw [hrest'] at ih
      obtain ⟨hb, hc⟩ := append_cut (q := fun b => key b < key a) ih
        (fun b hb => decide_eq_true (hbefore b (List.mem_of_mem_filter hb)))
        (fun b hb => decide_eq_false (Nat.not_lt.mpr (hafter b (List.mem_of_mem_filter hb))))
        (fun b hb => decide_eq_true (hbefore' b hb))
        (fun b hb => decide_eq_false (Nat.not_lt.mpr (hafter' b hb)))
      rw [if_pos rfl, if_pos rfl, hcons', hb, hc]

end Sorting
