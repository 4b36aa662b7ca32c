import Logion.Lib.Keyed
import Mathlib.Data.List.Range

/-!
# Compaction — sparse lists whose holes are dropped

`xs.filterMap id` is what is left of the list `xs : List (Option α)` once its holes are dropped, and
`rank xs i` the position there of the entry `i`.  A loop over what is left, which knows each entry by
its position, does for the entry `i` what `part` says.

* `rank_le`, `rank_eq_self_iff`: how far the entries move.
* `flatten_mapM_zipIdx`: the results of the loop, entry by entry.
* `mapM_zipIdx_returns`: when the loop returns.
* `one_lt_length_iff`: when more than one entry is left.
-/

namespace Compaction

open Fallible

universe u

variable {α β : Type u} {ε : Type*}

/-- The position of the entry `i` once the holes are dropped. -/
def rank (xs : List (Option α)) (i : ℕ) : ℕ := ((xs.take i).filterMap id).length

/-- What the loop does for the entry `i`. -/
def part (f : α → ℕ → Except ε (List β)) (xs : List (Option α)) (i : ℕ) : List β :=
  match xs[i]? with
  | some (some a) => (f a (rank xs i)).toOption.getD []
  | _ => []

variable {xs : List (Option α)} {f : α → ℕ → Except ε (List β)} {i k : ℕ} {a : α}

/-! ### Ranks -/

@[simp] theorem rank_zero : rank xs 0 = 0 := rfl

@[simp] theorem rank_cons_none_succ : rank (none :: xs) (i + 1) = rank xs i := rfl

@[simp] theorem rank_cons_some_succ : rank (some a :: xs) (i + 1) = rank xs i + 1 := rfl

theorem rank_le (xs : List (Option α)) (i : ℕ) : rank xs i ≤ i := by
  refine (List.length_filterMap_le _ _).trans ?_
  exact List.length_take_le i xs

/-- An entry keeps its position when there is no hole before it. -/
theorem rank_eq_self_iff (hi : i ≤ xs.length) :
    rank xs i = i ↔ ∀ j < i, ∃ b, xs[j]? = some (some b) := by
  induction xs generalizing i with
  | nil =>
    obtain rfl : i = 0 := by simpa using hi
    simp
  | cons x xs ih =>
    cases i with
    | zero => simp
    | succ i =>
      have hi' : i ≤ xs.length := by simpa using hi
      cases x with
      | none =>
        have hle := rank_le xs i
        rw [rank_cons_none_succ]
        refine iff_of_false (by omega) fun h => ?_
        obtain ⟨b, hb⟩ := h 0 (Nat.succ_pos i)
        simp at hb
      | some a =>
        rw [rank_cons_some_succ, Nat.add_right_cancel_iff, ih hi']
        constructor
        · intro h j hj
          cases j with
          | zero => exact ⟨a, rfl⟩
          | succ j => exact h j (by omega)
        · exact fun h j hj => h (j + 1) (by omega)

/-- More than one entry is left. -/
theorem one_lt_length_iff : 1 < (xs.filterMap id).length ↔
    ∃ (i j : ℕ) (a b : α), i < j ∧ xs[i]? = some (some a) ∧ xs[j]? = some (some b) := by
  induction xs with
  | nil => simp
  | cons x xs ih =>
    cases x with
    | none =>
      rw [List.filterMap_cons_none rfl, ih]
      constructor
      · rintro ⟨i, j, a, b, hij, hi, hj⟩
        exact ⟨i + 1, j + 1, a, b, by omega, hi, hj⟩
      · rintro ⟨i, j, a, b, hij, hi, hj⟩
        cases i with
        | zero => simp at hi
        | succ i =>
          cases j with
          | zero => omega
          | succ j => exact ⟨i, j, a, b, by omega, hi, hj⟩
    | some x =>
      rw [show (some x :: xs).filterMap id = x :: xs.filterMap id from rfl, List.length_cons,
        Nat.lt_add_left_iff_pos, List.length_pos_iff_exists_mem]
      constructor
      · rintro ⟨b, hb⟩
        obtain ⟨y, hy, rfl⟩ := List.mem_filterMap.mp hb
        obtain ⟨j, hj⟩ := List.mem_iff_getElem?.mp hy
        exact ⟨0, j + 1, x, b, by omega, rfl, hj⟩
      · rintro ⟨i, j, a, b, hij, -, hj⟩
        cases j with
        | zero => omega
        | succ j => exact ⟨b, List.mem_filterMap.mpr ⟨some b, List.mem_of_getElem? hj, rfl⟩⟩

/-! ### Loops over what is left -/

theorem part_of_some (h : xs[i]? = some (some a)) :
    part f xs i = (f a (rank xs i)).toOption.getD [] := by
  rw [part, h]

theorem flatten_mapM_zipIdx_from {yss : List (List β)}
    (h : ((xs.filterMap id).zipIdx k).mapM (fun p => f p.1 p.2) = .ok yss) :
    yss.flatten = (List.range xs.length).flatMap (part (fun a j => f a (k + j)) xs) := by
  induction xs generalizing k yss with
  | nil =>
    cases h
    rfl
  | cons x xs ih =>
    rw [List.length_cons, List.range_succ_eq_map, List.flatMap_cons, List.flatMap_map]
    cases x with
    | none => exact ih h
    | some a =>
      rw [show (some a :: xs).filterMap id = a :: xs.filterMap id from rfl, List.zipIdx_cons] at h
      obtain ⟨ys, yss', hys, hyss, rfl⟩ := Keyed.mapM_cons_eq_ok.mp h
      have hfirst : part (fun a j => f a (k + j)) (some a :: xs) 0 = ys := by
        rw [part_of_some rfl, rank_zero, Nat.add_zero, hys]
        rfl
      rw [List.flatten_cons, ih hyss, hfirst]
      congr 2
      funext i
      simp only [part, List.getElem?_cons_succ, rank_cons_some_succ]
      rw [Nat.add_assoc, Nat.add_comm 1]

/-- **The results of the loop,** entry by entry. -/
theorem flatten_mapM_zipIdx {yss : List (List β)}
    (h : (xs.filterMap id).zipIdx.mapM (fun p => f p.1 p.2) = .ok yss) :
    yss.flatten = (List.range xs.length).flatMap (part f xs) := by
  rw [flatten_mapM_zipIdx_from h]
  simp

/-- The loop returns when it does so for each entry, whatever its position. -/
theorem mapM_zipIdx_returns (hf : ∀ a j k, Returns (f a j) ↔ Returns (f a k)) :
    Returns ((xs.filterMap id).zipIdx.mapM fun p => f p.1 p.2) ↔
      ∀ i a, xs[i]? = some (some a) → Returns (f a (rank xs i)) := by
  rw [Keyed.mapM_returns]
  constructor
  · intro h i a hi
    have hmem : a ∈ xs.filterMap id :=
      List.mem_filterMap.mpr ⟨some a, List.mem_of_getElem? hi, rfl⟩
    obtain ⟨k, hk⟩ := List.mem_iff_getElem?.mp hmem
    have hpair : (a, k) ∈ (xs.filterMap id).zipIdx := List.mem_zipIdx_iff_getElem?.mpr hk
    exact (hf a _ _).mp (h _ hpair)
  · rintro h ⟨a, k⟩ hp
    have hmem : a ∈ xs.filterMap id := List.mem_of_getElem? (List.mem_zipIdx_iff_getElem?.mp hp)
    obtain ⟨x, hx, hxa⟩ := List.mem_filterMap.mp hmem
    obtain ⟨i, hi⟩ := List.mem_iff_getElem?.mp hx
    obtain rfl : x = some a := hxa
    exact (hf a _ _).mp (h i a hi)

end Compaction
