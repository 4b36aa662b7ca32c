import Mathlib.Data.List.Basic
import Mathlib.Data.Nat.Notation

/-!
# Joining — lists joined by a separator

Lists that contain the separator cannot be told apart once they are joined: joining keeps the pieces
between the separators, and no more.  `pieces x ls` are these pieces, and `cuts x ls` says how often
the separator occurs in each of the lists.

* `join_eq_iff`: two joined lists are the same when their pieces are.
* `eq_iff_pieces_cuts`: the pieces and the cuts give the lists back.
* `join_binds_iff`: when joined lists, with the same end, determine the lists.
-/

namespace Joining

variable {α : Type*} [DecidableEq α] (x : α)

def join (ls : List (List α)) : List α := [x].intercalate ls

/-- What the separators leave of the lists. -/
def pieces (ls : List (List α)) : List (List α) := ls.flatMap (List.splitOn x)

/-- The number of separators in each list. -/
def cuts (ls : List (List α)) : List ℕ := ls.map (List.count x)

variable {x} {ls ls' : List (List α)}

theorem splitOn_join (hls : ls ≠ []) : (join x ls).splitOn x = pieces x ls := by
  unfold join pieces
  induction ls with
  | nil => exact absurd rfl hls
  | cons l ls ih =>
    cases ls with
    | nil => simp
    | cons l' ls =>
      rw [List.intercalate_cons_cons, List.append_assoc, List.singleton_append,
        List.splitOn_append_cons_self, ih (List.cons_ne_nil l' ls)]
      rfl

theorem join_eq_iff (hls : ls ≠ []) (hls' : ls' ≠ []) :
    join x ls = join x ls' ↔ pieces x ls = pieces x ls' := by
  rw [← splitOn_join hls, ← splitOn_join hls']
  constructor
  · exact congrArg (List.splitOn x)
  · intro h
    calc join x ls
        = [x].intercalate ((join x ls).splitOn x) := (List.intercalate_splitOn x).symm
      _ = [x].intercalate ((join x ls').splitOn x) := by rw [h]
      _ = join x ls' := List.intercalate_splitOn x

theorem length_splitOn (l : List α) : (l.splitOn x).length = l.count x + 1 := by
  induction l with
  | nil => simp
  | cons y l ih =>
    rw [List.splitOn_cons_eq_if_modifyHead, List.count_cons]
    split_ifs
    · rw [List.length_cons, ih]
    · rw [List.length_modifyHead, ih]

theorem splitOn_injective : Function.Injective (List.splitOn x) := by
  intro l l' h
  calc l
      = [x].intercalate (l.splitOn x) := (List.intercalate_splitOn x).symm
    _ = [x].intercalate (l'.splitOn x) := by rw [h]
    _ = l' := List.intercalate_splitOn x

/-- **The pieces and the cuts give the lists back.** -/
theorem eq_iff_pieces_cuts : ls = ls' ↔ pieces x ls = pieces x ls' ∧ cuts x ls = cuts x ls' := by
  constructor
  · rintro rfl
    exact ⟨rfl, rfl⟩
  · rintro ⟨hpieces, hcuts⟩
    have hlengths : (ls.map (List.splitOn x)).map List.length =
        (ls'.map (List.splitOn x)).map List.length := by
      have hcount : ∀ ms : List (List α), (ms.map (List.splitOn x)).map List.length =
          (cuts x ms).map (· + 1) := by
        intro ms
        rw [cuts, List.map_map, List.map_map]
        exact List.map_congr_left fun l _ => length_splitOn l
      rw [hcount, hcount, hcuts]
    have hsplit : ls.map (List.splitOn x) = ls'.map (List.splitOn x) :=
      List.eq_iff_flatten_eq.mpr ⟨hpieces, hlengths⟩
    exact List.map_injective_iff.mpr splitOn_injective hsplit

/-- **What joined lists with the same end determine**: the lists, exactly when those of the same pieces
are cut in the same way. -/
theorem join_binds_iff (l : List α) :
    (join x (ls ++ [l]) = join x (ls' ++ [l]) → ls = ls') ↔
      (pieces x ls = pieces x ls' → cuts x ls = cuts x ls') := by
  have hpieces : join x (ls ++ [l]) = join x (ls' ++ [l]) ↔ pieces x ls = pieces x ls' := by
    rw [join_eq_iff (by simp) (by simp)]
    simp [pieces]
  rw [hpieces]
  refine forall_congr' fun h => ?_
  rw [eq_iff_pieces_cuts (x := x), and_iff_right h]

end Joining
