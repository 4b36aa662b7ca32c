import Mathlib.Data.List.Infix
import Mathlib.Data.List.Basic

/-!
# Occurrences — where a marker occurs in a text

A text is a list.  `OccursAt p xs i`: the marker `p` occurs in `xs` at `i`; occurrences may overlap.
`indexOf` finds the first one.

* `occursAt_append_cons`: a separator that is not in the marker splits the occurrences.
* `Encloses header footer before after`: what comes before and after a block adds no occurrence of its
  markers, whatever is between them.
* `Encloses.of_unique`, `Encloses.header_unique`, `Encloses.footer_unique`: if the markers of one block
  occur once, so do those of any block of lines in its place.
-/

namespace Occurrences

universe u

variable {α : Type u} {p xs ys : List α} {c : α} {i j : ℕ}

/-- The marker occurs at `i`. -/
def OccursAt (p xs : List α) (i : ℕ) : Prop := p <+: xs.drop i

theorem OccursAt.length_le (h : OccursAt p xs i) (hp : p ≠ []) : i + p.length ≤ xs.length := by
  have hle := List.IsPrefix.length_le h
  have hpos := List.length_pos_iff.mpr hp
  rw [List.length_drop] at hle
  omega

theorem OccursAt.eq_zero (h : OccursAt p p i) (hp : p ≠ []) : i = 0 := by
  have hle := h.length_le hp
  omega

theorem OccursAt.isInfix (h : OccursAt p xs i) : p <:+: xs :=
  (List.IsPrefix.isInfix h).trans (List.drop_suffix i xs).isInfix

theorem isInfix_iff_occursAt : p <:+: xs ↔ ∃ i, OccursAt p xs i := by
  constructor
  · rintro ⟨before, after, rfl⟩
    refine ⟨before.length, after, ?_⟩
    rw [List.append_assoc, List.drop_left]
  · rintro ⟨i, h⟩
    exact h.isInfix

theorem occursAt_length : OccursAt p (xs ++ (p ++ ys)) xs.length := by
  rw [OccursAt, List.drop_left]
  exact List.prefix_append p ys

/-! ### In an appended text -/

/-- An occurrence that ends in the first part. -/
theorem occursAt_append_of_le (h : i + p.length ≤ xs.length) :
    OccursAt p (xs ++ ys) i ↔ OccursAt p xs i := by
  rw [OccursAt, OccursAt, List.drop_append_of_le_length (by omega)]
  constructor
  · intro hp
    refine List.prefix_of_prefix_length_le hp (List.prefix_append _ _) ?_
    rw [List.length_drop]
    omega
  · intro hp
    exact hp.trans (List.prefix_append _ _)

theorem OccursAt.append (h : OccursAt p xs i) (hp : p ≠ []) : OccursAt p (xs ++ ys) i :=
  (occursAt_append_of_le (h.length_le hp)).mpr h

theorem occursAt_append_add : OccursAt p (xs ++ ys) (xs.length + i) ↔ OccursAt p ys i := by
  rw [OccursAt, OccursAt, List.drop_append, List.drop_of_length_le (by omega), List.nil_append,
    Nat.add_sub_cancel_left]

theorem occursAt_append_cons_add :
    OccursAt p (xs ++ c :: ys) (xs.length + 1 + i) ↔ OccursAt p ys i := by
  have hsplit : xs ++ c :: ys = (xs ++ [c]) ++ ys := by simp
  have hlength : xs.length + 1 = (xs ++ [c]).length := by simp
  rw [hsplit, hlength, occursAt_append_add]

/-- A separator that is not in the marker is in none of its occurrences. -/
theorem occursAt_append_cons (hp : p ≠ []) (hc : c ∉ p) : OccursAt p (xs ++ c :: ys) i ↔
    OccursAt p xs i ∨ ∃ j, i = xs.length + 1 + j ∧ OccursAt p ys j := by
  constructor
  · intro h
    rcases Nat.lt_or_ge xs.length (i + p.length) with hlt | hle
    · rcases Nat.lt_or_ge xs.length i with hi | hi
      · -- past the separator
        obtain ⟨j, rfl⟩ := Nat.exists_eq_add_of_le hi
        exact .inr ⟨j, rfl, occursAt_append_cons_add.mp h⟩
      · -- the separator would be one of the elements of the marker
        refine absurd ?_ hc
        have hget : (xs ++ c :: ys)[xs.length]? = some c := by simp
        have hat : p[xs.length - i]? = some c := by
          obtain ⟨rest, hrest⟩ := h
          have hdrop : ((xs ++ c :: ys).drop i)[xs.length - i]? = some c := by
            rw [List.getElem?_drop, Nat.add_sub_cancel' hi, hget]
          rwa [← hrest, List.getElem?_append_left (by omega)] at hdrop
        exact List.mem_of_getElem? hat
    · exact .inl ((occursAt_append_of_le hle).mp h)
  · rintro (h | ⟨j, rfl, h⟩)
    · exact h.append hp
    · exact occursAt_append_cons_add.mpr h

theorem isInfix_append_cons (hp : p ≠ []) (hc : c ∉ p) :
    p <:+: xs ++ c :: ys ↔ p <:+: xs ∨ p <:+: ys := by
  simp only [isInfix_iff_occursAt, occursAt_append_cons hp hc]
  constructor
  · rintro ⟨i, h | ⟨j, -, h⟩⟩
    · exact .inl ⟨i, h⟩
    · exact .inr ⟨j, h⟩
  · rintro (⟨i, h⟩ | ⟨j, h⟩)
    · exact ⟨i, .inl h⟩
    · exact ⟨_, .inr ⟨j, rfl, h⟩⟩

/-- A marker in a text of lines is in one of the lines. -/
theorem isInfix_intercalate (hp : p ≠ []) (hc : c ∉ p) {lines : List (List α)}
    (h : p <:+: [c].intercalate lines) : ∃ line ∈ lines, p <:+: line := by
  induction lines with
  | nil => exact absurd (List.infix_nil.mp h) hp
  | cons line lines ih =>
    cases lines with
    | nil => exact ⟨line, List.mem_cons_self, by simpa [List.intercalate] using h⟩
    | cons next lines =>
      rw [List.intercalate_cons_cons, List.append_assoc, List.singleton_append,
        isInfix_append_cons hp hc] at h
      rcases h with h | h
      · exact ⟨line, List.mem_cons_self, h⟩
      · obtain ⟨found, hmem, hfound⟩ := ih h
        exact ⟨found, List.mem_cons_of_mem line hmem, hfound⟩

/-- No occurrence starts in a part without the first element of the marker. -/
theorem isInfix_append_of_notMem (hp : p.head? = some c) (hc : c ∉ xs) (h : p <:+: xs ++ ys) :
    p <:+: ys := by
  obtain ⟨i, h⟩ := isInfix_iff_occursAt.mp h
  rcases Nat.lt_or_ge i xs.length with hi | hi
  · refine absurd ?_ hc
    obtain ⟨rest, hrest⟩ := h
    have hget : ((xs ++ ys).drop i)[0]? = some c := by
      rw [← hrest, List.getElem?_append_left (List.length_pos_iff.mpr (by rintro rfl; cases hp)),
        ← List.head?_eq_getElem?, hp]
    rw [List.getElem?_drop, Nat.add_zero, List.getElem?_append_left hi] at hget
    exact List.mem_of_getElem? hget
  · obtain ⟨j, rfl⟩ := Nat.exists_eq_add_of_le hi
    exact (occursAt_append_add.mp h).isInfix

/-! ### A block between two markers -/

/-- Neither what comes before the block nor what comes after it makes an occurrence of a marker, other
than the header and the footer themselves. -/
structure Encloses (header footer before after : List α) : Prop where
  header_left : ∀ {i}, OccursAt header (before ++ header) i → i = before.length
  footer_left : ∀ {i}, ¬ OccursAt footer (before ++ header) i
  header_right : ∀ {i}, ¬ OccursAt header (footer ++ after) i
  footer_right : ∀ {i}, OccursAt footer (footer ++ after) i → i = 0

namespace Encloses

variable {header footer before body middle after : List α}

/-- The markers of a block occur once. -/
theorem of_unique (hheader : header ≠ []) (hfooter : footer ≠ [])
    (hh : ∀ i, OccursAt header (before ++ (header ++ body ++ footer) ++ after) i → i = before.length)
    (hf : ∀ i, OccursAt footer (before ++ (header ++ body ++ footer) ++ after) i →
      i = (before ++ header ++ body).length) : Encloses header footer before after := by
  have hleft : before ++ (header ++ body ++ footer) ++ after =
      (before ++ header) ++ (body ++ footer ++ after) := by simp
  have hright : before ++ (header ++ body ++ footer) ++ after =
      (before ++ header ++ body) ++ (footer ++ after) := by simp
  have hpos := List.length_pos_iff.mpr hheader
  constructor
  · intro i h
    exact hh i (hleft ▸ h.append hheader)
  · intro i h
    have hi := hf i (hleft ▸ h.append hfooter)
    have hle := h.length_le hfooter
    have hpos := List.length_pos_iff.mpr hfooter
    simp only [List.length_append] at hi hle
    omega
  · intro i h
    have hi := hh _ (hright ▸ occursAt_append_add.mpr h)
    simp only [List.length_append] at hi
    omega
  · intro i h
    have hi := hf _ (hright ▸ occursAt_append_add.mpr h)
    omega

/-- Lines without the markers, in place of the block: the header occurs once. -/
theorem header_unique (h : Encloses header footer before after) (hheader : header ≠ []) (hc : c ∉ header)
    (hmiddle : ¬ header <:+: middle) :
    OccursAt header (before ++ header ++ c :: (middle ++ c :: (footer ++ after))) i ↔
      i = before.length := by
  simp only [occursAt_append_cons hheader hc]
  constructor
  · rintro (hi | ⟨j, -, hi | ⟨k, -, hi⟩⟩)
    · exact h.header_left hi
    · exact absurd hi.isInfix hmiddle
    · exact absurd hi h.header_right
  · rintro rfl
    have hself : OccursAt header (before ++ (header ++ [])) before.length := occursAt_length
    rw [List.append_nil] at hself
    exact .inl hself

/-- And so does the footer. -/
theorem footer_unique (h : Encloses header footer before after) (hfooter : footer ≠ []) (hc : c ∉ footer)
    (hmiddle : ¬ footer <:+: middle) :
    OccursAt footer (before ++ header ++ c :: (middle ++ c :: (footer ++ after))) i ↔
      i = (before ++ header ++ c :: (middle ++ [c])).length := by
  simp only [occursAt_append_cons hfooter hc]
  constructor
  · rintro (hi | ⟨j, rfl, hi | ⟨k, rfl, hi⟩⟩)
    · exact absurd hi h.footer_left
    · exact absurd hi.isInfix hmiddle
    · have hk := h.footer_right hi
      simp only [List.length_append, List.length_cons, List.length_nil]
      omega
  · rintro rfl
    refine .inr ⟨middle.length + 1, ?_, .inr ⟨0, rfl, List.prefix_append _ _⟩⟩
    simp only [List.length_append, List.length_cons, List.length_nil]
    omega

/-- A text without markers before the block and another one after it, kept apart by a separator. -/
theorem separate (h : Encloses header footer [] []) (hheader : header ≠ []) (hfooter : footer ≠ [])
    (hc : c ∉ header) (hc' : c ∉ footer) (hbefore : ¬ header <:+: before ∧ ¬ footer <:+: before)
    (hafter : ¬ header <:+: after ∧ ¬ footer <:+: after) :
    Encloses header footer (before ++ [c]) (c :: after) := by
  constructor
  · intro i hi
    rw [List.append_assoc, List.singleton_append, occursAt_append_cons hheader hc] at hi
    rcases hi with hi | ⟨j, rfl, hi⟩
    · exact absurd hi.isInfix hbefore.1
    · rw [h.header_left hi]
      simp
  · intro i hi
    rw [List.append_assoc, List.singleton_append, occursAt_append_cons hfooter hc'] at hi
    rcases hi with hi | ⟨j, rfl, hi⟩
    · exact hbefore.2 hi.isInfix
    · exact h.footer_left hi
  · intro i hi
    rw [occursAt_append_cons hheader hc] at hi
    rcases hi with hi | ⟨j, rfl, hi⟩
    · exact h.header_right (hi.append hheader)
    · exact hafter.1 hi.isInfix
  · intro i hi
    rw [occursAt_append_cons hfooter hc'] at hi
    rcases hi with hi | ⟨j, rfl, hi⟩
    · exact h.footer_right (hi.append hfooter)
    · exact absurd hi.isInfix hafter.2

end Encloses

/-! ### The first occurrence -/

/-- The position of the first occurrence. -/
def indexOf [DecidableEq α] (p : List α) : List α → Option ℕ
  | [] => if p = [] then some 0 else none
  | x :: xs => if p <+: x :: xs then some 0 else (indexOf p xs).map (· + 1)

variable [DecidableEq α]

theorem indexOf_eq_some (h : OccursAt p xs i) (hfirst : ∀ j < i, ¬ OccursAt p xs j) :
    indexOf p xs = some i := by
  induction xs generalizing i with
  | nil =>
    have hp : p = [] := List.prefix_nil.mp (by simpa [OccursAt] using h)
    cases i with
    | zero => simp [indexOf, hp]
    | succ i => exact absurd (show OccursAt p [] 0 by simp [OccursAt, hp]) (hfirst 0 (by omega))
  | cons x xs ih =>
    cases i with
    | zero => exact if_pos h
    | succ i =>
      have hzero : ¬ p <+: x :: xs := hfirst 0 (by omega)
      have hrest : indexOf p xs = some i :=
        ih h fun j hj => hfirst (j + 1) (by omega)
      rw [indexOf, if_neg hzero, hrest]
      rfl

theorem indexOf_eq_none (hp : p ≠ []) (h : ¬ p <:+: xs) : indexOf p xs = none := by
  induction xs with
  | nil => exact if_neg hp
  | cons x xs ih =>
    have hzero : ¬ p <+: x :: xs := fun h' => h h'.isInfix
    rw [indexOf, if_neg hzero, ih fun h' => h (h'.trans (List.suffix_cons x xs).isInfix)]
    rfl

/-- From anywhere before the only occurrence. -/
theorem indexOf_drop_of_unique (h : ∀ j, OccursAt p xs j ↔ j = i) {k : ℕ} (hk : k ≤ i) :
    indexOf p (xs.drop k) = some (i - k) := by
  have hdrop : ∀ j, OccursAt p (xs.drop k) j ↔ k + j = i := by
    intro j
    rw [OccursAt, List.drop_drop]
    exact h (k + j)
  refine indexOf_eq_some ((hdrop _).mpr (by omega)) fun j hj hocc => ?_
  have := (hdrop j).mp hocc
  omega

end Occurrences
