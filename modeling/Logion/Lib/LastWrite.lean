import Mathlib.Data.List.Basic

/-!
# LastWrite — a register that operations write or leave alone

`effect o` is what the operation `o` writes, if it writes; `value effect v os` is what the register
holds after `os`, when it held `v` before.

* `value_skip`: operations that write nothing.
* `value_forget`: once an operation writes, what was there before has no effect.
* `value_insert`: one more operation among the others, when no later one contradicts it.
-/

namespace LastWrite

variable {ο α : Type*} (effect : ο → Option α)

/-- What the register holds after the operations. -/
def value (v : α) (os : List ο) : α := os.foldl (fun v o => (effect o).getD v) v

variable {effect} {v v' a : α} {os os' pre post : List ο} {o : ο}

@[simp] theorem value_nil : value effect v [] = v := rfl

@[simp] theorem value_cons : value effect v (o :: os) = value effect ((effect o).getD v) os := rfl

theorem value_append : value effect v (os ++ os') = value effect (value effect v os) os' :=
  List.foldl_append

theorem value_skip (h : ∀ o ∈ os, effect o = none) : value effect v os = v := by
  induction os generalizing v with
  | nil => rfl
  | cons o os ih =>
    rw [value_cons, h o List.mem_cons_self]
    exact ih fun o' ho' => h o' (List.mem_cons_of_mem _ ho')

/-- What was there before has no effect. -/
theorem value_forget (h : ∃ o ∈ os, effect o ≠ none) : value effect v os = value effect v' os := by
  induction os generalizing v v' with
  | nil => simp at h
  | cons o os ih =>
    rw [value_cons, value_cons]
    cases ho : effect o with
    | some a => rfl
    | none =>
      obtain ⟨o', hmem, ho'⟩ := h
      rcases List.mem_cons.mp hmem with rfl | hmem
      · exact absurd ho ho'
      · exact ih ⟨o', hmem, ho'⟩

/-- Operations that write nothing can be left out. -/
theorem value_filter {p : ο → Bool} (h : ∀ o ∈ os, p o = false → effect o = none) :
    value effect v (os.filter p) = value effect v os := by
  induction os generalizing v with
  | nil => rfl
  | cons o os ih =>
    have hrest := fun w => ih (v := w) fun o' ho' => h o' (List.mem_cons_of_mem _ ho')
    cases hp : p o with
    | true => rw [List.filter_cons_of_pos hp, value_cons, value_cons, hrest]
    | false =>
      rw [List.filter_cons_of_neg (by simp [hp]), value_cons, h o List.mem_cons_self hp, hrest]
      rfl

/-- Operations that all write the same. -/
theorem value_same (h : ∀ o ∈ os, ∀ b, effect o = some b → b = a) : value effect a os = a := by
  induction os with
  | nil => rfl
  | cons o os ih =>
    have hrest := ih fun o' ho' => h o' (List.mem_cons_of_mem _ ho')
    cases ho : effect o with
    | none => rwa [value_cons, ho]
    | some b => rwa [value_cons, ho, h o List.mem_cons_self b ho]

/-- An operation that writes, which no later one contradicts. -/
theorem value_insert (ho : effect o = some a) (hpost : ∀ o' ∈ post, ∀ b, effect o' = some b → b = a) :
    value effect v (pre ++ o :: post) = a := by
  rw [value_append, value_cons, ho]
  exact value_same hpost

/-- An operation that does not write. -/
theorem value_insert_none (ho : effect o = none) :
    value effect v (pre ++ o :: post) = value effect v (pre ++ post) := by
  rw [value_append, value_append, value_cons, ho]
  rfl

end LastWrite
