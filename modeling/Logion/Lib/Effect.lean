import Mathlib.Data.List.Basic
import Mathlib.Tactic.SplitIfs

/-!
# Effect — computations with a state that they keep when they throw

`Eff σ ε α` is a computation over a state `σ` that returns an `α` or throws an `ε`; in both cases it
leaves a state behind, as a sequence of updates that were already stored does.  `exec x s` runs it.

* `exec_bind_ok`, `exec_bind_error`: sequencing.
* `Completes`, `completes_bind`: computations that do not throw.
* `forEach`, `exec_forEach_append`: loops over a list, and a loop cut in two.
* `forEach_invariant`: loop invariants.
* `Keeps`: what a computation leaves as it was, built up from its parts.
* `Agree`: two computations that cannot be told apart from related states.
-/

namespace Effect

/-- Stateful computations that may throw; the state survives the exception. -/
abbrev Eff (σ ε : Type) := ExceptT ε (StateM σ)

variable {σ ε α β : Type}

def exec (x : Eff σ ε α) (s : σ) : Except ε α × σ := (ExceptT.run x) s

variable {x : Eff σ ε α} {f : α → Eff σ ε β} {s s' : σ} {a : α} {e : ε}

@[simp] theorem exec_pure (a : α) (s : σ) : exec (pure a : Eff σ ε α) s = (.ok a, s) := rfl

@[simp] theorem exec_throw (e : ε) (s : σ) : exec (throw e : Eff σ ε α) s = (.error e, s) := rfl

@[simp] theorem exec_get (s : σ) : exec (get : Eff σ ε σ) s = (.ok s, s) := rfl

@[simp] theorem exec_modify (g : σ → σ) (s : σ) :
    exec (modify g : Eff σ ε PUnit) s = (.ok ⟨⟩, g s) := rfl

@[simp] theorem exec_lift (x : Except ε α) (s : σ) : exec (liftM x : Eff σ ε α) s = (x, s) := rfl

theorem exec_bind (x : Eff σ ε α) (f : α → Eff σ ε β) (s : σ) :
    exec (x >>= f) s = match exec x s with
      | (.ok a, s') => exec (f a) s'
      | (.error e, s') => (.error e, s') := by
  have h : exec (x >>= f) s =
      (ExceptT.bindCont (m := StateM σ) f (exec x s).1) (exec x s).2 := rfl
  rw [h]
  rcases exec x s with ⟨r, s'⟩
  cases r <;> rfl

theorem exec_bind_ok (h : exec x s = (.ok a, s')) : exec (x >>= f) s = exec (f a) s' := by
  rw [exec_bind, h]

theorem exec_bind_error (h : exec x s = (.error e, s')) :
    exec (x >>= f) s = (.error e, s') := by
  rw [exec_bind, h]

/-- A sequence that returns has returned at each of its two steps. -/
theorem exec_bind_eq_ok {b : β} (h : exec (x >>= f) s = (.ok b, s')) :
    ∃ a s₁, exec x s = (.ok a, s₁) ∧ exec (f a) s₁ = (.ok b, s') := by
  rw [exec_bind] at h
  rcases hx : exec x s with ⟨r, s₁⟩
  cases r with
  | ok a => rw [hx] at h; exact ⟨a, s₁, rfl, h⟩
  | error e => rw [hx] at h; cases h

/-! ### Computations that complete -/

/-- `x` returns from `s` (it does not throw). -/
def Completes (x : Eff σ ε α) (s : σ) : Prop := ∃ a s', exec x s = (.ok a, s')

@[simp] theorem completes_pure (a : α) (s : σ) : Completes (pure a : Eff σ ε α) s := ⟨a, s, rfl⟩

theorem completes_bind :
    Completes (x >>= f) s ↔ ∃ a s', exec x s = (.ok a, s') ∧ Completes (f a) s' := by
  constructor
  · rintro ⟨b, s₂, h⟩
    obtain ⟨a, s₁, h1, h2⟩ := exec_bind_eq_ok h
    exact ⟨a, s₁, h1, b, s₂, h2⟩
  · rintro ⟨a, s₁, h1, b, s₂, h2⟩
    exact ⟨b, s₂, (exec_bind_ok h1).trans h2⟩

/-- A first step that always returns the same way can be skipped. -/
theorem completes_bind_of_ok (h : exec x s = (.ok a, s')) :
    Completes (x >>= f) s ↔ Completes (f a) s' := by
  unfold Completes
  rw [exec_bind_ok h]

/-! ### Loops -/

/-- A `for` loop over a list. -/
def forEach (g : α → Eff σ ε Unit) : List α → Eff σ ε Unit
  | [] => pure ()
  | a :: as => do
    g a
    forEach g as

@[simp] theorem exec_forEach_nil (g : α → Eff σ ε Unit) (s : σ) :
    exec (forEach g []) s = (.ok (), s) := rfl

theorem exec_forEach_cons (g : α → Eff σ ε Unit) (a : α) (as : List α) (s : σ) :
    exec (forEach g (a :: as)) s = match exec (g a) s with
      | (.ok _, s') => exec (forEach g as) s'
      | (.error e, s') => (.error e, s') := by
  rw [forEach, exec_bind]
  rcases exec (g a) s with ⟨r, s'⟩
  cases r <;> rfl

theorem exec_forEach_append (g : α → Eff σ ε Unit) (as bs : List α) (s : σ) :
    exec (forEach g (as ++ bs)) s = match exec (forEach g as) s with
      | (.ok _, s') => exec (forEach g bs) s'
      | (.error e, s') => (.error e, s') := by
  induction as generalizing s with
  | nil => rfl
  | cons a as ih =>
    rw [List.cons_append, exec_forEach_cons, exec_forEach_cons]
    rcases exec (g a) s with ⟨r, s'⟩
    cases r with
    | ok _ => exact ih s'
    | error e => rfl

theorem exec_forEach_append_ok {g : α → Eff σ ε Unit} {as bs : List α} {s₁ : σ}
    (has : exec (forEach g as) s = (.ok (), s₁)) (hbs : exec (forEach g bs) s₁ = (.ok (), s')) :
    exec (forEach g (as ++ bs)) s = (.ok (), s') := by
  rw [exec_forEach_append, has]
  exact hbs

/-- A step that changes nothing can be left out of a loop. -/
theorem exec_forEach_skip {g : α → Eff σ ε Unit} {a : α} (ha : ∀ s, exec (g a) s = (.ok (), s))
    (as bs : List α) (s : σ) :
    exec (forEach g (as ++ a :: bs)) s = exec (forEach g (as ++ bs)) s := by
  rw [exec_forEach_append, exec_forEach_append]
  rcases exec (forEach g as) s with ⟨r, s'⟩
  cases r with
  | ok _ =>
    dsimp only
    rw [exec_forEach_cons, ha]
  | error e => rfl

/-- A loop of steps that change nothing. -/
theorem exec_forEach_of_unchanged {g : α → Eff σ ε Unit} {as : List α}
    (h : ∀ a ∈ as, ∀ s, exec (g a) s = (.ok (), s)) (s : σ) :
    exec (forEach g as) s = (.ok (), s) := by
  induction as with
  | nil => rfl
  | cons a as ih =>
    rw [exec_forEach_cons, h a List.mem_cons_self]
    exact ih fun a' ha' => h a' (List.mem_cons_of_mem a ha')

theorem forEach_map (g : β → Eff σ ε Unit) (f : α → β) (as : List α) :
    forEach g (as.map f) = forEach (fun a => g (f a)) as := by
  induction as with
  | nil => rfl
  | cons a as ih => rw [List.map_cons, forEach, forEach, ih]

/-- A loop that returns has returned before, at and after each of its elements. -/
theorem forEach_ok {g : α → Eff σ ε Unit} {as bs : List α}
    (h : exec (forEach g (as ++ a :: bs)) s = (.ok (), s')) :
    ∃ s₁ s₂, exec (forEach g as) s = (.ok (), s₁) ∧ exec (g a) s₁ = (.ok (), s₂) ∧
      exec (forEach g bs) s₂ = (.ok (), s') := by
  rw [exec_forEach_append] at h
  rcases has : exec (forEach g as) s with ⟨r, s₁⟩
  rw [has] at h
  cases r with
  | error e => cases h
  | ok _ =>
    rw [forEach] at h
    obtain ⟨_, s₂, h1, h2⟩ := exec_bind_eq_ok h
    exact ⟨s₁, s₂, rfl, h1, h2⟩

/-- **Loop invariant**, of a loop that returns. -/
theorem forEach_invariant {g : α → Eff σ ε Unit} {I : σ → Prop} {as : List α}
    (hI : ∀ a ∈ as, ∀ s s', I s → exec (g a) s = (.ok (), s') → I s') (hs : I s)
    (h : exec (forEach g as) s = (.ok (), s')) : I s' := by
  induction as generalizing s with
  | nil =>
    cases h
    exact hs
  | cons a as ih =>
    obtain ⟨_, s₁, h1, h2⟩ := exec_bind_eq_ok h
    exact ih (fun a' ha' => hI a' (List.mem_cons_of_mem a ha'))
      (hI a List.mem_cons_self s s₁ hs h1) h2

/-! ### What a computation keeps -/

/-- `x` keeps the value of `R`, whether it returns or throws. -/
def Keeps {γ : Type} (R : σ → γ) (x : Eff σ ε α) : Prop := ∀ s, R (exec x s).2 = R s

section

variable {γ : Type} {R : σ → γ}

theorem Keeps.eq (h : Keeps R x) {r : Except ε α} (hx : exec x s = (r, s')) : R s' = R s := by
  have hs := h s
  rwa [hx] at hs

theorem keeps_pure (a : α) : Keeps R (pure a : Eff σ ε α) := fun _ => rfl

theorem keeps_throw (e : ε) : Keeps R (throw e : Eff σ ε α) := fun _ => rfl

theorem keeps_get : Keeps R (get : Eff σ ε σ) := fun _ => rfl

theorem Keeps.bind (hx : Keeps R x) (hf : ∀ a, Keeps R (f a)) : Keeps R (x >>= f) := by
  intro s
  rcases h : exec x s with ⟨r, s₁⟩
  cases r with
  | ok a => rw [exec_bind_ok h, hf a s₁, hx.eq h]
  | error e => rw [exec_bind_error h, hx.eq h]

theorem Keeps.ite {p : Prop} [Decidable p] {x y : Eff σ ε α} (hx : Keeps R x) (hy : Keeps R y) :
    Keeps R (if p then x else y) := by
  split_ifs
  · exact hx
  · exact hy

theorem Keeps.forEach {g : α → Eff σ ε Unit} (hg : ∀ a, Keeps R (g a)) (as : List α) :
    Keeps R (Effect.forEach g as) := by
  induction as with
  | nil => exact keeps_pure ()
  | cons a as ih => exact (hg a).bind fun _ => ih

/-- Two loops that do the same in every state with the value that the first one keeps. -/
theorem exec_forEach_congr {g g' : α → Eff σ ε Unit} {as : List α} (hg : ∀ a, Keeps R (g a))
    (h : ∀ a ∈ as, ∀ s', R s' = R s → exec (g a) s' = exec (g' a) s') :
    exec (forEach g as) s = exec (forEach g' as) s := by
  induction as generalizing s with
  | nil => rfl
  | cons a as ih =>
    rw [exec_forEach_cons, exec_forEach_cons, ← h a List.mem_cons_self s rfl]
    rcases hx : exec (g a) s with ⟨r, s₁⟩
    cases r with
    | error e => rfl
    | ok _ =>
      refine ih fun a' ha' s' hs' => h a' (List.mem_cons_of_mem a ha') s' ?_
      rw [hs', (hg a).eq hx]

end

/-! ### Two runs side by side -/

/-- From related states `x` and `y` return the same value, or throw the same exception, and leave
related states. -/
def Agree (Q : σ → σ → Prop) (x y : Eff σ ε α) : Prop :=
  ∀ s s', Q s s' → (exec x s).1 = (exec y s').1 ∧ Q (exec x s).2 (exec y s').2

section

variable {Q : σ → σ → Prop} {y : Eff σ ε α} {g : α → Eff σ ε β}

theorem agree_pure (a : α) : Agree Q (pure a : Eff σ ε α) (pure a) := fun _ _ h => ⟨rfl, h⟩

theorem agree_throw (e : ε) : Agree Q (throw e : Eff σ ε α) (throw e) := fun _ _ h => ⟨rfl, h⟩

theorem Agree.bind (hx : Agree Q x y) (hf : ∀ a, Agree Q (f a) (g a)) :
    Agree Q (x >>= f) (y >>= g) := by
  intro s s' hQ
  obtain ⟨h1, h2⟩ := hx s s' hQ
  rcases hxs : exec x s with ⟨r, s₁⟩
  rcases hys : exec y s' with ⟨r', s₁'⟩
  rw [hxs, hys] at h1 h2
  dsimp only at h1 h2
  subst h1
  cases r with
  | ok a =>
    rw [exec_bind_ok hxs, exec_bind_ok hys]
    exact hf a s₁ s₁' h2
  | error e =>
    rw [exec_bind_error hxs, exec_bind_error hys]
    exact ⟨rfl, h2⟩

theorem Agree.forEach {g g' : α → Eff σ ε Unit} (hg : ∀ a, Agree Q (g a) (g' a)) (as : List α) :
    Agree Q (Effect.forEach g as) (Effect.forEach g' as) := by
  induction as with
  | nil => exact agree_pure ()
  | cons a as ih => exact (hg a).bind fun _ => ih

end

end Effect
