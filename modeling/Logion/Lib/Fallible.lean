import Mathlib.Data.List.Basic
import Mathlib.Data.List.Induction

/-!
# Fallible — step systems whose operations may throw

A system is a function `step : σ → ο → Except ε σ`.  An operation that throws leaves the state as
it was (`attempt`), a run is a list of operations (`run`), and `Along step C s os` says that every
operation of the run from `s` meets the condition `C` in the state it starts from.

* `run_invariant`: an invariant kept by every successful operation that meets `C` holds after every
  run along `C`.
* `along_iff`: the prefix form of `Along`.
* `always_along_iff`, `always_iff_of`: when one step keeps `P` (and meets `D`) exactly under `C`, a
  whole run does so exactly along `C`.
* `bind_eq_ok`, `refused_eq_ok`: inversion of a sequence of fallible computations, and of a guard.
* `foldlM_invariant`: the invariant of a fallible loop.
* `Since`, `since_now`, `Since.concat`: what has happened in a run, and what has held since.
* `Happened`, `Sometime`: an operation of a run, and a state of it.
* `outcome`: the part of a result that says whether the computation returned.
-/

namespace Fallible

universe u

variable {σ ο ε : Type*} {α β : Type u}

/-! ### Inversion of fallible computations -/

theorem bind_eq_ok {x : Except ε α} {f : α → Except ε β} {b : β} :
    (x >>= f) = .ok b ↔ ∃ a, x = .ok a ∧ f a = .ok b := by
  cases x with
  | error e => simp [bind, Except.bind]
  | ok a => simp [bind, Except.bind]

/-- An exception that is turned into another one is still an exception. -/
theorem mapError_eq_ok {ε' : Type*} {x : Except ε α} {f : ε → ε'} {a : α} :
    x.mapError f = .ok a ↔ x = .ok a := by
  cases x <;> simp [Except.mapError]

/-- A guard that refuses in some states. -/
theorem refused_eq_ok {p : Prop} [Decidable p] {refusal : ε} {x : Except ε α} {a : α} :
    (if p then throw refusal else x) = .ok a ↔ ¬ p ∧ x = .ok a := by
  split_ifs with hp
  · exact iff_of_false (fun h => by cases h) fun h => h.1 hp
  · exact (and_iff_right hp).symm

@[simp] theorem ok_bind (a : α) (f : α → Except ε β) : (Except.ok a >>= f) = f a := rfl

@[simp] theorem error_bind (e : ε) (f : α → Except ε β) : (Except.error e >>= f) = .error e := rfl

@[simp] theorem pure_eq_ok (a : α) : (pure a : Except ε α) = .ok a := rfl

@[simp] theorem throw_eq_error (e : ε) : (throw e : Except ε α) = .error e := rfl

/-- `x` returns (it does not throw). -/
def Returns (x : Except ε α) : Prop := ∃ a, x = .ok a

instance : (x : Except ε α) → Decidable (Returns x)
  | .ok a => .isTrue ⟨a, rfl⟩
  | .error _ => .isFalse fun ⟨_, h⟩ => by cases h

@[simp] theorem returns_ok (a : α) : Returns (.ok a : Except ε α) := ⟨a, rfl⟩

@[simp] theorem not_returns_error (e : ε) : ¬ Returns (.error e : Except ε α) := by
  rintro ⟨a, h⟩
  cases h

theorem returns_bind {x : Except ε α} {f : α → Except ε β} :
    Returns (x >>= f) ↔ ∃ a, x = .ok a ∧ Returns (f a) := by
  constructor
  · rintro ⟨b, h⟩
    obtain ⟨a, ha, hb⟩ := bind_eq_ok.mp h
    exact ⟨a, ha, b, hb⟩
  · rintro ⟨a, rfl, b, hb⟩
    exact ⟨b, by simpa using hb⟩

theorem returns_map {x : Except ε α} {f : α → β} : Returns (x >>= fun a => .ok (f a)) ↔ Returns x := by
  rw [returns_bind]
  exact exists_congr fun a => and_iff_left (returns_ok _)

/-- Whether `x` returns, and what it throws otherwise. -/
def outcome (x : Except ε α) : Except ε Unit := x.map fun _ => ()

@[simp] theorem outcome_ok (a : α) : outcome (.ok a : Except ε α) = .ok () := rfl

@[simp] theorem outcome_error (e : ε) : outcome (.error e : Except ε α) = .error e := rfl

theorem outcome_eq_ok {x : Except ε α} : outcome x = .ok () ↔ Returns x := by
  cases x <;> simp

theorem outcome_eq_error {x : Except ε α} {e : ε} : outcome x = .error e ↔ x = .error e := by
  cases x <;> simp

theorem outcome_bind_congr {γ δ : Type u} {x : Except ε α} {y : Except ε β} {f : α → Except ε γ}
    {g : β → Except ε δ} (hxy : outcome x = outcome y)
    (hfg : ∀ a b, outcome (f a) = outcome (g b)) : outcome (x >>= f) = outcome (y >>= g) := by
  cases x with
  | error e =>
    rw [outcome_eq_error.mp hxy.symm]
    rfl
  | ok a =>
    obtain ⟨b, rfl⟩ := outcome_eq_ok.mp hxy.symm
    exact hfg a b

theorem outcome_bind_congr_right {γ δ : Type u} {x : Except ε α} {f : α → Except ε γ}
    {g : α → Except ε δ} (hfg : ∀ a, outcome (f a) = outcome (g a)) :
    outcome (x >>= f) = outcome (x >>= g) := by
  cases x with
  | error e => rfl
  | ok a => exact hfg a

/-- **Loop invariant** of a fallible loop that returns. -/
theorem foldlM_invariant {f : α → β → Except ε α} {I : α → Prop}
    (hI : ∀ a b a', I a → f a b = .ok a' → I a') {a a' : α} {bs : List β} (ha : I a)
    (h : bs.foldlM f a = .ok a') : I a' := by
  induction bs generalizing a with
  | nil =>
    cases h
    exact ha
  | cons b bs ih =>
    rw [List.foldlM_cons] at h
    obtain ⟨a₁, h1, h⟩ := bind_eq_ok.mp h
    exact ih (hI a b a₁ ha h1) h

/-! ### Runs -/

variable (step : σ → ο → Except ε σ)

/-- One operation; the state stays as it was when the operation throws. -/
def attempt (s : σ) (o : ο) : σ :=
  match step s o with
  | .ok s' => s'
  | .error _ => s

/-- A run: the operations one after the other. -/
def run (s : σ) (os : List ο) : σ := os.foldl (attempt step) s

/-- Every operation of the run from `s` meets `C` in the state it starts from. -/
def Along (C : σ → ο → Prop) : σ → List ο → Prop
  | _, [] => True
  | s, o :: os => C s o ∧ Along C (attempt step s o) os

instance decidableAlong (C : σ → ο → Prop) [∀ s o, Decidable (C s o)] :
    ∀ s os, Decidable (Along step C s os)
  | _, [] => .isTrue trivial
  | s, o :: os => @instDecidableAnd _ _ _ (decidableAlong C (attempt step s o) os)

variable {step}

theorem attempt_of_ok {s s' : σ} {o : ο} (h : step s o = .ok s') : attempt step s o = s' := by
  simp [attempt, h]

theorem attempt_of_error {s : σ} {o : ο} {e : ε} (h : step s o = .error e) :
    attempt step s o = s := by
  simp [attempt, h]

/-- An operation either throws and changes nothing, or gives the state it returns. -/
theorem attempt_cases (step : σ → ο → Except ε σ) (s : σ) (o : ο) :
    (∃ e, step s o = .error e ∧ attempt step s o = s) ∨
      step s o = .ok (attempt step s o) := by
  cases h : step s o with
  | error e => exact .inl ⟨e, rfl, attempt_of_error h⟩
  | ok s' => exact .inr (by rw [attempt_of_ok h])

@[simp] theorem run_nil (s : σ) : run step s [] = s := rfl

@[simp] theorem run_cons (s : σ) (o : ο) (os : List ο) :
    run step s (o :: os) = run step (attempt step s o) os := rfl

theorem run_append (s : σ) (os os' : List ο) :
    run step s (os ++ os') = run step (run step s os) os' := by
  simp [run, List.foldl_append]

theorem run_concat (s : σ) (os : List ο) (o : ο) :
    run step s (os ++ [o]) = attempt step (run step s os) o := by
  simp [run_append]

theorem along_append {C : σ → ο → Prop} {s : σ} {os os' : List ο} :
    Along step C s (os ++ os') ↔ Along step C s os ∧ Along step C (run step s os) os' := by
  induction os generalizing s with
  | nil => simp [Along]
  | cons o os ih => simp [Along, ih, and_assoc]

/-- The prefix form: the condition holds at every split of the run. -/
theorem along_iff {C : σ → ο → Prop} {s : σ} {os : List ο} :
    Along step C s os ↔ ∀ pre o post, os = pre ++ o :: post → C (run step s pre) o := by
  induction os generalizing s with
  | nil => simp [Along]
  | cons o os ih =>
    constructor
    · rintro ⟨h1, h2⟩ pre o' post he
      cases pre with
      | nil =>
        obtain ⟨rfl, -⟩ := List.cons_eq_cons.mp he
        exact h1
      | cons p pre =>
        obtain ⟨rfl, he'⟩ := List.cons_eq_cons.mp he
        exact ih.mp h2 pre o' post he'
    · intro h
      refine ⟨h [] o os rfl, ih.mpr fun pre o' post he => ?_⟩
      exact h (o :: pre) o' post (by rw [he]; rfl)

theorem Along.mono {C D : σ → ο → Prop} {s : σ} {os : List ο} (h : Along step C s os)
    (hCD : ∀ s o, C s o → D s o) : Along step D s os :=
  along_iff.mpr fun pre o post he => hCD _ _ (along_iff.mp h pre o post he)

/-- **Run invariant.**  What every successful operation meeting `C` keeps holds after every run
along `C`. -/
theorem run_invariant {I : σ → Prop} {C : σ → ο → Prop}
    (hI : ∀ s o s', I s → C s o → step s o = .ok s' → I s') {s : σ} {os : List ο} (hs : I s)
    (hC : Along step C s os) : I (run step s os) := by
  induction os generalizing s with
  | nil => exact hs
  | cons o os ih =>
    refine ih ?_ hC.2
    rcases attempt_cases step s o with ⟨e, -, heq⟩ | hok
    · rwa [heq]
    · exact hI s o _ hs hC.1 hok

/-- The unconditional form of `run_invariant`. -/
theorem run_induct {I : σ → Prop} (hI : ∀ s o s', I s → step s o = .ok s' → I s') {s : σ}
    (hs : I s) (os : List ο) : I (run step s os) :=
  run_invariant (C := fun _ _ => True) (fun s o s' h _ => hI s o s' h) hs
    (along_iff.mpr fun _ _ _ _ => trivial)

/-! ### A property of every state of a run -/

variable (step) in
/-- `P` holds in every state of the run from `s`, the first one included. -/
def Always (P : σ → Prop) (s : σ) (os : List ο) : Prop :=
  ∀ pre, pre <+: os → P (run step s pre)

theorem always_nil {P : σ → Prop} {s : σ} : Always step P s ([] : List ο) ↔ P s := by
  simp [Always]

theorem always_cons {P : σ → Prop} {s : σ} {o : ο} {os : List ο} :
    Always step P s (o :: os) ↔ P s ∧ Always step P (attempt step s o) os := by
  constructor
  · intro h
    refine ⟨h [] List.nil_prefix, fun pre hpre => ?_⟩
    exact h (o :: pre) (List.cons_prefix_cons.mpr ⟨rfl, hpre⟩)
  · rintro ⟨h1, h2⟩ pre hpre
    rcases List.prefix_cons_iff.mp hpre with rfl | ⟨pre', rfl, hpre'⟩
    · exact h1
    · exact h2 pre' hpre'

/-- **Exact run condition.**  If from a `P`-state one operation stays in `P` and meets `D` exactly
when it meets `C`, as long as it leads to a `Q`-state, then a whole run through `Q`-states from a
`P`-state does so exactly when it goes along `C`. -/
theorem always_along_iff_of {P Q : σ → Prop} {C D : σ → ο → Prop}
    (hstep : ∀ s o, P s → Q (attempt step s o) → (C s o ↔ P (attempt step s o) ∧ D s o))
    {s : σ} {os : List ο} (hQ : Always step Q s os) (hs : P s) :
    Always step P s os ∧ Along step D s os ↔ Along step C s os := by
  induction os generalizing s with
  | nil => simp [always_nil, Along, hs]
  | cons o os ih =>
    have hQ' := (always_cons.mp hQ).2
    rw [always_cons]
    simp only [Along]
    rw [hstep s o hs (hQ' [] List.nil_prefix)]
    constructor
    · rintro ⟨⟨_, h2⟩, h3, h4⟩
      have hP : P (attempt step s o) := h2 [] List.nil_prefix
      exact ⟨⟨hP, h3⟩, (ih hQ' hP).mp ⟨h2, h4⟩⟩
    · rintro ⟨⟨hP, h3⟩, h4⟩
      have h := (ih hQ' hP).mpr h4
      exact ⟨⟨hs, h.1⟩, h3, h.2⟩

/-- `always_along_iff_of` through arbitrary states. -/
theorem always_along_iff {P : σ → Prop} {C D : σ → ο → Prop}
    (hstep : ∀ s o, P s → (C s o ↔ P (attempt step s o) ∧ D s o)) {s : σ} {os : List ο} (hs : P s) :
    Always step P s os ∧ Along step D s os ↔ Along step C s os :=
  always_along_iff_of (Q := fun _ => True) (fun s o hP _ => hstep s o hP) (fun _ _ => trivial) hs

/-- The form without a condition on the operations. -/
theorem always_iff_of {P Q : σ → Prop} {C : σ → ο → Prop}
    (hstep : ∀ s o, P s → Q (attempt step s o) → (C s o ↔ P (attempt step s o)))
    {s : σ} {os : List ο} (hQ : Always step Q s os) (hs : P s) :
    Always step P s os ↔ Along step C s os := by
  rw [← always_along_iff_of (D := fun _ _ => True)
    (fun s o hP hQ => (hstep s o hP hQ).trans (and_iff_left trivial).symm) hQ hs]
  exact (and_iff_left (along_iff.mpr fun _ _ _ _ => trivial)).symm

/-! ### What has happened since -/

/-- `P` held at an operation of the run from `s`, and `Q` has held in every state from then on. -/
def Since (step : σ → ο → Except ε σ) (P : σ → ο → Prop) (Q : σ → Prop) (s : σ) (os : List ο) :
    Prop :=
  ∃ pre o post, os = pre ++ o :: post ∧ P (run step s pre) o ∧
    Always step Q (attempt step (run step s pre) o) post

section

variable {P : σ → ο → Prop} {Q : σ → Prop} {s : σ} {os : List ο} {o : ο}

theorem always_concat : Always step Q s (os ++ [o]) ↔
    Always step Q s os ∧ Q (run step s (os ++ [o])) := by
  unfold Always
  constructor
  · intro h
    exact ⟨fun pre hpre => h pre (hpre.trans (List.prefix_append os [o])), h _ (List.prefix_refl _)⟩
  · rintro ⟨hall, hlast⟩ pre hpre
    rcases List.prefix_concat_iff.mp hpre with rfl | hpre
    · exact hlast
    · exact hall pre hpre

/-- It happens at the last operation. -/
theorem since_now (hP : P (run step s os) o) (hQ : Q (run step s (os ++ [o]))) :
    Since step P Q s (os ++ [o]) :=
  ⟨os, o, [], rfl, hP, always_nil.mpr (run_concat s os o ▸ hQ)⟩

/-- It has happened before the last operation. -/
theorem Since.concat (h : Since step P Q s os) (hQ : Q (run step s (os ++ [o]))) :
    Since step P Q s (os ++ [o]) := by
  obtain ⟨pre, o', post, rfl, hP, hall⟩ := h
  refine ⟨pre, o', post ++ [o], by simp, hP, always_concat.mpr ⟨hall, ?_⟩⟩
  rwa [← run_cons, ← run_append, ← List.cons_append, ← List.append_assoc]

/-- What has happened, happened at an operation of the run. -/
theorem Since.exists_mem (h : Since step P Q s os) : ∃ pre, ∃ o ∈ os, P (run step s pre) o := by
  obtain ⟨pre, o, post, rfl, hP, -⟩ := h
  exact ⟨pre, o, List.mem_append_right _ List.mem_cons_self, hP⟩

end

/-! ### What has been the case -/

/-- `P` held at an operation of the run from `s`. -/
def Happened (step : σ → ο → Except ε σ) (P : σ → ο → Prop) (s : σ) (os : List ο) : Prop :=
  ∃ pre o post, os = pre ++ o :: post ∧ P (run step s pre) o

/-- `Q` held in a state of the run from `s`, the first and the last one included. -/
def Sometime (step : σ → ο → Except ε σ) (Q : σ → Prop) (s : σ) (os : List ο) : Prop :=
  ∃ pre, pre <+: os ∧ Q (run step s pre)

section

variable {P : σ → ο → Prop} {Q : σ → Prop} {s : σ} {os : List ο} {o : ο}

theorem happened_now (h : P (run step s os) o) : Happened step P s (os ++ [o]) :=
  ⟨os, o, [], rfl, h⟩

theorem Happened.concat (h : Happened step P s os) (o : ο) : Happened step P s (os ++ [o]) := by
  obtain ⟨pre, o', post, rfl, hP⟩ := h
  exact ⟨pre, o', post ++ [o], by simp, hP⟩

theorem sometime_now (h : Q (run step s os)) : Sometime step Q s os := ⟨os, List.prefix_refl os, h⟩

theorem Sometime.concat (h : Sometime step Q s os) (o : ο) : Sometime step Q s (os ++ [o]) := by
  obtain ⟨pre, hpre, hQ⟩ := h
  exact ⟨pre, hpre.trans (List.prefix_append os [o]), hQ⟩

theorem sometime_concat : Sometime step Q s (os ++ [o]) ↔
    Sometime step Q s os ∨ Q (run step s (os ++ [o])) := by
  constructor
  · rintro ⟨pre, hpre, hQ⟩
    rcases List.prefix_concat_iff.mp hpre with rfl | hpre
    · exact .inr hQ
    · exact .inl ⟨pre, hpre, hQ⟩
  · rintro (h | h)
    · exact h.concat o
    · exact sometime_now h

/-- **History invariant.**  What holds at the start, and is kept by each operation whether or not it
throws, holds of every run and its history. -/
theorem history_induct {I : List ο → σ → Prop} (hs : I [] s)
    (hI : ∀ os o, I os (run step s os) → I (os ++ [o]) (attempt step (run step s os) o)) (os : List ο) :
    I os (run step s os) := by
  induction os using List.reverseRecOn with
  | nil => exact hs
  | append_singleton os o ih =>
    rw [run_concat]
    exact hI os o ih

end

end Fallible
