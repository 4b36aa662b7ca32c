import Logion.Lib.Effect
import Logion.Lib.Fallible
import Mathlib.Logic.Function.Basic

/-!
# Interleaving — calls that share a world and are resumed one at a time

A call is suspended at a point; resuming it runs its code up to the next point, as a computation on
the world that all calls share.  An exception rejects the call.  A run is the list of the calls that
are resumed, in any order (`Fallible.run`), and a condition on the scheduling is a condition on each
resumption (`Fallible.Along`).

* `run_isolated`: what a call relies on holds after every run, when its own code keeps it and no other
  call's does any harm to it.
* `run_progress`: a call that is resumed often enough gets to its end.
* `run_exclusive`: what the calls rely on, when a step harms only who holds the same resource and no
  resource is taken while another call holds it.
-/

namespace Interleaving

open Effect Fallible

/-- The shared world and the point at which each call is suspended. -/
structure System (ω ι τ : Type) where
  world : ω
  task : ι → τ

/-- What each call does from a point to the next one, and the point of a rejected call. -/
structure Code (ω ι τ ε : Type) where
  resume : ι → τ → Eff ω ε τ
  rejected : ε → τ

variable {ω ι τ ε : Type} [DecidableEq ι]

namespace Code

variable (c : Code ω ι τ ε)

/-- The point reached by a resumed call. -/
def reached : Except ε τ → τ
  | .ok p => p
  | .error e => c.rejected e

/-- Call `t` is resumed. -/
def resumed (s : System ω ι τ) (t : ι) : System ω ι τ where
  world := (exec (c.resume t (s.task t)) s.world).2
  task := Function.update s.task t (c.reached (exec (c.resume t (s.task t)) s.world).1)

/-- One step of a run; no step fails as a whole. -/
def step (s : System ω ι τ) (t : ι) : Except Empty (System ω ι τ) := .ok (c.resumed s t)

variable {c} {s : System ω ι τ} {t u : ι} {ts : List ι}

theorem attempt_step : attempt c.step s t = c.resumed s t := rfl

theorem resumed_task_of_ne (h : t ≠ u) : (c.resumed s u).task t = s.task t :=
  Function.update_of_ne h _ _

theorem resumed_of_exec {p : τ} {w : ω} (h : exec (c.resume t (s.task t)) s.world = (.ok p, w)) :
    (c.resumed s t).task t = p ∧ (c.resumed s t).world = w := by
  unfold resumed
  rw [h]
  exact ⟨Function.update_self _ _ _, rfl⟩

section

variable {K : System ω ι τ → Prop} {C : System ω ι τ → ι → Prop} {G : ι → ω → ω → Prop}
  {J : τ → ω → Prop}

/-- One step of any call keeps what `t` relies on. -/
theorem resumed_isolated (hG : ∀ s u, K s → C s u → u ≠ t → G u s.world (c.resumed s u).world)
    (hstable : ∀ u w w' p, u ≠ t → G u w w' → J p w → J p w')
    (hown : ∀ s, K s → C s t → J (s.task t) s.world →
      J ((c.resumed s t).task t) (c.resumed s t).world)
    (hs : K s) (hC : C s u) (hJ : J (s.task t) s.world) :
    J ((c.resumed s u).task t) (c.resumed s u).world := by
  by_cases h : u = t
  · subst h
    exact hown s hs hC hJ
  · rw [resumed_task_of_ne (Ne.symm h)]
    exact hstable u _ _ _ h (hG s u hs hC h) hJ

/-- **Isolation.**  `J` is what call `t` relies on, at its point and in the world.  Its own steps keep
`J`; a step of another call `u` changes the world only as `G u` allows, which keeps `J` too. -/
theorem run_isolated (hK : ∀ s u, K s → C s u → K (c.resumed s u))
    (hG : ∀ s u, K s → C s u → u ≠ t → G u s.world (c.resumed s u).world)
    (hstable : ∀ u w w' p, u ≠ t → G u w w' → J p w → J p w')
    (hown : ∀ s, K s → C s t → J (s.task t) s.world →
      J ((c.resumed s t).task t) (c.resumed s t).world)
    (hs : K s) (hJ : J (s.task t) s.world) (hC : Along c.step C s ts) :
    J ((run c.step s ts).task t) (run c.step s ts).world := by
  have hboth : K (run c.step s ts) ∧ J ((run c.step s ts).task t) (run c.step s ts).world :=
    run_invariant (I := fun s => K s ∧ J (s.task t) s.world) (fun s u s' h hCu hstep => by
      obtain rfl : c.resumed s u = s' := Except.ok.inj hstep
      exact ⟨hK s u h.1 hCu, resumed_isolated hG hstable hown h.1 hCu h.2⟩) ⟨hs, hJ⟩ hC
  exact hboth.2

/-- **Progress.**  When each own step of `t` lowers a rank that the steps of the others do not raise,
the rank has dropped by the number of times `t` was resumed. -/
theorem run_progress {rank : τ → ω → ℕ} (hK : ∀ s u, K s → C s u → K (c.resumed s u))
    (hG : ∀ s u, K s → C s u → u ≠ t → G u s.world (c.resumed s u).world)
    (hstable : ∀ u w w' p, u ≠ t → G u w w' → J p w → J p w' ∧ rank p w' ≤ rank p w)
    (hown : ∀ s, K s → C s t → J (s.task t) s.world →
      J ((c.resumed s t).task t) (c.resumed s t).world ∧
        rank ((c.resumed s t).task t) (c.resumed s t).world ≤ rank (s.task t) s.world - 1)
    (hs : K s) (hJ : J (s.task t) s.world) (hC : Along c.step C s ts) :
    rank ((run c.step s ts).task t) (run c.step s ts).world ≤
      rank (s.task t) s.world - ts.count t := by
  induction ts generalizing s with
  | nil => exact Nat.le_refl _
  | cons u ts ih =>
    have hJ' := resumed_isolated hG (fun u w w' p hu hGu hJ => (hstable u w w' p hu hGu hJ).1)
      (fun s hs hC hJ => (hown s hs hC hJ).1) hs hC.1 hJ
    have hrest := ih (hK s u hs hC.1) hJ' hC.2
    rw [run_cons, attempt_step]
    by_cases h : u = t
    · subst h
      have hdown := (hown s hs hC.1 hJ).2
      rw [List.count_cons_self]
      omega
    · have hsame := (hstable u _ _ _ h (hG s u hs hC.1 h) hJ).2
      rw [resumed_task_of_ne (Ne.symm h)] at hrest
      rw [List.count_cons_of_ne h]
      omega

end

/-! ### Resources that one call at a time holds -/

section

variable {ρ : Type} (c) (resource : ι → ρ) (Holds : τ → Prop)

/-- A call that takes its resource takes it from no other one. -/
def TakesFree (s : System ω ι τ) (u : ι) : Prop :=
  ¬ Holds (s.task u) → Holds ((c.resumed s u).task u) →
    ∀ v, v ≠ u → Holds (s.task v) → resource v ≠ resource u

/-- No resource is held by two calls. -/
def Exclusive (s : System ω ι τ) : Prop :=
  ∀ u v, u ≠ v → Holds (s.task u) → Holds (s.task v) → resource u ≠ resource v

variable {c resource Holds} {J : ι → τ → ω → Prop}

/-- Before or after its step, the call holds what no other one does. -/
theorem exclusive_step (hs : Exclusive resource Holds s) (hC : c.TakesFree resource Holds s u)
    (hu : Holds (s.task u) ∨ Holds ((c.resumed s u).task u)) (h : t ≠ u) (ht : Holds (s.task t)) :
    resource t ≠ resource u := by
  by_cases hheld : Holds (s.task u)
  · exact hs t u h ht hheld
  · exact hC hheld (hu.resolve_left hheld) t h ht

theorem exclusive_resumed (hs : Exclusive resource Holds s) (hC : c.TakesFree resource Holds s u) :
    Exclusive resource Holds (c.resumed s u) := by
  intro v w hne hv hw
  by_cases hvu : v = u
  · subst hvu
    rw [resumed_task_of_ne (Ne.symm hne)] at hw
    exact (exclusive_step hs hC (.inr hv) (Ne.symm hne) hw).symm
  · rw [resumed_task_of_ne hvu] at hv
    by_cases hwu : w = u
    · subst hwu
      exact exclusive_step hs hC (.inr hw) hne hv
    · rw [resumed_task_of_ne hwu] at hw
      exact hs v w hne hv hw

/-- **Exclusion.**  `J t` is what call `t` relies on.  Its own steps keep it, and so do those of
another call, unless both hold the same resource. -/
theorem run_exclusive
    (hown : ∀ s t, J t (s.task t) s.world → J t ((c.resumed s t).task t) (c.resumed s t).world)
    (hother : ∀ s t u, t ≠ u →
      (Holds (s.task u) ∨ Holds ((c.resumed s u).task u) → Holds (s.task t) →
        resource t ≠ resource u) →
      J t (s.task t) s.world → J t (s.task t) (c.resumed s u).world)
    (hs : Exclusive resource Holds s) (hJ : ∀ t, J t (s.task t) s.world)
    (hC : Along c.step (c.TakesFree resource Holds) s ts) (t : ι) :
    J t ((run c.step s ts).task t) (run c.step s ts).world := by
  have hboth : Exclusive resource Holds (run c.step s ts) ∧
      ∀ t, J t ((run c.step s ts).task t) (run c.step s ts).world := by
    refine run_invariant (I := fun s => Exclusive resource Holds s ∧ ∀ t, J t (s.task t) s.world)
      (fun s u s' h hCu hstep => ?_) ⟨hs, hJ⟩ hC
    obtain rfl : c.resumed s u = s' := Except.ok.inj hstep
    refine ⟨exclusive_resumed h.1 hCu, fun t => ?_⟩
    by_cases ht : t = u
    · subst ht
      exact hown s t (h.2 t)
    · rw [resumed_task_of_ne ht]
      exact hother s t u ht (fun hu htake => exclusive_step h.1 hCu hu ht htake) (h.2 t)
  exact hboth.2 t

end

end Code

end Interleaving
