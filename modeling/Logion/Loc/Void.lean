import Logion.Loc.Reachable

/-!
# Void — the void information of a LOC

A LOC is void when the reason of its void information is set.  `preVoid` sets the reason and
`cancelPreVoid` unsets it; the chain sets the date, and the reason only where there is no void
information at all.

* `step_voidInfo`: the operations that write the void information.
* `Voided.step`, `Voided.reload`: once the reason and the date are set, the LOC stays void.
* `visibleAndFinal_iff`: when a voiding on chain is visible and final.
-/

namespace Logion

open Fallible

namespace LocRequest

variable {l l' : LocRequest}

theorem isVoid_iff : l.isVoid = true ↔ (l.voidInfo.bind VoidInfo.reason).isSome = true := by
  cases hv : l.voidInfo <;> simp [isVoid, hv]

/-- A void LOC is no valid identity LOC. -/
theorem isValidIdentityLoc_of_isVoid (h : l.isVoid = true) : l.isValidIdentityLoc = false := by
  simp [isValidIdentityLoc, h]

theorem voidInfo_of_withoutItems (h : l'.withoutItems = l.withoutItems) :
    l'.voidInfo = l.voidInfo := by
  change l'.withoutItems.voidInfo = l.withoutItems.voidInfo
  rw [h]

/-- The other operations leave the void information. -/
theorem step_voidInfo [Hashing] {op : LocOp} (hop : op.isVoiding = false) (h : l.step op = .ok l') :
    l'.voidInfo = l.voidInfo := by
  cases hside : op.isSide with
  | false => exact voidInfo_of_withoutItems (l := l.withStatusOf l') (step_withoutItems hside h)
  | true => exact (step_side hside h).voidInfo hop

/-! ### Once void, always void -/

/-- The reason and the date are set. -/
structure Voided (l : LocRequest) : Prop where
  reason : l.isVoid = true
  date : (l.voidInfo.bind VoidInfo.voidedOn).isSome = true

theorem Voided.of_voidInfo (hl : l.Voided) (h : voidColumns l'.voidInfo = voidColumns l.voidInfo) :
    l'.Voided := by
  obtain ⟨hreason, hdate⟩ := Prod.mk.inj h
  refine ⟨?_, ?_⟩
  · rw [isVoid_iff, hreason, ← isVoid_iff]
    exact hl.reason
  · rw [hdate]
    exact hl.date

/-- **One operation** on a void LOC: `preVoid` and `cancelPreVoid` throw. -/
theorem Voided.step [Hashing] {op : LocOp} (hl : l.Voided) (h : l.step op = .ok l') : l'.Voided := by
  cases hop : op.isVoiding with
  | false => exact hl.of_voidInfo (by rw [step_voidInfo hop h])
  | true =>
    cases op with
    | preVoid reason =>
      change l.preVoid reason = .ok l' at h
      unfold preVoid at h
      rw [if_pos hl.reason] at h
      cases h
    | cancelPreVoid =>
      change l.cancelPreVoid = .ok l' at h
      have hdate : l.voidInfo.any (fun v => v.voidedOn.isSome) = true := by
        have hdate := hl.date
        cases hv : l.voidInfo <;> simp_all
      unfold cancelPreVoid at h
      simp only [hl.reason, hdate, Bool.not_true, Bool.false_eq_true, if_false, if_true] at h
      cases h
    | voidLoc timestamp =>
      cases h
      obtain ⟨v, hv⟩ : ∃ v, l.voidInfo = some v := by
        have hreason := hl.reason
        cases hv : l.voidInfo <;> simp_all [isVoid]
      have hreason := isVoid_iff.mp hl.reason
      rw [hv] at hreason
      refine ⟨?_, rfl⟩
      rw [isVoid_iff, show (l.voidLoc timestamp).voidInfo.bind VoidInfo.reason =
        (l.voidInfo.getD ⟨some "", none⟩).reason from rfl, hv]
      exact hreason
    | _ => cases hop

theorem Voided.reload (hl : l.Voided) (h : Reloads l l') : l'.Voided := hl.of_voidInfo h.voidInfo

/-- After any history, a void LOC is void. -/
theorem Voided.evolves [Hashing] (hl : l.Voided) (h : Evolves l l') : l'.Voided :=
  h.induct Voided.step Voided.reload hl

/-! ### The voiding on chain -/

/-- The LOC shows that it was voided on the given date, and will show it after any history. -/
structure VisibleAndFinal [Hashing] (l : LocRequest) (timestamp : Moment) : Prop where
  visible : l.isVoid = true
  info : ∃ reason, l.getVoidInfo = some (reason, some timestamp)
  refused : l.isValidIdentityLoc = false
  final : ∀ l', Evolves l l' → l'.isVoid = true ∧ l'.isValidIdentityLoc = false

/-- `voidLoc` writes no reason into void information that is there already. -/
theorem voidLoc_isVoid_iff {timestamp : Moment} :
    (l.voidLoc timestamp).isVoid = true ↔ l.voidInfo = none ∨ l.isVoid = true := by
  rw [isVoid_iff, isVoid_iff, show (l.voidLoc timestamp).voidInfo.bind VoidInfo.reason =
    (l.voidInfo.getD ⟨some "", none⟩).reason from rfl]
  cases l.voidInfo <;> simp

/-- **Voiding on chain** is visible and final exactly when the LOC had no void information, or was
void already: `voidLoc` sets the reason only in the absence of void information. -/
theorem visibleAndFinal_iff [Hashing] (l : LocRequest) (timestamp : Moment) :
    (l.voidLoc timestamp).VisibleAndFinal timestamp ↔ l.voidInfo = none ∨ l.isVoid = true := by
  have hvisible : (l.voidLoc timestamp).isVoid = true ↔ _ := voidLoc_isVoid_iff
  rw [← hvisible]
  refine ⟨VisibleAndFinal.visible, fun hvoid => ?_⟩
  have hl : (l.voidLoc timestamp).Voided := ⟨hvoid, rfl⟩
  refine ⟨hvoid, ⟨_, if_pos hvoid⟩, isValidIdentityLoc_of_isVoid hvoid, fun l' hevolves => ?_⟩
  have hl' := hl.evolves hevolves
  exact ⟨hl'.reason, isValidIdentityLoc_of_isVoid hl'.reason⟩

/-- The LOC of the officer, pre-voided over HTTP; the officer then takes it back. -/
def preVoidCancelledLoc : LocRequest := { ownersLoc with voidInfo := some ⟨none, none⟩ }

/-- The chain voids the LOC, which does not show it. -/
theorem voidLoc_not_visible :
    letI : Hashing := ⟨fun name => name⟩
    ¬ ∀ l, Reachable l → ∀ timestamp, (l.voidLoc timestamp).VisibleAndFinal timestamp := by
  let _ : Hashing := ⟨fun name => name⟩
  intro h
  have hreachable : Reachable preVoidCancelledLoc :=
    reachable_run ownersLoc_created [.preVoid "reason", .cancelPreVoid]
  have hvisible := (h _ hreachable 5).visible
  have hnot : (preVoidCancelledLoc.voidLoc 5).isVoid = false := rfl
  rw [hnot] at hvisible
  cases hvisible

end LocRequest

end Logion
