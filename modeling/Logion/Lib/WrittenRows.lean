import Logion.Lib.Transactions

/-!
# WrittenRows — a property of all the rows that are ever written

When every row that a statement writes has a property, the rows of the tables keep it, committed or
not, whatever the transactions do: wait, roll back, or overwrite what another one has just committed.

* `Statement.Writes`: every row that the statement writes has the property.
* `Everywhere`: so do all the rows of a table, those that are not committed yet among them.
* `Everywhere.exec`, `Everywhere.commit`, `Everywhere.rollback`: the steps of a transaction keep it.
* `EverywhereAll`: the same on all the tables.
-/

namespace ReadCommitted

open Table

section Rows

variable {ι ρ : Type*} [DecidableEq ι] {t : ι} {P Q : ρ → Prop} {s : Statement ρ}
  {vs : List (Version ι ρ)}

/-- Every row that the statement writes is in `P`. -/
def Writes (P : ρ → Prop) : Statement ρ → Prop
  | .delete _ => True
  | .insert row => P row
  | .update condition set => ∀ r, condition r = true → P (set r)

/-- Every row is in `P`, committed or not. -/
def Everywhere (P : ρ → Prop) (vs : List (Version ι ρ)) : Prop :=
  ∀ v ∈ vs, (∀ r, v.committed = some r → P r) ∧ ∀ u r, v.pending = some (u, some r) → P r

omit [DecidableEq ι] in
theorem Writes.mono (h : Writes P s) (hPQ : ∀ r, P r → Q r) : Writes Q s := by
  cases s with
  | delete condition => trivial
  | insert row => exact hPQ row h
  | update condition set => exact fun r hr => hPQ _ (h r hr)

omit [DecidableEq ι] in
theorem Everywhere.mono (h : Everywhere P vs) (hPQ : ∀ r, P r → Q r) : Everywhere Q vs :=
  fun v hv => ⟨fun r hr => hPQ r ((h v hv).1 r hr), fun u r hr => hPQ r ((h v hv).2 u r hr)⟩

theorem Version.seenBy_in {v : Version ι ρ}
    (h : (∀ r, v.committed = some r → P r) ∧ ∀ u r, v.pending = some (u, some r) → P r) {r : ρ}
    (hr : v.seenBy t = some r) : P r := by
  obtain ⟨committed, pending⟩ := v
  cases pending with
  | none => exact h.1 r hr
  | some p =>
    obtain ⟨u, w⟩ := p
    by_cases hu : u = t
    · have hw : w = some r := by simpa [Version.seenBy, hu] using hr
      exact h.2 u r (by rw [hw])
    · exact h.1 r (by simpa [Version.seenBy, hu] using hr)

/-- What a transaction sees. -/
theorem Everywhere.view (h : Everywhere P vs) : ∀ r ∈ view t vs, P r := by
  intro r hr
  obtain ⟨v, hv, hseen⟩ := List.mem_filterMap.mp hr
  exact Version.seenBy_in (h v hv) hseen

omit [DecidableEq ι] in
theorem Everywhere.stored (h : Everywhere P vs) : ∀ r ∈ stored vs, P r := by
  intro r hr
  obtain ⟨v, hv, hcommitted⟩ := List.mem_filterMap.mp hr
  exact (h v hv).1 r hcommitted

/-! ### The steps of a transaction -/

theorem Everywhere.exec (h : Everywhere P vs) (hs : Writes P s) : Everywhere P (exec t s vs) := by
  intro v hv
  rcases List.mem_append.mp hv with hv | hv
  · obtain ⟨v₀, hmem, rfl⟩ := List.mem_map.mp hv
    unfold Version.exec
    split_ifs with hsel
    · refine ⟨(h v₀ hmem).1, fun u r hr => ?_⟩
      obtain ⟨r₀, hseen, hselects⟩ := (Option.any_eq_true _ _).mp hsel
      have hresult : s.result r₀ = some r := by
        have hbind := (Prod.mk.inj (Option.some.inj hr)).2
        rwa [hseen] at hbind
      cases s with
      | delete condition => cases hresult
      | insert row => cases hselects
      | update condition set =>
        cases hresult
        exact hs r₀ hselects
    · exact h v₀ hmem
  · obtain ⟨row, hrow, rfl⟩ := List.mem_map.mp hv
    refine ⟨fun r hr => (by cases hr), fun u r hr => ?_⟩
    cases hr
    cases s with
    | delete condition => cases hrow
    | insert row' => rwa [List.mem_singleton.mp hrow]
    | update condition set => cases hrow

theorem Everywhere.commit (h : Everywhere P vs) : Everywhere P (commit t vs) := by
  intro v hv
  obtain ⟨v₀, hmem, rfl⟩ := List.mem_map.mp hv
  cases hw : v₀.writtenBy t with
  | true =>
    rw [Version.commit_of_written hw]
    exact ⟨fun r hr => Version.seenBy_in (h v₀ hmem) hr, fun u r hr => by cases hr⟩
  | false =>
    rw [Version.commit_of_not_written hw]
    exact h v₀ hmem

theorem Everywhere.rollback (h : Everywhere P vs) : Everywhere P (rollback t vs) := by
  intro v hv
  obtain ⟨v₀, hmem, rfl⟩ := List.mem_map.mp hv
  cases hw : v₀.writtenBy t with
  | true =>
    rw [Version.rollback_of_written hw]
    exact ⟨(h v₀ hmem).1, fun u r hr => by cases hr⟩
  | false =>
    rw [Version.rollback_of_not_written hw]
    exact h v₀ hmem

end Rows

/-! ### The tables of a database -/

section Databases

variable {ι τ : Type*} [DecidableEq ι] [DecidableEq τ] {Row : τ → Type*} {t : ι}
  {P Q : (T : τ) → Row T → Prop} {s : TableStatement Row} {db : Versions ι Row}

/-- Every row of every table is in `P`, committed or not. -/
def EverywhereAll (P : (T : τ) → Row T → Prop) (db : Versions ι Row) : Prop :=
  ∀ T, Everywhere (P T) (db T)

theorem EverywhereAll.execOn (h : EverywhereAll P db) (hs : Writes (P s.table) s.statement) :
    EverywhereAll P (execOn t s db) := by
  intro T
  by_cases hT : T = s.table
  · subst hT
    rw [execOn_self]
    exact (h s.table).exec hs
  · rw [execOn_of_ne hT]
    exact h T

omit [DecidableEq τ] in
theorem EverywhereAll.commitAll (h : EverywhereAll P db) : EverywhereAll P (commitAll t db) :=
  fun T => (h T).commit

omit [DecidableEq τ] in
theorem EverywhereAll.rollbackAll (h : EverywhereAll P db) : EverywhereAll P (rollbackAll t db) :=
  fun T => (h T).rollback

end Databases

end ReadCommitted
