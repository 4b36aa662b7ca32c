import Logion.Lib.ReadCommitted
import Mathlib.Logic.Function.Basic

/-!
# Transactions — what the statements of a transaction have made of the tables

A transaction runs its statements one by one on the tables of a database, while the others run theirs,
commit and roll back.

* `Made`: the view of a transaction is what its statements would make of the stored rows now, and it
  has locked the stored rows that they select.
* `Made.exec_self`, `Made.exec_other`, `Made.commit_other`, `Made.rollback_other`: this holds on
  whatever the others do, unless one of them commits a row that an earlier statement has missed.
* `MadeAll`, `MadeAll.stored_commit`: the same on all the tables, and what a commit stores.
-/

namespace ReadCommitted

open Table

section Rows

variable {ι ρ : Type*} [DecidableEq ι] {t u : ι} {s : Statement ρ} {ss : List (Statement ρ)}
  {vs : List (Version ι ρ)} {clash : ρ → ρ → Prop}

/-! ### One table -/

/-- What the statements `ss` of `t` have made of a table. -/
structure Made (t : ι) (ss : List (Statement ρ)) (vs : List (Version ι ρ)) : Prop where
  view : (view t vs).Perm (after ss (stored vs))
  locked : ∀ v ∈ vs, ∀ s ∈ ss, v.committed.any s.selects = true → v.writtenBy t = true

/-- The statements `ss` select none of the rows that `u` has written. -/
def NoneMissed (u : ι) (ss : List (Statement ρ)) (vs : List (Version ι ρ)) : Prop :=
  ∀ r ∈ written u vs, ∀ s ∈ ss, s.selects r = false

instance : Decidable (NoneMissed u ss vs) :=
  inferInstanceAs (Decidable (∀ r ∈ written u vs, ∀ s ∈ ss, s.selects r = false))

/-- Nothing is written yet. -/
theorem made_nil (h : ∀ v ∈ vs, v.writtenBy t = false) : Made t [] vs where
  view := List.Perm.of_eq (List.filterMap_congr fun v hv => Version.seenBy_of_not_written (h v hv))
  locked _ _ s hs := by cases hs

theorem made_commit_self : Made t [] (commit t vs) := by
  refine made_nil fun v hv => ?_
  obtain ⟨v₀, -, rfl⟩ := List.mem_map.mp hv
  exact Version.writtenBy_commit

theorem made_rollback_self : Made t [] (rollback t vs) := by
  refine made_nil fun v hv => ?_
  obtain ⟨v₀, -, rfl⟩ := List.mem_map.mp hv
  exact Version.writtenBy_rollback

/-- One more statement. -/
theorem Made.exec_self (h : Made t ss vs) : Made t (ss ++ [s]) (exec t s vs) where
  view := by
    rw [view_exec_self, stored_exec, after_concat]
    exact rows_perm s h.view
  locked v hv s' hs' hsel := by
    rcases List.mem_append.mp hv with hv | hv
    · obtain ⟨v₀, hmem, rfl⟩ := List.mem_map.mp hv
      rw [Version.committed_exec] at hsel
      refine Version.written_exec_self ?_
      rcases List.mem_append.mp hs' with hs' | hs'
      · exact .inl (h.locked v₀ hmem s' hs' hsel)
      · rw [List.mem_singleton.mp hs'] at hsel
        exact .inr hsel
    · obtain ⟨row, -, rfl⟩ := List.mem_map.mp hv
      cases hsel

/-- A statement of another transaction. -/
theorem Made.exec_other (h : Made t ss vs) (hne : t ≠ u) (hfree : Free clash u s vs) :
    Made t ss (exec u s vs) where
  view := by
    rw [view_exec_other hne hfree, stored_exec]
    exact h.view
  locked v hv s' hs' hsel := by
    rcases List.mem_append.mp hv with hv | hv
    · obtain ⟨v₀, hmem, rfl⟩ := List.mem_map.mp hv
      rw [Version.committed_exec] at hsel
      have hwritten := h.locked v₀ hmem s' hs' hsel
      have hskip := hfree.1 v₀ hmem (Version.lockedFor_of_written hne.symm hwritten)
      rwa [Version.exec, hskip]
    · obtain ⟨row, -, rfl⟩ := List.mem_map.mp hv
      cases hsel

/-- What the others have written, the statements do not select. -/
theorem Made.confined (h : Made t ss vs) (hne : t ≠ u) (hmissed : NoneMissed u ss vs) :
    Confined (fun r => ∀ s ∈ ss, s.selects r = false) u vs := by
  intro v hv hw
  refine ⟨fun r hr s hs => ?_, fun r hr s hs => ?_⟩
  · by_contra hsel
    have hwritten := h.locked v hv s hs (by simpa [hr] using hsel)
    rw [Version.not_written_of_written hne.symm hwritten] at hw
    cases hw
  · exact hmissed r (List.mem_filterMap.mpr ⟨v, hv, by simpa [hw] using hr⟩) s hs

/-- A commit by another transaction. -/
theorem Made.commit_other (h : Made t ss vs) (hne : t ≠ u) (hmissed : NoneMissed u ss vs) :
    Made t ss (commit u vs) where
  view := view_commit_other hne (h.confined hne hmissed) (fun s hs r hr => hr s hs) h.view
  locked v hv s hs hsel := by
    obtain ⟨v₀, hmem, rfl⟩ := List.mem_map.mp hv
    rw [Version.committed_commit] at hsel
    cases hw : v₀.writtenBy u with
    | true =>
      obtain ⟨r, hseen, hr⟩ := (Option.any_eq_true _ _).mp hsel
      rw [(h.confined hne hmissed v₀ hmem hw).2 r hseen s hs] at hr
      cases hr
    | false =>
      rw [Version.seenBy_of_not_written hw] at hsel
      rw [Version.commit_of_not_written hw]
      exact h.locked v₀ hmem s hs hsel

theorem Made.rollback_other (h : Made t ss vs) (hne : t ≠ u) : Made t ss (rollback u vs) where
  view := by
    rw [view_rollback_other hne, stored_rollback]
    exact h.view
  locked v hv s hs hsel := by
    obtain ⟨v₀, hmem, rfl⟩ := List.mem_map.mp hv
    rw [Version.committed_rollback] at hsel
    have hwritten := h.locked v₀ hmem s hs hsel
    rwa [Version.rollback_of_written_other hne hwritten]

end Rows

/-! ### The tables of a database -/

section Databases

variable {ι τ : Type*} [DecidableEq ι] [DecidableEq τ] {Row : τ → Type*}

/-- A statement on one of the tables. -/
structure TableStatement (Row : τ → Type*) where
  table : τ
  statement : Statement (Row table)

/-- The tables, with the writes of the transactions. -/
abbrev Versions (ι : Type*) (Row : τ → Type*) := (T : τ) → List (Version ι (Row T))

/-- The statements on the table `T`. -/
def statementsOn (T : τ) (ss : List (TableStatement Row)) : List (Statement (Row T)) :=
  ss.filterMap fun s => if h : s.table = T then some (h ▸ s.statement) else none

/-- The rows that several statements leave, when none violates a constraint. -/
def afterAll (ss : List (TableStatement Row)) (rows : (T : τ) → List (Row T)) (T : τ) : List (Row T) :=
  after (statementsOn T ss) (rows T)

def execOn (t : ι) (s : TableStatement Row) (db : Versions ι Row) : Versions ι Row :=
  Function.update db s.table (exec t s.statement (db s.table))

def viewAll (t : ι) (db : Versions ι Row) (T : τ) : List (Row T) := view t (db T)

def storedAll (db : Versions ι Row) (T : τ) : List (Row T) := stored (db T)

def commitAll (t : ι) (db : Versions ι Row) : Versions ι Row := fun T => commit t (db T)

def rollbackAll (t : ι) (db : Versions ι Row) : Versions ι Row := fun T => rollback t (db T)

/-- What the statements `ss` of `t` have made of the tables. -/
def MadeAll (t : ι) (ss : List (TableStatement Row)) (db : Versions ι Row) : Prop :=
  ∀ T, Made t (statementsOn T ss) (db T)

/-- The statements `ss` select none of the rows that `u` has written. -/
def NoneMissedAll (u : ι) (ss : List (TableStatement Row)) (db : Versions ι Row) : Prop :=
  ∀ T, NoneMissed u (statementsOn T ss) (db T)

variable {t u : ι} {s : TableStatement Row} {ss ss' : List (TableStatement Row)}
  {db : Versions ι Row}

theorem statementsOn_append (T : τ) :
    statementsOn T (ss ++ ss') = statementsOn T ss ++ statementsOn T ss' := List.filterMap_append

theorem statementsOn_self : statementsOn s.table [s] = [s.statement] := by simp [statementsOn]

theorem statementsOn_of_ne {T : τ} (h : s.table ≠ T) : statementsOn T [s] = [] := by
  simp [statementsOn, h]

variable (Row) in
/-- The statements of one table. -/
theorem statementsOn_map_self (T : τ) (xs : List (Statement (Row T))) :
    statementsOn T (xs.map fun s => (⟨T, s⟩ : TableStatement Row)) = xs := by
  rw [statementsOn, List.filterMap_map]
  simp

variable (Row) in
theorem statementsOn_map_of_ne (T' : τ) {T : τ} (h : T' ≠ T) (xs : List (Statement (Row T'))) :
    statementsOn T (xs.map fun s => (⟨T', s⟩ : TableStatement Row)) = [] := by
  rw [statementsOn, List.filterMap_map, List.filterMap_eq_nil_iff]
  intro s _
  simp [h]

/-! ### What the statements leave -/

theorem afterAll_cons (rows : (T : τ) → List (Row T)) :
    afterAll (s :: ss) rows = afterAll ss (Function.update rows s.table
      (s.statement.rows (rows s.table))) := by
  funext T
  have happend : statementsOn T ([s] ++ ss) = statementsOn T [s] ++ statementsOn T ss :=
    statementsOn_append T
  rw [List.singleton_append] at happend
  unfold afterAll
  rw [happend]
  by_cases h : s.table = T
  · subst h
    rw [statementsOn_self, Function.update_self]
    rfl
  · rw [statementsOn_of_ne h, List.nil_append, Function.update_of_ne (Ne.symm h)]

theorem execOn_self : execOn t s db s.table = exec t s.statement (db s.table) :=
  Function.update_self ..

theorem execOn_of_ne {T : τ} (h : T ≠ s.table) : execOn t s db T = db T := Function.update_of_ne h ..

theorem storedAll_execOn : storedAll (execOn t s db) = storedAll db := by
  funext T
  by_cases h : T = s.table
  · subst h
    rw [storedAll, execOn_self, stored_exec, storedAll]
  · rw [storedAll, execOn_of_ne h, storedAll]

omit [DecidableEq τ] in
theorem storedAll_commitAll : storedAll (commitAll t db) = viewAll t db :=
  funext fun _ => stored_commit

omit [DecidableEq τ] in
theorem storedAll_rollbackAll : storedAll (rollbackAll t db) = storedAll db :=
  funext fun _ => stored_rollback

/-! ### The statements of a transaction -/

theorem madeAll_nil (h : ∀ T, ∀ v ∈ db T, v.writtenBy t = false) : MadeAll t [] db :=
  fun T => made_nil (h T)

theorem madeAll_commit_self : MadeAll t [] (commitAll t db) := fun _ => made_commit_self

theorem madeAll_rollback_self : MadeAll t [] (rollbackAll t db) := fun _ => made_rollback_self

theorem MadeAll.exec_self (h : MadeAll t ss db) : MadeAll t (ss ++ [s]) (execOn t s db) := by
  intro T
  rw [statementsOn_append]
  by_cases hT : s.table = T
  · subst hT
    rw [statementsOn_self, execOn_self]
    exact (h s.table).exec_self
  · rw [statementsOn_of_ne hT, List.append_nil, execOn_of_ne (Ne.symm hT)]
    exact h T

theorem MadeAll.exec_other {clash : Row s.table → Row s.table → Prop} (h : MadeAll t ss db)
    (hne : t ≠ u) (hfree : Free clash u s.statement (db s.table)) :
    MadeAll t ss (execOn u s db) := by
  intro T
  by_cases hT : T = s.table
  · subst hT
    rw [execOn_self]
    exact (h s.table).exec_other hne hfree
  · rw [execOn_of_ne hT]
    exact h T

theorem MadeAll.commit_other (h : MadeAll t ss db) (hne : t ≠ u) (hmissed : NoneMissedAll u ss db) :
    MadeAll t ss (commitAll u db) := fun T => (h T).commit_other hne (hmissed T)

theorem MadeAll.rollback_other (h : MadeAll t ss db) (hne : t ≠ u) : MadeAll t ss (rollbackAll u db) :=
  fun T => (h T).rollback_other hne

/-- **A commit** stores what the statements of the transaction make of the stored rows. -/
theorem MadeAll.stored_commit (h : MadeAll t ss db) (T : τ) :
    (storedAll (commitAll t db) T).Perm (afterAll ss (storedAll db) T) := by
  rw [storedAll_commitAll]
  exact (h T).view

end Databases

end ReadCommitted
