import Logion.Lib.Fallible
import Mathlib.Data.List.Perm.Basic

/-!
# Table — rows under unique constraints

A table is a list of rows, whose order has no meaning.  `clash r r'` says that the rows `r` and `r'`
may not be in the table together: they have the same primary key, or agree on the columns of a unique
index.  The constraints are checked after each statement.

* `Statement`: DELETE and UPDATE with a WHERE clause, and INSERT of one row.
* `exec_delete`, `exec_insert`, `exec_update`: what a statement does, up to the order of the rows.
* `Consistent.perm`, `consistent_of_groups`: tables without violation.
* `filter_group_self`, `filter_group_of_ne`: the rows of one group are replaced.
-/

namespace Table

open Fallible

variable {ρ : Type*}

/-- A violated constraint. -/
inductive Violation
  | duplicateKey
  deriving DecidableEq, Repr

inductive Statement (ρ : Type*)
  | delete (condition : ρ → Bool)
  | insert (row : ρ)
  | update (condition : ρ → Bool) (set : ρ → ρ)

variable (clash : ρ → ρ → Prop)

/-- No two rows violate a constraint. -/
def Consistent (t : List ρ) : Prop := t.Pairwise fun r r' => ¬ clash r r'

instance [DecidableRel clash] (t : List ρ) : Decidable (Consistent clash t) :=
  inferInstanceAs (Decidable (t.Pairwise _))

/-- The rows that a statement leaves, when it violates no constraint. -/
def Statement.rows (s : Statement ρ) (t : List ρ) : List ρ :=
  match s with
  | .delete condition => t.filter fun r => !condition r
  | .insert row => t ++ [row]
  | .update condition set => t.map fun r => if condition r then set r else r

/-- The WHERE clause. -/
def Statement.selects (s : Statement ρ) : ρ → Bool :=
  match s with
  | .delete condition => condition
  | .insert _ => fun _ => false
  | .update condition _ => condition

/-- What becomes of a row that the statement selects. -/
def Statement.result (s : Statement ρ) (r : ρ) : Option ρ :=
  match s with
  | .delete _ => none
  | .insert _ => some r
  | .update _ set => some (set r)

def Statement.inserted (s : Statement ρ) : List ρ :=
  match s with
  | .insert row => [row]
  | _ => []

/-- A statement, with its constraints. -/
def Statement.exec [DecidableRel clash] (s : Statement ρ) (t : List ρ) :
    Except Violation (List ρ) :=
  if Consistent clash (s.rows t) then .ok (s.rows t) else .error .duplicateKey

/-- Several statements, none of which violates a constraint. -/
def execAll [DecidableRel clash] (ss : List (Statement ρ)) (t : List ρ) :
    Except Violation (List ρ) :=
  ss.foldlM (fun t s => s.exec clash t) t

/-- The rows that several statements leave, when none violates a constraint. -/
def after (ss : List (Statement ρ)) (t : List ρ) : List ρ := ss.foldl (fun t s => s.rows t) t

variable {clash} {t t' : List ρ} {r r' : ρ}

/-! ### Consistent tables -/

theorem consistent_nil : Consistent clash ([] : List ρ) := List.Pairwise.nil

theorem Consistent.perm (hs : ∀ r r', clash r r' → clash r' r) (h : Consistent clash t) (hp : t.Perm t') :
    Consistent clash t' :=
  (hp.pairwise_iff fun hn hc => hn (hs _ _ hc)).mp h

theorem Consistent.filter (h : Consistent clash t) (p : ρ → Bool) :
    Consistent clash (t.filter p) := h.sublist List.filter_sublist

theorem consistent_cons :
    Consistent clash (r :: t) ↔ (∀ x ∈ t, ¬ clash r x) ∧ Consistent clash t := List.pairwise_cons

theorem Consistent.append_singleton (hs : ∀ r r', clash r r' → clash r' r) (h : Consistent clash t)
    (hr : ∀ x ∈ t, ¬ clash r x) : Consistent clash (t ++ [r]) :=
  (consistent_cons.mpr ⟨hr, h⟩).perm hs (List.perm_append_singleton r t).symm

/-- Rows of different groups never clash. -/
theorem consistent_of_groups {κ : Type*} [DecidableEq κ] {group : ρ → κ}
    (hgroup : ∀ r r', clash r r' → group r = group r')
    (h : ∀ g, Consistent clash (t.filter fun r => group r = g)) : Consistent clash t := by
  induction t with
  | nil => exact consistent_nil
  | cons r t ih =>
    refine consistent_cons.mpr ⟨fun x hx hc => ?_, ih fun g => (h g).sublist ?_⟩
    · have hr := h (group r)
      rw [List.filter_cons_of_pos (by simp)] at hr
      refine (consistent_cons.mp hr).1 x (List.mem_filter.mpr ⟨hx, ?_⟩) hc
      simpa using (hgroup r x hc).symm
    · exact (List.sublist_cons_self r t).filter _

/-! ### The rows of one group -/

section Groups

variable {κ : Type*} [DecidableEq κ] (group : ρ → κ) {rows : List ρ} {a b : κ}

/-- The rows of the other groups, and those of this one. -/
theorem perm_group (t : List ρ) (a : κ) :
    t.Perm (t.filter (fun r => group r ≠ a) ++ t.filter fun r => group r = a) := by
  have hperm := List.filter_append_perm (fun r => decide (group r = a)) t
  refine hperm.symm.trans (List.perm_append_comm.trans ?_)
  simp

/-- The rows of the group are replaced. -/
theorem filter_group_self (h : t'.Perm (t.filter (fun r => group r ≠ a) ++ rows))
    (hrows : ∀ r ∈ rows, group r = a) : (t'.filter fun r => group r = a).Perm rows := by
  have hperm := h.filter fun r => group r = a
  have hnone : (t.filter fun r => group r ≠ a).filter (fun r => group r = a) = [] := by
    rw [List.filter_eq_nil_iff]
    intro r hr
    simpa using (List.mem_filter.mp hr).2
  have hall : rows.filter (fun r => group r = a) = rows := by
    rw [List.filter_eq_self]
    exact fun r hr => by simpa using hrows r hr
  rwa [List.filter_append, hnone, hall] at hperm

/-- Those of the other groups are left alone. -/
theorem filter_group_of_ne (h : t'.Perm (t.filter (fun r => group r ≠ a) ++ rows))
    (hrows : ∀ r ∈ rows, group r = a) (hne : b ≠ a) :
    (t'.filter fun r => group r = b).Perm (t.filter fun r => group r = b) := by
  have hperm := h.filter fun r => group r = b
  have hkept : (t.filter fun r => group r ≠ a).filter (fun r => group r = b) =
      t.filter fun r => group r = b := by
    rw [List.filter_filter]
    refine List.filter_congr fun r _ => ?_
    by_cases hr : group r = b <;> simp [hr, hne]
  have hnone : rows.filter (fun r => group r = b) = [] := by
    rw [List.filter_eq_nil_iff]
    intro r hr
    simpa [hrows r hr] using hne.symm
  rwa [List.filter_append, hkept, hnone, List.append_nil] at hperm

end Groups

/-! ### Statements -/

variable [DecidableRel clash]

theorem exec_ok {s : Statement ρ} : s.exec clash t = .ok t' ↔
    Consistent clash (s.rows t) ∧ t' = s.rows t := by
  unfold Statement.exec
  by_cases h : Consistent clash (s.rows t)
  · simp [h, eq_comm]
  · simp [h]

/-- A deletion violates nothing. -/
theorem exec_delete (h : Consistent clash t) (condition : ρ → Bool) :
    (Statement.delete condition).exec clash t = .ok (t.filter fun r => !condition r) :=
  exec_ok.mpr ⟨h.filter _, rfl⟩

/-- The insertion of a row that clashes with none. -/
theorem exec_insert (hs : ∀ r r', clash r r' → clash r' r) (h : Consistent clash t)
    (hr : ∀ x ∈ t, ¬ clash r x) : (Statement.insert r).exec clash t = .ok (t ++ [r]) :=
  exec_ok.mpr ⟨h.append_singleton hs hr, rfl⟩

/-- The rows of an UPDATE whose condition selects one row. -/
theorem rows_update_one {condition : ρ → Bool} (set : ρ → ρ) (hp : t.Perm (r :: t'))
    (hr : condition r = true) (ht' : ∀ x ∈ t', condition x = false) :
    ((Statement.update condition set).rows t).Perm (set r :: t') := by
  have hmap := hp.map fun x => if condition x then set x else x
  have hrest : t'.map (fun x => if condition x then set x else x) = t' := by
    conv_rhs => rw [← List.map_id t']
    exact List.map_congr_left fun x hx => by simp [ht' x hx]
  rwa [List.map_cons, if_pos hr, hrest] at hmap

/-- An UPDATE of one row. -/
theorem exec_update {condition : ρ → Bool} (set : ρ → ρ) (hs : ∀ r r', clash r r' → clash r' r)
    (h : Consistent clash t) (hp : t.Perm (r :: t')) (hr : condition r = true)
    (ht' : ∀ x ∈ t', condition x = false) (hset : ∀ x ∈ t', ¬ clash (set r) x) :
    ∃ t₁, (Statement.update condition set).exec clash t = .ok t₁ ∧ t₁.Perm (set r :: t') ∧
      Consistent clash t₁ := by
  have hrows := rows_update_one set hp hr ht'
  have hrest := (consistent_cons.mp (h.perm hs hp)).2
  have hconsistent : Consistent clash (Statement.rows (.update condition set) t) :=
    (consistent_cons.mpr ⟨hset, hrest⟩).perm hs hrows.symm
  exact ⟨_, exec_ok.mpr ⟨hconsistent, rfl⟩, hrows, hconsistent⟩

theorem execAll_append {ss ss' : List (Statement ρ)} {t₁ t₂ : List ρ}
    (h : execAll clash ss t = .ok t₁) (h' : execAll clash ss' t₁ = .ok t₂) :
    execAll clash (ss ++ ss') t = .ok t₂ := by
  unfold execAll at *
  rw [List.foldlM_append, h]
  exact h'

theorem execAll_cons {s : Statement ρ} {ss : List (Statement ρ)} {t₁ t₂ : List ρ}
    (h : s.exec clash t = .ok t₁) (h' : execAll clash ss t₁ = .ok t₂) :
    execAll clash (s :: ss) t = .ok t₂ := by
  unfold execAll
  rw [List.foldlM_cons, h]
  exact h'

/-- Deletions, one after the other. -/
theorem execAll_deletes (h : Consistent clash t) (conditions : List (ρ → Bool)) :
    execAll clash (conditions.map .delete) t =
      .ok (t.filter fun r => !conditions.any fun condition => condition r) := by
  induction conditions generalizing t with
  | nil => simp [execAll]
  | cons condition conditions ih =>
    refine execAll_cons (exec_delete h condition) ?_
    rw [ih (h.filter _), List.filter_filter]
    have heq : (fun r => !(conditions.any fun condition => condition r) && !condition r) =
        fun r => !((condition :: conditions).any fun condition => condition r) := by
      funext r
      simp [Bool.and_comm]
    rw [heq]

/-! ### The rows that a statement does not select -/

omit [DecidableRel clash]

/-- The three kinds of statements in one. -/
theorem rows_eq (s : Statement ρ) (t : List ρ) :
    s.rows t = t.filterMap (fun r => if s.selects r then s.result r else some r) ++ s.inserted := by
  cases s with
  | delete condition =>
    simp only [Statement.rows, Statement.selects, Statement.result, Statement.inserted, List.append_nil]
    rw [← List.filterMap_eq_filter]
    refine List.filterMap_congr fun r _ => ?_
    by_cases hc : condition r <;> simp [Option.guard, hc]
  | insert row => simp [Statement.rows, Statement.selects, Statement.inserted]
  | update condition set =>
    simp only [Statement.rows, Statement.selects, Statement.result, Statement.inserted, List.append_nil]
    rw [← List.filterMap_eq_map]
    refine List.filterMap_congr fun r _ => ?_
    by_cases hc : condition r <;> simp [hc]

/-- What all the rows have, if the rows that are written have it too. -/
theorem forall_rows {P : ρ → Prop} {s : Statement ρ} (ht : ∀ r ∈ t, P r)
    (hresult : ∀ r ∈ t, s.selects r = true → ∀ r', s.result r = some r' → P r')
    (hinserted : ∀ r ∈ s.inserted, P r) : ∀ r ∈ s.rows t, P r := by
  intro r hr
  rw [rows_eq] at hr
  rcases List.mem_append.mp hr with hr | hr
  · obtain ⟨r₀, hr₀, heq⟩ := List.mem_filterMap.mp hr
    split_ifs at heq with hsel
    · exact hresult r₀ hr₀ hsel r heq
    · cases heq
      exact ht r hr₀
  · exact hinserted r hr

theorem rows_perm (s : Statement ρ) (h : t.Perm t') : (s.rows t).Perm (s.rows t') := by
  rw [rows_eq, rows_eq]
  exact (h.filterMap _).append_right _

/-- They stay, beside what the statement makes of the others. -/
theorem rows_append {s : Statement ρ} (h : ∀ r ∈ t', s.selects r = false) :
    (s.rows (t ++ t')).Perm (s.rows t ++ t') := by
  have hkept : t'.filterMap (fun r => if s.selects r then s.result r else some r) = t' := by
    rw [List.filterMap_congr (g := some) fun r hr => by simp [h r hr], List.filterMap_some]
  rw [rows_eq, rows_eq, List.filterMap_append, hkept, List.append_assoc, List.append_assoc]
  exact List.perm_append_comm.append_left _

theorem after_perm (ss : List (Statement ρ)) (h : t.Perm t') : (after ss t).Perm (after ss t') := by
  induction ss generalizing t t' with
  | nil => exact h
  | cons s ss ih => exact ih (rows_perm s h)

theorem after_append {ss : List (Statement ρ)} (h : ∀ s ∈ ss, ∀ r ∈ t', s.selects r = false) :
    (after ss (t ++ t')).Perm (after ss t ++ t') := by
  induction ss generalizing t with
  | nil => exact List.Perm.refl _
  | cons s ss ih =>
    have hfirst := rows_append (t := t) (h s List.mem_cons_self)
    exact (after_perm ss hfirst).trans (ih fun s' hs' => h s' (List.mem_cons_of_mem s hs'))

theorem after_concat (ss : List (Statement ρ)) (s : Statement ρ) :
    after (ss ++ [s]) t = s.rows (after ss t) := by
  simp [after]

end Table
