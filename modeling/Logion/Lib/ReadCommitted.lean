import Logion.Lib.Table

/-!
# ReadCommitted — tables written by several transactions at once

Every row carries what is committed and the write of the transaction that has it locked.  A transaction
sees its own writes and, at each statement, what the others have committed so far.  It waits for a row
that another one has locked, and for the outcome of a write that its own would clash with.

* `view_exec_self`, `view_exec_other`: a statement acts on the view of its transaction, and on no other.
* `KeepsOthers`: a step that changes a row for one transaction only.
* `stored_commit`: a commit stores the view of its transaction.
* `Confined`: a transaction that has written only rows of a kind.
* `view_commit_other`: a commit of rows that a transaction does not select leaves it as if it had
  started afterwards.
-/

namespace ReadCommitted

open Table

variable {ι ρ : Type*}

/-- A row: what is committed, and the write of the transaction that has not committed yet; `none` for
no row. -/
structure Version (ι ρ : Type*) where
  committed : Option ρ
  pending : Option (ι × Option ρ)

variable [DecidableEq ι]

namespace Version

variable (t : ι) (v : Version ι ρ)

/-- `t` has written the row, and not committed yet. -/
def writtenBy : Bool := v.pending.any fun p => p.1 = t

/-- Another transaction has. -/
def lockedFor : Bool := v.pending.any fun p => p.1 ≠ t

/-- What `t` sees. -/
def seenBy : Option ρ :=
  match v.pending with
  | some (u, r) => if u = t then r else v.committed
  | none => v.committed

def write (r : Option ρ) : Version ι ρ := ⟨v.committed, some (t, r)⟩

def commit : Version ι ρ := if v.writtenBy t then ⟨v.seenBy t, none⟩ else v

def rollback : Version ι ρ := if v.writtenBy t then ⟨v.committed, none⟩ else v

variable {t v} {u : ι} {r : Option ρ}

theorem seenBy_of_not_written (h : v.writtenBy t = false) : v.seenBy t = v.committed := by
  obtain ⟨c, p⟩ := v
  cases p with
  | none => rfl
  | some p =>
    have hne : p.1 ≠ t := by simpa [writtenBy] using h
    simp [seenBy, hne]

theorem not_written_of_written (hne : u ≠ t) (h : v.writtenBy t = true) : v.writtenBy u = false := by
  obtain ⟨c, p⟩ := v
  cases p with
  | none => rfl
  | some p =>
    have heq : p.1 = t := by simpa [writtenBy] using h
    simp [writtenBy, heq, hne.symm]

theorem lockedFor_of_written (hne : u ≠ t) (h : v.writtenBy t = true) : v.lockedFor u = true := by
  obtain ⟨c, p⟩ := v
  cases p with
  | none => cases h
  | some p =>
    have heq : p.1 = t := by simpa [writtenBy] using h
    simp [lockedFor, heq, hne.symm]

@[simp] theorem writtenBy_write : (v.write t r).writtenBy t = true := by simp [write, writtenBy]

@[simp] theorem seenBy_write : (v.write t r).seenBy t = r := by simp [write, seenBy]

theorem seenBy_write_of_ne (hne : u ≠ t) : (v.write t r).seenBy u = v.committed := by
  simp [write, seenBy, hne.symm]

theorem commit_of_not_written (h : v.writtenBy t = false) : v.commit t = v := by simp [commit, h]

theorem commit_of_written (h : v.writtenBy t = true) : v.commit t = ⟨v.seenBy t, none⟩ := by
  simp [commit, h]

theorem rollback_of_not_written (h : v.writtenBy t = false) : v.rollback t = v := by
  simp [rollback, h]

theorem rollback_of_written (h : v.writtenBy t = true) : v.rollback t = ⟨v.committed, none⟩ := by
  simp [rollback, h]

/-- After a commit, the committed row is the one that the transaction saw. -/
theorem committed_commit : (v.commit t).committed = v.seenBy t := by
  cases h : v.writtenBy t with
  | true => rw [commit_of_written h]
  | false => rw [commit_of_not_written h, seenBy_of_not_written h]

theorem committed_rollback : (v.rollback t).committed = v.committed := by
  cases h : v.writtenBy t with
  | true => rw [rollback_of_written h]
  | false => rw [rollback_of_not_written h]

theorem writtenBy_commit : (v.commit t).writtenBy t = false := by
  cases h : v.writtenBy t with
  | true => rw [commit_of_written h]; rfl
  | false => rw [commit_of_not_written h, h]

theorem writtenBy_rollback : (v.rollback t).writtenBy t = false := by
  cases h : v.writtenBy t with
  | true => rw [rollback_of_written h]; rfl
  | false => rw [rollback_of_not_written h, h]

/-- What `u` has written, the others leave alone. -/
theorem rollback_of_written_other (hne : u ≠ t) (h : v.writtenBy u = true) : v.rollback t = v :=
  rollback_of_not_written (not_written_of_written hne.symm h)

theorem seenBy_rollback (hne : u ≠ t) : (v.rollback t).seenBy u = v.seenBy u := by
  cases ht : v.writtenBy t with
  | true =>
    rw [rollback_of_written ht, seenBy_of_not_written (not_written_of_written hne ht)]
    rfl
  | false => rw [rollback_of_not_written ht]

end Version

/-! ### Steps of one transaction -/

/-- The row changes for `t` only. -/
structure KeepsOthers (t : ι) (row row' : Version ι ρ) : Prop where
  unwritten : ∀ u, u ≠ t → row.writtenBy u = false → row'.writtenBy u = false
  pending : ∀ u, u ≠ t → ∀ w, row.pending = some (u, w) → row'.pending = some (u, w)

section

variable {t : ι} {row : Version ι ρ}

theorem writtenBy_of_pending {w : Option ρ} (h : row.pending = some (t, w)) :
    row.writtenBy t = true := by
  simp [Version.writtenBy, h]

theorem KeepsOthers.refl (t : ι) (row : Version ι ρ) : KeepsOthers t row row :=
  ⟨fun _ _ h => h, fun _ _ _ h => h⟩

theorem KeepsOthers.write (hfree : row.lockedFor t = false) (w : Option ρ) :
    KeepsOthers t row (row.write t w) where
  unwritten u hne _ := by simp [Version.write, Version.writtenBy, hne.symm]
  pending u hne w' h := by simp [Version.lockedFor, h, hne] at hfree

theorem KeepsOthers.rollback (t : ι) (row : Version ι ρ) :
    KeepsOthers t row (row.rollback t) where
  unwritten u hne h := by
    cases ht : row.writtenBy t with
    | true => rw [Version.rollback_of_written ht]; rfl
    | false => rwa [Version.rollback_of_not_written ht]
  pending u hne w h := by
    rwa [Version.rollback_of_written_other hne (writtenBy_of_pending h)]

theorem KeepsOthers.commit (t : ι) (row : Version ι ρ) :
    KeepsOthers t row (row.commit t) where
  unwritten u hne h := by
    cases ht : row.writtenBy t with
    | true => rw [Version.commit_of_written ht]; rfl
    | false => rwa [Version.commit_of_not_written ht]
  pending u hne w h := by
    rwa [Version.commit_of_not_written
      (Version.not_written_of_written hne.symm (writtenBy_of_pending h))]

end

/-! ### Tables -/

/-- The rows that `t` sees. -/
def view (t : ι) (vs : List (Version ι ρ)) : List ρ := vs.filterMap (Version.seenBy t)

/-- The committed rows. -/
def stored (vs : List (Version ι ρ)) : List ρ := vs.filterMap Version.committed

def commit (t : ι) (vs : List (Version ι ρ)) : List (Version ι ρ) := vs.map (Version.commit t)

def rollback (t : ι) (vs : List (Version ι ρ)) : List (Version ι ρ) := vs.map (Version.rollback t)

/-- The rows that `t` has written, as it sees them. -/
def written (t : ι) (vs : List (Version ι ρ)) : List ρ :=
  vs.filterMap fun v => if v.writtenBy t then v.seenBy t else none

/-- The rows that the other transactions have written. -/
def writtenByOthers (t : ι) (vs : List (Version ι ρ)) : List ρ :=
  vs.filterMap fun v => if v.lockedFor t then v.pending.bind Prod.snd else none

/-- A statement of `t` on one version. -/
def Version.exec (t : ι) (s : Statement ρ) (v : Version ι ρ) : Version ι ρ :=
  if (v.seenBy t).any s.selects then v.write t ((v.seenBy t).bind s.result) else v

/-- A statement of `t`. -/
def exec (t : ι) (s : Statement ρ) (vs : List (Version ι ρ)) : List (Version ι ρ) :=
  vs.map (Version.exec t s) ++ s.inserted.map fun row => ⟨none, some (t, some row)⟩

/-- The statement does not wait: no row that it selects is locked, and no row that it writes clashes
with a row that another transaction has written. -/
def Free (clash : ρ → ρ → Prop) (t : ι) (s : Statement ρ) (vs : List (Version ι ρ)) : Prop :=
  (∀ v ∈ vs, v.lockedFor t = true → (v.seenBy t).any s.selects = false) ∧
    ∀ r ∈ written t (exec t s vs), ∀ r' ∈ writtenByOthers t (exec t s vs), ¬ clash r r'

instance (clash : ρ → ρ → Prop) [DecidableRel clash] (t : ι) (s : Statement ρ)
    (vs : List (Version ι ρ)) : Decidable (Free clash t s vs) :=
  inferInstanceAs (Decidable (_ ∧ _))

variable {t u : ι} {s : Statement ρ} {vs : List (Version ι ρ)} {clash : ρ → ρ → Prop}

/-! ### Statements -/

namespace Version

variable {v : Version ι ρ}

theorem committed_exec : (v.exec t s).committed = v.committed := by
  unfold exec
  split_ifs <;> rfl

theorem seenBy_exec : (v.exec t s).seenBy t =
    (v.seenBy t).bind fun r => if s.selects r then s.result r else some r := by
  unfold exec
  cases hseen : v.seenBy t with
  | none => simp [hseen]
  | some r => cases hsel : s.selects r <;> simp [hsel, hseen]

/-- A version that is not locked for `t`, seen by another transaction. -/
theorem seenBy_exec_of_ne (hne : u ≠ t)
    (hfree : v.lockedFor t = true → (v.seenBy t).any s.selects = false) :
    (v.exec t s).seenBy u = v.seenBy u := by
  unfold exec
  split_ifs with hsel
  · have hu : v.writtenBy u = false := by
      by_contra hu
      rw [hfree (lockedFor_of_written hne.symm (by simpa using hu))] at hsel
      cases hsel
    rw [seenBy_write_of_ne hne, seenBy_of_not_written hu]
  · rfl

/-- `t` keeps what it has written, and writes what the statement selects. -/
theorem written_exec_self (h : v.writtenBy t = true ∨ v.committed.any s.selects = true) :
    (v.exec t s).writtenBy t = true := by
  unfold exec
  split_ifs with hsel
  · exact writtenBy_write
  · rcases h with h | h
    · exact h
    · by_contra hw
      rw [seenBy_of_not_written (by simpa using hw)] at hsel
      exact hsel h

end Version

/-- A statement acts on the view of its transaction. -/
theorem view_exec_self : view t (exec t s vs) = s.rows (view t vs) := by
  rw [rows_eq, view, exec, List.filterMap_append, view, List.filterMap_filterMap, List.filterMap_map]
  congr 1
  · exact List.filterMap_congr fun v _ => Version.seenBy_exec
  · rw [List.filterMap_map]
    have hsome : (Version.seenBy t ∘ fun row : ρ => (⟨none, some (t, some row)⟩ : Version ι ρ)) = some := by
      funext row
      simp [Version.seenBy]
    rw [hsome, List.filterMap_some]

/-- The other transactions do not see it. -/
theorem view_exec_other (hne : u ≠ t) (hfree : Free clash t s vs) :
    view u (exec t s vs) = view u vs := by
  rw [view, exec, List.filterMap_append, List.filterMap_map, List.filterMap_map]
  have hnone : s.inserted.filterMap (Version.seenBy u ∘
      fun row => (⟨none, some (t, some row)⟩ : Version ι ρ)) = [] := by
    rw [List.filterMap_eq_nil_iff]
    intro row _
    simp [Version.seenBy, hne.symm]
  rw [hnone, List.append_nil]
  exact List.filterMap_congr fun v hv => Version.seenBy_exec_of_ne hne (hfree.1 v hv)

theorem stored_exec : stored (exec t s vs) = stored vs := by
  rw [stored, exec, List.filterMap_append, List.filterMap_map, List.filterMap_map]
  have hnone : s.inserted.filterMap (Version.committed ∘
      fun row => (⟨none, some (t, some row)⟩ : Version ι ρ)) = [] := by
    rw [List.filterMap_eq_nil_iff]
    exact fun row _ => rfl
  rw [hnone, List.append_nil]
  exact List.filterMap_congr fun v _ => Version.committed_exec

/-! ### The end of a transaction -/

/-- A commit stores the view of its transaction. -/
theorem stored_commit : stored (commit t vs) = view t vs := by
  rw [stored, commit, List.filterMap_map]
  exact List.filterMap_congr fun v _ => Version.committed_commit

theorem stored_rollback : stored (rollback t vs) = stored vs := by
  rw [stored, rollback, List.filterMap_map]
  exact List.filterMap_congr fun v _ => Version.committed_rollback

theorem view_rollback_other (hne : u ≠ t) : view u (rollback t vs) = view u vs := by
  rw [view, rollback, List.filterMap_map]
  exact List.filterMap_congr fun v _ => Version.seenBy_rollback hne

/-! ### What a transaction has written -/

/-- `t` has written rows in `P` only: what was there and what is to be there are in `P`. -/
def Confined (P : ρ → Prop) (t : ι) (vs : List (Version ι ρ)) : Prop :=
  ∀ v ∈ vs, v.writtenBy t = true → (∀ r, v.committed = some r → P r) ∧ ∀ r, v.seenBy t = some r → P r

variable {P : ρ → Prop}

/-! ### A commit, seen by the others -/

/-- A table cut in two. -/
theorem filterMap_split {α β : Type*} (p : α → Bool) (f : α → Option β) (xs : List α) :
    (xs.filterMap f).Perm (xs.filterMap (fun x => if p x then none else f x) ++
      xs.filterMap fun x => if p x then f x else none) := by
  induction xs with
  | nil => exact List.Perm.refl _
  | cons x xs ih =>
    cases hf : f x with
    | none => simpa [List.filterMap_cons, hf] using ih
    | some y =>
      cases hp : p x with
      | false => simpa [List.filterMap_cons, hf, hp] using ih
      | true =>
        have hperm := (ih.cons y).trans List.perm_middle.symm
        simpa [List.filterMap_cons, hf, hp] using hperm

/-- What `u` has written is replaced, in what is stored and in what the others see. -/
theorem commit_split (hP : Confined P u vs) : ∃ kept old new : List ρ,
    (stored vs).Perm (kept ++ old) ∧ (stored (commit u vs)).Perm (kept ++ new) ∧
      (∀ r ∈ old, P r) ∧ (∀ r ∈ new, P r) ∧ ∀ t, t ≠ u → ∃ seen,
        (view t vs).Perm (seen ++ old) ∧ (view t (commit u vs)).Perm (seen ++ new) := by
  refine ⟨vs.filterMap fun v => if v.writtenBy u then none else v.committed,
    vs.filterMap fun v => if v.writtenBy u then v.committed else none,
    vs.filterMap fun v => if v.writtenBy u then v.seenBy u else none,
    ?_, ?_, fun r hr => ?_, fun r hr => ?_,
    fun t hne => ⟨vs.filterMap fun v => if v.writtenBy u then none else v.seenBy t, ?_, ?_⟩⟩
  · exact filterMap_split (Version.writtenBy u) Version.committed vs
  · have hsplit := filterMap_split (Version.writtenBy u) (Version.seenBy u) vs
    rw [stored_commit, view]
    refine hsplit.trans (List.Perm.of_eq ?_)
    congr 1
    refine List.filterMap_congr fun v _ => ?_
    cases hw : v.writtenBy u with
    | true => rfl
    | false => simpa using Version.seenBy_of_not_written hw
  · obtain ⟨v, hv, hr⟩ := List.mem_filterMap.mp hr
    split_ifs at hr with hw
    exact (hP v hv hw).1 r hr
  · obtain ⟨v, hv, hr⟩ := List.mem_filterMap.mp hr
    split_ifs at hr with hw
    exact (hP v hv hw).2 r hr
  · refine (filterMap_split (Version.writtenBy u) (Version.seenBy t) vs).trans (List.Perm.of_eq ?_)
    congr 1
    refine List.filterMap_congr fun v _ => ?_
    cases hw : v.writtenBy u with
    | true => simpa using Version.seenBy_of_not_written (Version.not_written_of_written hne hw)
    | false => rfl
  · have hsplit := filterMap_split (Version.writtenBy u) (fun v => (v.commit u).seenBy t) vs
    rw [view, commit, List.filterMap_map]
    refine hsplit.trans (List.Perm.of_eq ?_)
    congr 1
    · refine List.filterMap_congr fun v _ => ?_
      cases hw : v.writtenBy u with
      | true => rfl
      | false => simp [Version.commit_of_not_written hw]
    · refine List.filterMap_congr fun v _ => ?_
      cases hw : v.writtenBy u with
      | true => simp [Version.commit_of_written hw, Version.seenBy]
      | false => rfl

/-- **A commit by another transaction**, of rows that the statements `ss` do not select: they have had
the effect that they would have now. -/
theorem view_commit_other {ss : List (Statement ρ)} (hne : t ≠ u) (hP : Confined P u vs)
    (hsel : ∀ s ∈ ss, ∀ r, P r → s.selects r = false) (h : (view t vs).Perm (after ss (stored vs))) :
    (view t (commit u vs)).Perm (after ss (stored (commit u vs))) := by
  obtain ⟨kept, old, new, hstored, hstored', hold, hnew, hviews⟩ := commit_split hP
  obtain ⟨seen, hview, hview'⟩ := hviews t hne
  have hbefore : (seen ++ old).Perm (after ss kept ++ old) :=
    hview.symm.trans (h.trans ((after_perm ss hstored).trans
      (after_append fun s hs r hr => hsel s hs r (hold r hr))))
  have hseen : seen.Perm (after ss kept) := (List.perm_append_right_iff old).mp hbefore
  have hafter := after_append (t := kept) fun s hs r hr => hsel s hs r (hnew r hr)
  exact hview'.trans ((hseen.append_right new).trans
    (hafter.symm.trans (after_perm ss hstored').symm))

end ReadCommitted
