import Logion.Lib.Fallible
import Logion.Lib.ReadCommitted
import Mathlib.Logic.Function.Basic

/-!
# RowUpdates — transactions that load one row, change it and save it

A call may look at the row first, and go on only if the row is selected.  It then loads the row in a
transaction, changes what it has loaded, reads the row again, writes the columns that differ and commits.
Other calls run between any two of these steps, and a call may fail before its commit.

* `Code`, `System`, `step`: what the calls do, and what one of them does next.
* `Serial`: a history of commits that were made one after the other.
* `Knowledge`: what a call still knows of the row after it has selected it, whatever the others commit.
* `serial_run`: in a run in which no call saves what another one has changed since it was loaded, the
  commits are a serial history, of changes that the selections allow.
-/

namespace RowUpdates

open Fallible ReadCommitted

/-- What each call does: the row that it selects, if it does so first; the change, at a time; and the
row after the columns of `entity` that differ from `reread` were written to `current`. -/
structure Code (ι τ ρ ε : Type) where
  selects : ι → Option (ρ → Bool)
  mutate : ι → τ → ρ → Except ε ρ
  write : ρ → ρ → ρ → ρ

/-- Where a call is; `item` is `loaded` after the change. -/
inductive Phase (ρ : Type)
  | ready
  | selected
  | loaded (item : ρ)
  | mutated (loaded item : ρ)
  | saving (loaded item reread : ρ)
  | updated (loaded item reread : ρ)
  | ended
  deriving DecidableEq

/-- A commit of the call, with the row before and after. -/
structure Commit (ι ρ : Type) where
  call : ι
  before : ρ
  after : ρ
  deriving DecidableEq

/-- The row, the calls, and what has been committed, the last first. -/
structure System (ι ρ : Type) where
  row : Version ι ρ
  phase : ι → Phase ρ
  log : List (Commit ι ρ)

/-- A call is resumed, at a time, or it fails. -/
inductive Op (ι τ : Type)
  | resume (t : ι) (now : τ)
  | fail (t : ι)

/-- Why a call is not resumed. -/
inductive Idle
  | locked
  | ended
  deriving DecidableEq

variable {ι τ ρ ε : Type} [DecidableEq ι]

def Phase.hasEnded : Phase ρ → Bool
  | .ended => true
  | _ => false

/-- The call `t` is at `p`. -/
def System.moved (σ : System ι ρ) (t : ι) (p : Phase ρ) : System ι ρ :=
  { σ with phase := Function.update σ.phase t p }

/-- The call `t` fails, and its transaction is rolled back. -/
def System.thrown (σ : System ι ρ) (t : ι) : System ι ρ :=
  { σ with row := σ.row.rollback t, phase := Function.update σ.phase t .ended }

def System.load (σ : System ι ρ) (t : ι) : System ι ρ :=
  match σ.row.seenBy t with
  | none => σ.thrown t
  | some item => σ.moved t (.loaded item)

/-- The history with the commit of `t`, of a row that is there. -/
def System.logged (σ : System ι ρ) (t : ι) : List (Commit ι ρ) :=
  match σ.row.committed, σ.row.seenBy t with
  | some before, some after => ⟨t, before, after⟩ :: σ.log
  | _, _ => σ.log

variable (c : Code ι τ ρ ε)

section

variable [DecidableEq ρ]

def System.resume (σ : System ι ρ) (t : ι) (now : τ) : Except Idle (System ι ρ) :=
  match σ.phase t with
  | .ready =>
    match c.selects t with
    | none => return σ.load t
    | some p => return if (σ.row.seenBy t).any p then σ.moved t .selected else σ.moved t .ended
  | .selected => return σ.load t
  | .loaded item =>
    match c.mutate t now item with
    | .error _ => return σ.thrown t
    | .ok item' => return σ.moved t (.mutated item item')
  | .mutated loaded item =>
    match σ.row.seenBy t with
    | none => return σ.thrown t
    | some reread => return σ.moved t (.saving loaded item reread)
  | .saving loaded item reread =>
    if item = reread then return σ.moved t (.updated loaded item reread)
    else if σ.row.lockedFor t then throw .locked
    else return { σ.moved t (.updated loaded item reread) with
      row := σ.row.write t ((σ.row.seenBy t).map (c.write item reread)) }
  | .updated _ _ _ => return { σ.moved t .ended with row := σ.row.commit t, log := σ.logged t }
  | .ended => throw .ended

def step (σ : System ι ρ) : Op ι τ → Except Idle (System ι ρ)
  | .resume t now => σ.resume c t now
  | .fail t => if (σ.phase t).hasEnded then throw .ended else return σ.thrown t

end

/-- The row is stored, and no call has started. -/
def start (first : ρ) : System ι ρ where
  row := ⟨some first, none⟩
  phase _ := .ready
  log := []

/-! ### Conditions on a run -/

def FreshAt (row : Version ι ρ) (t : ι) : Phase ρ → Prop
  | .mutated loaded item => row.seenBy t = some loaded ∨ row.seenBy t = some item
  | .updated loaded _ _ => row.committed = some loaded ∨ row.seenBy t = row.committed
  | _ => True

instance [DecidableEq ρ] (row : Version ι ρ) (t : ι) : ∀ p, Decidable (FreshAt row t p)
  | .mutated _ _ | .updated _ _ _ => inferInstanceAs (Decidable (_ ∨ _))
  | .ready | .selected | .loaded _ | .saving _ _ _ | .ended => .isTrue trivial

/-- The call finds the row as it has loaded it, when it reads it again and when it commits, unless it
has nothing to change. -/
def Fresh (σ : System ι ρ) : Op ι τ → Prop
  | .resume t _ => FreshAt σ.row t (σ.phase t)
  | .fail _ => True

instance [DecidableEq ρ] (σ : System ι ρ) : ∀ o : Op ι τ, Decidable (Fresh σ o)
  | .resume t _ => inferInstanceAs (Decidable (FreshAt σ.row t (σ.phase t)))
  | .fail _ => .isTrue trivial

def ChangesAt (C : ι → ρ → Prop) (t : ι) : Phase ρ → Prop
  | .loaded item => C t item
  | _ => True

instance (C : ι → ρ → Prop) [∀ t r, Decidable (C t r)] (t : ι) : ∀ p, Decidable (ChangesAt C t p)
  | .loaded item => inferInstanceAs (Decidable (C t item))
  | .ready | .selected | .mutated _ _ | .saving _ _ _ | .updated _ _ _ | .ended => .isTrue trivial

/-- The call changes only what `C` lets it change. -/
def Changes (C : ι → ρ → Prop) (σ : System ι ρ) : Op ι τ → Prop
  | .resume t _ => ChangesAt C t (σ.phase t)
  | .fail _ => True

instance (C : ι → ρ → Prop) [∀ t r, Decidable (C t r)] (σ : System ι ρ) :
    ∀ o : Op ι τ, Decidable (Changes C σ o)
  | .resume t _ => inferInstanceAs (Decidable (ChangesAt C t (σ.phase t)))
  | .fail _ => .isTrue trivial

/-- Commits that were made one after the other, from the first row to the last one. -/
inductive Serial (first : ρ) (change : ι → ρ → ρ → Prop) : List (Commit ι ρ) → ρ → Prop
  | start : Serial first change [] first
  | same {log : List (Commit ι ρ)} {r : ρ} (t : ι) (h : Serial first change log r) :
      Serial first change (⟨t, r, r⟩ :: log) r
  | change {log : List (Commit ι ρ)} {r r' : ρ} {t : ι} (h : Serial first change log r)
      (hchange : change t r r') : Serial first change (⟨t, r, r'⟩ :: log) r'

/-- The change of a call, at some time, of a row that it may change. -/
def Change (C : ι → ρ → Prop) (t : ι) (r r' : ρ) : Prop := C t r ∧ ∃ now, c.mutate t now r = .ok r'

/-- The call knows that the row is in `K`, and may change it. -/
def Both (K C : ι → ρ → Prop) (t : ι) (r : ρ) : Prop := K t r ∧ C t r

/-- What a call knows of the row, from its selection on: no change takes it away. -/
structure Knowledge (K C : ι → ρ → Prop) : Prop where
  selected : ∀ t r, (c.selects t).all (fun p => p r) = true → K t r
  kept : ∀ t u r r', K t r → Change c (Both K C) u r r' → K t r'

/-! ### What a call relies on -/

/-- The call has written the row in its transaction, or it may have. -/
def Phase.isUpdated : Phase ρ → Bool
  | .updated _ _ _ => true
  | _ => false

section

variable (K C : ι → ρ → Prop)

/-- What the call `t` relies on, when the committed row is `r`. -/
def PhaseInv (row : Version ι ρ) (r : ρ) (t : ι) : Phase ρ → Prop
  | .selected => K t r
  | .loaded item => K t item
  | .mutated loaded item => Change c (Both K C) t loaded item
  | .saving loaded item reread => Change c (Both K C) t loaded item ∧ (reread = loaded ∨ reread = item)
  | .updated loaded item reread => Change c (Both K C) t loaded item ∧ (row.writtenBy t = false ∨
      reread = loaded ∧ row.pending = some (t, some (c.write item loaded r)))
  | _ => True

structure Inv (first : ρ) (σ : System ι ρ) (r : ρ) : Prop where
  committed : σ.row.committed = some r
  serial : Serial first (Change c (Both K C)) σ.log r
  phase : ∀ t, PhaseInv c K C σ.row r t (σ.phase t)
  unwritten : ∀ t, (σ.phase t).isUpdated = false → σ.row.writtenBy t = false

end

variable {c} {K C : ι → ρ → Prop} {first r r' : ρ} {σ : System ι ρ} {t u : ι} {p : Phase ρ}
  {row' : Version ι ρ} {log' : List (Commit ι ρ)}

/-- What another call relies on still holds; a row that it has locked has not changed. -/
theorem PhaseInv.keep (h : PhaseInv c K C σ.row r u p) (hne : u ≠ t) (hkeeps : KeepsOthers t σ.row row')
    (hsame : ∀ w, σ.row.pending = some (u, w) → r' = r) (hknown : K u r → K u r') :
    PhaseInv c K C row' r' u p := by
  cases p with
  | selected => exact hknown h
  | updated loaded item reread =>
    obtain ⟨hchange, hunwritten | ⟨hreread, hpending⟩⟩ := h
    · exact ⟨hchange, .inl (hkeeps.unwritten u hne hunwritten)⟩
    · rw [PhaseInv, hsame _ hpending]
      exact ⟨hchange, .inr ⟨hreread, hkeeps.pending u hne _ hpending⟩⟩
  | _ => exact h

/-- **Step of a call.**  The call `t` goes to `p`, and what the others rely on is kept. -/
theorem Inv.stepped (h : Inv c K C first σ r) (hkeeps : KeepsOthers t σ.row row')
    (hsame : ∀ u, u ≠ t → ∀ w, σ.row.pending = some (u, w) → r' = r) (hknown : ∀ u, K u r → K u r')
    (hcommitted : row'.committed = some r') (hserial : Serial first (Change c (Both K C)) log' r')
    (hphase : PhaseInv c K C row' r' t p)
    (hunwritten : p.isUpdated = false → row'.writtenBy t = false) :
    Inv c K C first { row := row', phase := Function.update σ.phase t p, log := log' } r' where
  committed := hcommitted
  serial := hserial
  phase := (Function.forall_update_iff σ.phase (PhaseInv c K C row' r')).mpr
    ⟨hphase, fun u hu => (h.phase u).keep hu hkeeps (hsame u hu) (hknown u)⟩
  unwritten := (Function.forall_update_iff σ.phase fun u q =>
      q.isUpdated = false → row'.writtenBy u = false).mpr
    ⟨hunwritten, fun u hu hq => hkeeps.unwritten u hu (h.unwritten u hq)⟩

/-- The committed row stays as it is. -/
theorem Inv.quiet (h : Inv c K C first σ r) (hkeeps : KeepsOthers t σ.row row')
    (hcommitted : row'.committed = σ.row.committed) (hphase : PhaseInv c K C row' r t p)
    (hunwritten : p.isUpdated = false → row'.writtenBy t = false) :
    Inv c K C first { σ with row := row', phase := Function.update σ.phase t p } r :=
  h.stepped hkeeps (fun _ _ _ _ => rfl) (fun _ => id) (hcommitted.trans h.committed) h.serial hphase
    hunwritten

/-- The call does not touch the row. -/
theorem Inv.moved (h : Inv c K C first σ r) (hupdated : (σ.phase t).isUpdated = false)
    (hphase : PhaseInv c K C σ.row r t p) : Inv c K C first (σ.moved t p) r :=
  h.quiet (KeepsOthers.refl t σ.row) rfl hphase fun _ => h.unwritten t hupdated

theorem Inv.thrown (h : Inv c K C first σ r) (t : ι) : Inv c K C first (σ.thrown t) r :=
  h.quiet (KeepsOthers.rollback t σ.row) Version.committed_rollback trivial
    fun _ => Version.writtenBy_rollback

/-- A call that has not written the row sees what is committed. -/
theorem Inv.seenBy (h : Inv c K C first σ r) (hupdated : (σ.phase t).isUpdated = false) :
    σ.row.seenBy t = some r :=
  (Version.seenBy_of_not_written (h.unwritten t hupdated)).trans h.committed

theorem Inv.load (h : Inv c K C first σ r) (hupdated : (σ.phase t).isUpdated = false) (hK : K t r) :
    Inv c K C first (σ.load t) r := by
  rw [System.load, h.seenBy hupdated]
  exact h.moved hupdated hK

theorem System.logged_of {before after : ρ} (hcommitted : σ.row.committed = some before)
    (hseen : σ.row.seenBy t = some after) : σ.logged t = ⟨t, before, after⟩ :: σ.log := by
  rw [System.logged, hcommitted, hseen]

/-- **Commit.**  It changes nothing, or it finds the row as it was loaded. -/
theorem Inv.commit {loaded item reread : ρ} (hK : Knowledge c K C) (h : Inv c K C first σ r)
    (hwrite : c.write item loaded loaded = item)
    (hphase : σ.phase t = .updated loaded item reread)
    (hfresh : σ.row.committed = some loaded ∨ σ.row.seenBy t = σ.row.committed) :
    ∃ r', Inv c K C first { σ.moved t .ended with row := σ.row.commit t, log := σ.logged t } r' := by
  obtain ⟨hchange, hwritten⟩ : PhaseInv c K C σ.row r t (.updated loaded item reread) :=
    hphase ▸ h.phase t
  have hcommitted : ∀ r', σ.row.seenBy t = some r' → (σ.row.commit t).committed = some r' :=
    fun r' hseen => Version.committed_commit.trans hseen
  by_cases hnothing : σ.row.seenBy t = σ.row.committed
  · -- nothing changes
    have hseen := hnothing.trans h.committed
    refine ⟨r, h.stepped (KeepsOthers.commit t σ.row) (fun _ _ _ _ => rfl) (fun _ => id)
      (hcommitted r hseen) ?_ trivial fun _ => Version.writtenBy_commit⟩
    rw [System.logged_of h.committed hseen]
    exact h.serial.same t
  · have hloaded : r = loaded :=
      Option.some.inj (h.committed.symm.trans (hfresh.resolve_right hnothing))
    subst hloaded
    rcases hwritten with hunwritten | ⟨-, hpending⟩
    · exact absurd (Version.seenBy_of_not_written hunwritten) hnothing
    · have hseen : σ.row.seenBy t = some item := by
        simp [Version.seenBy, hpending, hwrite]
      refine ⟨item, h.stepped (KeepsOthers.commit t σ.row) (fun u hu w hp => ?_)
        (fun u hu => hK.kept u t r item hu hchange) (hcommitted item hseen) ?_ trivial
        fun _ => Version.writtenBy_commit⟩
      · rw [hpending] at hp
        cases hp
        exact absurd rfl hu
      · rw [System.logged_of h.committed hseen]
        exact h.serial.change hchange

theorem inv_start : Inv c K C first (start first) first where
  committed := rfl
  serial := .start
  phase _ := trivial
  unwritten _ _ := rfl

/-! ### Steps and runs -/

variable [DecidableEq ρ]

section

variable {o : Op ι τ} {σ' : System ι ρ} {now : τ} {loaded item reread : ρ}

/-- The call changes what it has loaded, or throws. -/
theorem Inv.mutate (h : Inv c K C first σ r) (hphase : σ.phase t = .loaded item) (hC : C t item)
    (hok : σ.resume c t now = .ok σ') : Inv c K C first σ' r := by
  simp only [System.resume, hphase] at hok
  cases hmutate : c.mutate t now item with
  | error e =>
    rw [hmutate] at hok
    cases hok
    exact h.thrown t
  | ok item' =>
    rw [hmutate] at hok
    cases hok
    have hK : PhaseInv c K C σ.row r t (.loaded item) := hphase ▸ h.phase t
    exact h.moved (by rw [hphase]; rfl) ⟨⟨hK, hC⟩, now, hmutate⟩

/-- The call writes the columns that differ, unless there are none. -/
theorem Inv.save (h : Inv c K C first σ r) (hphase : σ.phase t = .saving loaded item reread)
    (hok : σ.resume c t now = .ok σ') : Inv c K C first σ' r := by
  have hupdated : (σ.phase t).isUpdated = false := by rw [hphase]; rfl
  obtain ⟨hchange, hreread⟩ : PhaseInv c K C σ.row r t (.saving loaded item reread) := hphase ▸ h.phase t
  simp only [System.resume, hphase, h.seenBy hupdated] at hok
  split_ifs at hok with hsame hlocked
  · cases hok
    exact h.moved hupdated ⟨hchange, .inl (h.unwritten t hupdated)⟩
  · cases hok
    -- what differs from the instance is the row as it was loaded
    obtain rfl := hreread.resolve_right (Ne.symm hsame)
    exact h.quiet (KeepsOthers.write (by simpa using hlocked) _) rfl ⟨hchange, .inr ⟨rfl, rfl⟩⟩
      Bool.noConfusion

/-- **One step.** -/
theorem Inv.step (hwrite : ∀ t now r r', c.mutate t now r = .ok r' → c.write r' r r = r')
    (hK : Knowledge c K C) (h : Inv c K C first σ r) (hfresh : Fresh σ o) (hC : Changes C σ o)
    (hok : step c σ o = .ok σ') :
    ∃ r', Inv c K C first σ' r' := by
  cases o with
  | fail t =>
    simp only [RowUpdates.step] at hok
    split_ifs at hok
    cases hok
    exact ⟨r, h.thrown t⟩
  | resume t now =>
    simp only [RowUpdates.step] at hok
    cases hphase : σ.phase t with
    | ready =>
      have hupdated : (σ.phase t).isUpdated = false := by rw [hphase]; rfl
      simp only [System.resume, hphase] at hok
      cases hselects : c.selects t with
      | none =>
        rw [hselects] at hok
        cases hok
        exact ⟨r, h.load hupdated (hK.selected t r (by simp [hselects]))⟩
      | some p =>
        rw [hselects] at hok
        cases hok
        refine ⟨r, ?_⟩
        split_ifs with hp
        · rw [h.seenBy hupdated] at hp
          exact h.moved hupdated (hK.selected t r (by simpa [hselects] using hp))
        · exact h.moved hupdated trivial
    | selected =>
      have hknown : PhaseInv c K C σ.row r t .selected := hphase ▸ h.phase t
      simp only [System.resume, hphase] at hok
      cases hok
      exact ⟨r, h.load (by rw [hphase]; rfl) hknown⟩
    | loaded item =>
      simp only [Changes, hphase, ChangesAt] at hC
      exact ⟨r, h.mutate hphase hC hok⟩
    | mutated loaded item =>
      have hupdated : (σ.phase t).isUpdated = false := by rw [hphase]; rfl
      have hchange : PhaseInv c K C σ.row r t (.mutated loaded item) := hphase ▸ h.phase t
      simp only [System.resume, hphase, h.seenBy hupdated] at hok
      simp only [Fresh, hphase, FreshAt, h.seenBy hupdated, Option.some.injEq] at hfresh
      cases hok
      exact ⟨r, h.moved hupdated ⟨hchange, hfresh⟩⟩
    | saving loaded item reread => exact ⟨r, h.save hphase hok⟩
    | updated loaded item reread =>
      obtain ⟨⟨-, now', hmutate⟩, -⟩ : PhaseInv c K C σ.row r t (.updated loaded item reread) :=
        hphase ▸ h.phase t
      simp only [System.resume, hphase] at hok
      simp only [Fresh, hphase, FreshAt] at hfresh
      cases hok
      exact h.commit hK (hwrite t now' loaded item hmutate) hphase hfresh
    | ended =>
      simp only [System.resume, hphase] at hok
      cases hok

end

/-- **The commits are a serial history**, when no call saves what another one has changed since it was
loaded. -/
theorem serial_run {os : List (Op ι τ)}
    (hwrite : ∀ t now r r', c.mutate t now r = .ok r' → c.write r' r r = r') (hK : Knowledge c K C)
    (h : Along (step c) (fun σ o => Fresh σ o ∧ Changes C σ o) (start first) os) :
    ∃ r, (run (step c) (start first) os).row.committed = some r ∧
      Serial first (Change c (Both K C)) (run (step c) (start first) os).log r := by
  obtain ⟨r, hr⟩ := run_invariant (I := fun σ => ∃ r, Inv c K C first σ r)
    (fun σ o σ' ⟨_, hσ⟩ hC hok => hσ.step hwrite hK hC.1 hC.2 hok) ⟨first, inv_start⟩ h
  exact ⟨r, hr.committed, hr.serial⟩

end RowUpdates
