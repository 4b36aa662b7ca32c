import Logion.Store.LocTables

/-!
# Updates — concurrent updates of a LOC (`locrequest.service.ts`)

`update` and `updateIfExists` load a LOC, hand the instance to a mutator, and save it.  Each call runs
in a transaction of its own (`@DefaultTransactional`), under READ COMMITTED; the LOC is never locked.

* `System`, `Step`: the tables and the calls, and what a call does next.
* `SerialOutcome`: what is stored is what the committed calls store one after the other.
* `Undisturbed`: a commit that harms no other call.
-/

namespace Logion

open Fallible Table ReadCommitted

namespace Updates

/-! ### Calls -/

/-- A call of `update` or `updateIfExists`: what the mutator does with the instance it is given.  An
operation that throws is one that the mutator catches; `none` when the mutator itself throws. -/
structure Update where
  mutator : LocRequest → Option (List LocOp)

/-- Where a call is. -/
inductive Phase
  | ready
  /-- The LOC is loaded, and the mutator has returned. -/
  | mutated (l : LocRequest)
  /-- The row of the root was read again; the statements that have run, and those to come. -/
  | saving (l : LocRequest) (reread : RootRow) (done todo : List (TableStatement LocRow))
  | committed
  | failed

/-- The statements that the call has run in its transaction. -/
def Phase.done : Phase → List (TableStatement LocRow)
  | .saving _ _ done _ => done
  | _ => []

/-- The tables and the calls. -/
structure System (ι : Type) where
  tables : Versions ι LocRow
  phase : ι → Phase

variable {ι : Type} [DecidableEq ι]

/-- The call `t` is at `p`, and leaves the tables so. -/
def System.moved (σ : System ι) (t : ι) (tables : Versions ι LocRow) (p : Phase) : System ι where
  tables := tables
  phase := Function.update σ.phase t p

section

variable {σ : System ι} {t u : ι} {tables : Versions ι LocRow} {p : Phase}

@[simp] theorem System.tables_moved : (σ.moved t tables p).tables = tables := rfl

@[simp] theorem System.phase_moved_self : (σ.moved t tables p).phase t = p := Function.update_self ..

theorem System.phase_moved_of_ne (h : u ≠ t) : (σ.moved t tables p).phase u = σ.phase u :=
  Function.update_of_ne h ..

end

variable [Hashing]

/-- The instance that the mutator leaves. -/
def mutate (c : Update) (l : LocRequest) : Option LocRequest :=
  (c.mutator l).map (run LocRequest.step l)

inductive Action
  | load
  | reread
  | statement
  | commit
  | fail
  deriving DecidableEq

variable (updates : ι → Update) (requestId : UUID)

/-- What the call `t` does next.  A statement runs once it has to wait for no other transaction, and
when it violates no constraint.  A call may fail at any time, and is then rolled back. -/
inductive Step (σ : System ι) (t : ι) : Action → System ι → Prop
  | load {l₀ l : LocRequest} (hphase : σ.phase t = .ready)
      (hfind : FindById (viewAll t σ.tables) requestId l₀) (hmutate : mutate (updates t) l₀ = some l) :
      Step σ t .load (σ.moved t σ.tables (.mutated l))
  | reread {l : LocRequest} {row : RootRow} (hphase : σ.phase t = .mutated l)
      (hrow : row ∈ LocRows.root (viewAll t σ.tables)) (hid : row.id = requestId) :
      Step σ t .reread (σ.moved t σ.tables (.saving l row [] (l.save row)))
  | statement {l : LocRequest} {row : RootRow} {s : TableStatement LocRow}
      {done todo : List (TableStatement LocRow)} (hphase : σ.phase t = .saving l row done (s :: todo))
      (hfree : Free (LocRow.clash s.table) t s.statement (σ.tables s.table))
      (hconsistent : Consistent (LocRow.clash s.table)
        (s.statement.rows (viewAll t σ.tables s.table))) :
      Step σ t .statement (σ.moved t (execOn t s σ.tables) (.saving l row (done ++ [s]) todo))
  | commit {l : LocRequest} {row : RootRow} {done : List (TableStatement LocRow)}
      (hphase : σ.phase t = .saving l row done []) :
      Step σ t .commit (σ.moved t (commitAll t σ.tables) .committed)
  | fail (hphase : σ.phase t ≠ .committed) :
      Step σ t .fail (σ.moved t (rollbackAll t σ.tables) .failed)

/-- A run whose steps meet `C`. -/
inductive Run (C : System ι → ι → Action → Prop) (σ₀ : System ι) : System ι → Prop
  | start : Run C σ₀ σ₀
  | step {σ σ' : System ι} {t : ι} {a : Action} (hrun : Run C σ₀ σ) (hC : C σ t a)
      (hstep : Step updates requestId σ t a σ') : Run C σ₀ σ'

/-! ### One call after the other -/

/-- A call with no other around, from the stored rows to those that it leaves. -/
inductive Alone (c : Update) (rows rows' : LocRows) : Prop
  | saved {l₀ l : LocRequest} {children : ChildTables} (hfind : FindById rows requestId l₀)
      (hmutate : mutate c l₀ = some l) (hsave : rows.children.save l = .ok children)
      (hroot : rows'.root.Perm (after (l.saveRoot l₀.rootRow) rows.root))
      (hitems : ∀ k, (rows'.children.items k).Perm (children.items k))
      (hsecrets : rows'.children.secrets.Perm children.secrets)
  | mutatorThrows {l₀ : LocRequest} (hfind : FindById rows requestId l₀)
      (hmutate : mutate c l₀ = none) (hsame : rows' = rows)
  | saveFails {l₀ l : LocRequest} {e : Violation} (hfind : FindById rows requestId l₀)
      (hmutate : mutate c l₀ = some l) (hsave : rows.children.save l = .error e)
      (hsame : rows' = rows)

/-- The calls `order`, each alone. -/
def InOrder (rows : LocRows) : List ι → LocRows → Prop
  | [], rows' => rows' = rows
  | t :: order, rows' => ∃ mid, Alone requestId (updates t) rows mid ∧ InOrder mid order rows'

/-- **Serial outcome.**  What is stored is what the committed calls store one after the other, in some
order; the failed calls have no effect. -/
def SerialOutcome (before : LocRows) (σ : System ι) : Prop :=
  ∃ order : List ι, order.Nodup ∧ (∀ t, t ∈ order ↔ σ.phase t = .committed) ∧
    InOrder updates requestId before order (storedAll σ.tables)

/-! ### Commits that harm no other call -/

/-- The call saves what it would save had it loaded `rows`: its UPDATE gives the row of the root the
columns of the instance that the mutator would leave, and its statements on the children are the
same. -/
def UpToDate (c : Update) (rows : LocRows) (l : LocRequest) (reread : Option RootRow) : Prop :=
  ∃ l₀ l', FindById rows requestId l₀ ∧ mutate c l₀ = some l' ∧
    l'.rootRow = l.rootRow.write (reread.getD l₀.rootRow) l₀.rootRow ∧
    l'.saveStatements = l.saveStatements

/-- What a call that has loaded the LOC and has not ended is about to save, or has begun to. -/
def PhaseUpToDate (c : Update) (rows : LocRows) : Phase → Prop
  | .mutated l => UpToDate requestId c rows l none
  | .saving l reread _ _ => UpToDate requestId c rows l (some reread)
  | _ => True

/-- When `u` commits, every other call saves what it would save had it loaded the LOC as `u` leaves
it, and none of the statements that it has run would select a row that `u` commits. -/
def Undisturbed (σ : System ι) (u : ι) (a : Action) : Prop :=
  a = .commit → ∀ t, t ≠ u →
    PhaseUpToDate requestId (updates t) (viewAll u σ.tables) (σ.phase t) ∧
      NoneMissedAll u (σ.phase t).done σ.tables

end Updates

end Logion
