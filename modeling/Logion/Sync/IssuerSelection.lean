import Logion.Lib.LastWrite
import Logion.Sync.Synchronizers
import Logion.Store.LocTables

/-!
# IssuerSelection — the verified issuers that are selected (`locsynchronization.service.ts`,
`verifiedissuerselection.service.ts`)

The handlers of `setIssuerSelection` and `dismissIssuer` start `selectUnselect` and `unselectAll`, and do
not await them: the transactions of these tasks run while the next extrinsics are handled, the sync
point is stored and the consumer starts over.

* `implies`: what an extrinsic makes of the selection of an issuer on a LOC.
* `System`, `step`: the stored selections, the tasks, and the consumer.
* `Reflects`: once the sync point covers what concerns a selection, it is the one that the chain implies.
* `reflects_run`: it does along the runs whose tasks commit as if they had been awaited.
-/

namespace Logion

open Fallible Table ReadCommitted

namespace IssuerSelection

/-! ### Extrinsics -/

/-- A successful extrinsic that concerns the selection of issuers. -/
inductive SelectionExtrinsic
  | setIssuerSelection (signer : String) (locId : UUID) (issuer : String) (selected : Bool)
  | dismissIssuer (signer : String) (issuer : String)
  deriving DecidableEq

def SelectionExtrinsic.signer : SelectionExtrinsic → String
  | .setIssuerSelection signer _ _ _ => signer
  | .dismissIssuer signer _ => signer

section

variable [LegalOfficers]

/-- The signer is a legal officer of this node. -/
def SelectionExtrinsic.isLocal (e : SelectionExtrinsic) : Bool :=
  LegalOfficers.isLegalOfficerAddressOnNode (.polkadot e.signer)

/-- The LOCs that a dismissal by a legal officer concerns: all of them, or those of the officer only. -/
abbrev Scope := String → UUID → Bool

variable (scope : Scope)

/-- What the extrinsic implies for the selection of an issuer on a LOC; `none` when it does not concern
them. -/
def SelectionExtrinsic.implies (e : SelectionExtrinsic) (p : UUID × String) : Option Bool :=
  if !e.isLocal then none
  else match e with
    | .setIssuerSelection _ locId issuer selected =>
      if (locId, issuer) = p then some selected else none
    | .dismissIssuer signer issuer => if issuer = p.2 && scope signer p.1 then some false else none

/-- What a chain implies; an absent selection is not selected. -/
def implied (chain : List SelectionExtrinsic) (p : UUID × String) : Bool :=
  LastWrite.value (fun e => e.implies scope p) false chain

/-- One of the extrinsics selects what the other one unselects. -/
def SelectionExtrinsic.contradicts (e e' : SelectionExtrinsic) : Bool :=
  match e, e' with
  | .setIssuerSelection _ locId issuer selected, e' =>
    e.isLocal && e'.implies scope (locId, issuer) = some !selected
  | .dismissIssuer _ _, .setIssuerSelection _ locId issuer selected =>
    e'.isLocal && e.implies scope (locId, issuer) = some !selected
  | .dismissIssuer _ _, .dismissIssuer _ _ => false

end

/-! ### Tasks -/

/-- The columns after the UPDATE of a save; the primary key is never written. -/
def write (entity reread current : VerifiedIssuerSelection) : VerifiedIssuerSelection where
  locRequestId := current.locRequestId
  issuer := current.issuer
  identityLocId := writeColumn entity.identityLocId reread.identityLocId current.identityLocId
  selected := writeColumn entity.selected reread.selected current.selected

/-- The primary key. -/
def clash (r r' : VerifiedIssuerSelection) : Prop := r.key = r'.key

instance : DecidableRel clash := fun r r' => inferInstanceAs (Decidable (r.key = r'.key))

def findById (key : UUID × String) (rows : List VerifiedIssuerSelection) :
    Option VerifiedIssuerSelection :=
  rows.find? fun r => r.key = key

/-- The statement of `repository.save(selection)`, after the row was read again. -/
def saveSelection (item : VerifiedIssuerSelection) :
    Option VerifiedIssuerSelection → List (Statement VerifiedIssuerSelection)
  | none => [.insert item]
  | some reread =>
    if item = reread then [] else [.update (fun r => r.key = item.key) (write item reread)]

/-- `repository.update({ issuer }, { selected: false })`. -/
def unselectAll (issuer : String) : Statement VerifiedIssuerSelection :=
  .update (fun r => r.issuer = issuer) fun r => { r with selected := false }

/-- Where a task is; `read` is what it has read last, and `done` the statements that have run. -/
inductive Phase
  | ready
  | loaded (item : VerifiedIssuerSelection)
  | saving (item : VerifiedIssuerSelection) (reread : Option VerifiedIssuerSelection)
  | written (read : Option VerifiedIssuerSelection) (done : List (Statement VerifiedIssuerSelection))
  | committed
  | failed

def Phase.done : Phase → List (Statement VerifiedIssuerSelection)
  | .written _ done => done
  | _ => []

/-- A task, started for the extrinsic at the index `origin` of the chain. -/
structure Task where
  origin : ℕ
  extrinsic : SelectionExtrinsic
  identityLocId : UUID
  phase : Phase

def Task.isCommitted (task : Task) : Bool :=
  match task.phase with
  | .committed => true
  | _ => false

def Task.hasEnded (task : Task) : Bool :=
  match task.phase with
  | .committed | .failed => true
  | _ => false

/-- The stored selections, the tasks in the order of their start, and the consumer: the index of the
next extrinsic, the number of extrinsics that the sync point covers, and the first task that was started
since they were covered, or since the consumer started over. -/
structure System where
  rows : List (Version ℕ VerifiedIssuerSelection)
  tasks : List Task
  next : ℕ
  synced : ℕ
  pass : ℕ

/-- The next extrinsic is handled, with what the queries of the handler find; the consumer starts over
from the sync point; the sync point is stored; a task is resumed, or fails. -/
inductive Op
  | handle (identityLocId : Option UUID) (locFound : Bool)
  | startOver
  | sync
  | resume (t : ℕ)
  | fail (t : ℕ)

/-- Why an operation does not take place. -/
inductive Idle
  | locked
  | ended
  deriving DecidableEq

namespace System

/-- The statements that the task `t` has run in its transaction. -/
def done (σ : System) (t : ℕ) : List (Statement VerifiedIssuerSelection) :=
  match σ.tasks[t]? with
  | some task => task.phase.done
  | none => []

/-- The task `t` is at `p`, and leaves the rows so. -/
def moved (σ : System) (t : ℕ) (rows : List (Version ℕ VerifiedIssuerSelection)) (p : Phase) :
    System :=
  { σ with rows := rows, tasks := σ.tasks.modify t fun task => { task with phase := p } }

/-- A statement of `t`, once it has to wait for no other transaction. -/
def statement (σ : System) (t : ℕ) (s : Statement VerifiedIssuerSelection) (p : Phase) :
    Except Idle System :=
  if ¬ Free clash t s σ.rows then throw .locked
  else if ¬ Consistent clash (s.rows (view t σ.rows)) then
    return σ.moved t (rollback t σ.rows) .failed
  else return σ.moved t (exec t s σ.rows) p

/-- `selectUnselect`. -/
def selectUnselect (σ : System) (t : ℕ) (key : UUID × String) (identityLocId : UUID)
    (select : Bool) : Phase → Except Idle System
  | .ready =>
    match findById key (view t σ.rows) with
    | some selection => return σ.moved t σ.rows (.loaded { selection with selected := select })
    | none =>
      if select then return σ.moved t σ.rows (.loaded ⟨key.1, key.2, identityLocId, true⟩)
      else return σ.moved t σ.rows (.written none [])
  | .loaded item => return σ.moved t σ.rows (.saving item (findById item.key (view t σ.rows)))
  | .saving item reread =>
    match saveSelection item reread with
    | [] => return σ.moved t σ.rows (.written reread [])
    | s :: _ => σ.statement t s (.written reread [s])
  | .written _ _ => return σ.moved t (commit t σ.rows) .committed
  | _ => throw .ended

/-- `unselectAll`. -/
def unselect (σ : System) (t : ℕ) (issuer : String) : Phase → Except Idle System
  | .ready => σ.statement t (unselectAll issuer) (.written none [unselectAll issuer])
  | .written _ _ => return σ.moved t (commit t σ.rows) .committed
  | _ => throw .ended

def resume (σ : System) (t : ℕ) : Except Idle System :=
  match σ.tasks[t]? with
  | none => throw .ended
  | some task =>
    match task.extrinsic with
    | .setIssuerSelection _ locId issuer selected =>
      σ.selectUnselect t (locId, issuer) task.identityLocId selected task.phase
    | .dismissIssuer _ issuer => σ.unselect t issuer task.phase

/-- An exception: the extrinsics after the sync point are handled again. -/
def startOver (σ : System) : System := { σ with next := σ.synced, pass := σ.tasks.length }

variable [LegalOfficers] (chain : List SelectionExtrinsic)

/-- The handlers, up to the task that they start. -/
def handle (σ : System) (identityLocId : Option UUID) (locFound : Bool) : Except Idle System :=
  match chain[σ.next]? with
  | none => throw .ended
  | some e =>
    if !e.isLocal then return { σ with next := σ.next + 1 }
    else match identityLocId, e with
      -- "No Identity LOC available for issuer"
      | none, _ => return σ.startOver
      | some identityLocId, .dismissIssuer _ _ => return { σ with
          tasks := σ.tasks ++ [⟨σ.next, e, identityLocId, .ready⟩], next := σ.next + 1 }
      | some identityLocId, .setIssuerSelection _ _ _ _ =>
        if locFound then return { σ with
          tasks := σ.tasks ++ [⟨σ.next, e, identityLocId, .ready⟩], next := σ.next + 1 }
        else return σ.startOver

end System

def step [LegalOfficers] (chain : List SelectionExtrinsic) (σ : System) : Op → Except Idle System
  | .handle identityLocId locFound => σ.handle chain identityLocId locFound
  | .startOver => return σ.startOver
  | .sync => return { σ with synced := σ.next, pass := σ.tasks.length }
  | .resume t => σ.resume t
  | .fail t =>
    if (σ.tasks[t]?).any fun task => !task.hasEnded then
      return σ.moved t (rollback t σ.rows) .failed
    else throw .ended

/-- Nothing is stored, and nothing is handled. -/
def start : System := ⟨[], [], 0, 0, 0⟩

/-! ### The contract -/

/-- The issuer is selected on the LOC. -/
def Selected (rows : List VerifiedIssuerSelection) (p : UUID × String) : Prop :=
  ∃ r ∈ rows, r.key = p ∧ r.selected = true

section

variable [LegalOfficers] (scope : Scope) (chain : List SelectionExtrinsic)

/-- **The selection reflects the chain** as soon as the sync point covers the extrinsics that concern
it, and the sync point covers an extrinsic only when a task for it has committed. -/
structure Reflects (σ : System) : Prop where
  selected : ∀ p, (∀ e ∈ chain.drop σ.synced, e.implies scope p = none) →
    (Selected (stored σ.rows) p ↔ implied scope chain p = true)
  covered : ∀ i < σ.synced, ∀ e, chain[i]? = some e → e.isLocal = true →
    ∃ task ∈ σ.tasks, task.origin = i ∧ task.isCommitted = true

/-- What the task has read is still stored; for a dismissal, no selection out of its scope is stored. -/
def UpToDate (rows : List VerifiedIssuerSelection) : SelectionExtrinsic → Phase → Prop
  | .setIssuerSelection _ locId issuer _, .written read _ =>
    rows.filter (fun r => r.key = (locId, issuer)) = read.toList
  | .dismissIssuer signer issuer, .written _ _ => ∀ r ∈ rows, r.issuer = issuer →
    scope signer r.locRequestId = false → r.selected = false
  | _, _ => True

instance (rows : List VerifiedIssuerSelection) : ∀ e p, Decidable (UpToDate scope rows e p)
  | .setIssuerSelection _ locId issuer _, .written read _ =>
    inferInstanceAs (Decidable (rows.filter (fun r => r.key = (locId, issuer)) = read.toList))
  | .dismissIssuer signer issuer, .written _ _ =>
    inferInstanceAs (Decidable (∀ r ∈ rows, r.issuer = issuer →
      scope signer r.locRequestId = false → r.selected = false))
  | .setIssuerSelection _ _ _ _, .ready | .setIssuerSelection _ _ _ _, .loaded _
  | .setIssuerSelection _ _ _ _, .saving _ _ | .setIssuerSelection _ _ _ _, .committed
  | .setIssuerSelection _ _ _ _, .failed | .dismissIssuer _ _, .ready | .dismissIssuer _ _, .loaded _
  | .dismissIssuer _ _, .saving _ _ | .dismissIssuer _ _, .committed
  | .dismissIssuer _ _, .failed => .isTrue trivial

/-- The task `t` commits as if it had been awaited: no task that was started later and contradicts it
has committed, it commits no row that the UPDATE of another task has missed, and what it has read is
still stored. -/
structure InOrder (σ : System) (t : ℕ) (task : Task) : Prop where
  order : ∀ later ∈ σ.tasks.drop (t + 1), later.isCommitted = true →
    task.extrinsic.contradicts scope later.extrinsic = false
  missed : ∀ u < σ.tasks.length, u ≠ t → NoneMissed t (σ.done u) σ.rows
  upToDate : UpToDate scope (stored σ.rows) task.extrinsic task.phase

instance (σ : System) (t : ℕ) (task : Task) : Decidable (InOrder scope σ t task) :=
  decidable_of_iff
    ((∀ later ∈ σ.tasks.drop (t + 1), later.isCommitted = true →
        task.extrinsic.contradicts scope later.extrinsic = false) ∧
      (∀ u < σ.tasks.length, u ≠ t → NoneMissed t (σ.done u) σ.rows) ∧
      UpToDate scope (stored σ.rows) task.extrinsic task.phase)
    ⟨fun h => ⟨h.1, h.2.1, h.2.2⟩, fun h => ⟨h.order, h.missed, h.upToDate⟩⟩

/-- A task is about to commit. -/
def Phase.isWritten : Phase → Bool
  | .written _ _ => true
  | _ => false

/-- The tasks commit in order; the sync point is stored once they have ended, and those that were
started since the last one have committed. -/
def Undisturbed (σ : System) : Op → Prop
  | .resume t => ∀ task ∈ σ.tasks[t]?, task.phase.isWritten = true → InOrder scope σ t task
  | .sync => (∀ task ∈ σ.tasks, task.hasEnded = true) ∧
      ∀ task ∈ σ.tasks.drop σ.pass, task.isCommitted = true
  | _ => True

instance (σ : System) : ∀ o, Decidable (Undisturbed scope σ o)
  | .resume t => inferInstanceAs (Decidable
      (∀ task ∈ σ.tasks[t]?, task.phase.isWritten = true → InOrder scope σ t task))
  | .sync => inferInstanceAs (Decidable ((∀ task ∈ σ.tasks, task.hasEnded = true) ∧
      ∀ task ∈ σ.tasks.drop σ.pass, task.isCommitted = true))
  | .handle _ _ | .startOver | .fail _ => .isTrue trivial

end

/-! ### What the statements make of the selections -/

section

variable {rows : List VerifiedIssuerSelection} {p q : UUID × String}

theorem Selected.perm {rows' : List VerifiedIssuerSelection} (h : rows.Perm rows') :
    Selected rows p ↔ Selected rows' p :=
  exists_congr fun _ => and_congr_left fun _ => h.mem_iff

/-- An UPDATE leaves the other issuers and LOCs alone. -/
theorem selected_map_of_ne {set : VerifiedIssuerSelection → VerifiedIssuerSelection}
    (hkey : ∀ r, (set r).key = r.key) (hset : ∀ r, r.key = q → set r = r) :
    Selected (rows.map set) q ↔ Selected rows q := by
  constructor
  · rintro ⟨r', hmem', hr⟩
    obtain ⟨r, hmem, rfl⟩ := List.mem_map.mp hmem'
    rw [hkey] at hr
    rw [hset r hr.1] at hr
    exact ⟨r, hmem, hr⟩
  · rintro ⟨r, hmem, hr⟩
    exact ⟨r, List.mem_map.mpr ⟨r, hmem, hset r hr.1⟩, hr⟩

theorem selected_unselectAll (issuer : String) :
    Selected ((unselectAll issuer).rows rows) q ↔ q.2 ≠ issuer ∧ Selected rows q := by
  by_cases hq : q.2 = issuer
  · refine iff_of_false ?_ fun h => h.1 hq
    rintro ⟨r', hmem, hkey, hsel⟩
    obtain ⟨r, -, rfl⟩ := List.mem_map.mp hmem
    have hissuer : r.issuer = issuer := by
      split_ifs at hkey <;> exact (congrArg Prod.snd hkey).trans hq
    simp [hissuer] at hsel
  · rw [unselectAll, Statement.rows, selected_map_of_ne, and_iff_right hq]
    · intro r
      split_ifs <;> rfl
    · rintro r rfl
      exact if_neg (by simpa [VerifiedIssuerSelection.key] using hq)

theorem selected_insert {item : VerifiedIssuerSelection} :
    Selected (rows ++ [item]) q ↔ Selected rows q ∨ item.key = q ∧ item.selected = true := by
  simp [Selected, or_and_right, exists_or]

/-- The rows of one issuer and LOC. -/
theorem selected_filter : Selected rows p ↔
    ∃ r ∈ rows.filter (fun r => r.key = p), r.selected = true := by
  simp [Selected, and_assoc]

/-- The statements of a task, with what it has read last. -/
inductive WrittenBy : SelectionExtrinsic → Option VerifiedIssuerSelection →
    List (Statement VerifiedIssuerSelection) → Prop
  | absent {signer : String} {locId : UUID} {issuer : String} :
      WrittenBy (.setIssuerSelection signer locId issuer false) none []
  | same {signer : String} {locId : UUID} {issuer : String} {r : VerifiedIssuerSelection} :
      WrittenBy (.setIssuerSelection signer locId issuer r.selected) (some r) []
  | insert {signer : String} {item : VerifiedIssuerSelection} :
      WrittenBy (.setIssuerSelection signer item.locRequestId item.issuer item.selected) none
        [.insert item]
  | update {signer : String} {item r : VerifiedIssuerSelection} :
      WrittenBy (.setIssuerSelection signer item.locRequestId item.issuer item.selected) (some r)
        [.update (fun r => r.key = item.key) (write item r)]
  | dismiss {signer : String} {issuer : String} {read : Option VerifiedIssuerSelection} :
      WrittenBy (.dismissIssuer signer issuer) read [unselectAll issuer]

/-- A selection that is up to date: the issuer is selected as the extrinsic says, and the other ones
are left alone. -/
theorem WrittenBy.select {signer : String} {locId : UUID} {issuer : String} {selected : Bool}
    {read : Option VerifiedIssuerSelection} {done : List (Statement VerifiedIssuerSelection)}
    (h : WrittenBy (.setIssuerSelection signer locId issuer selected) read done)
    (hread : rows.filter (fun r => r.key = (locId, issuer)) = read.toList) :
    Selected (after done rows) q ↔
      if (locId, issuer) = q then selected = true else Selected rows q := by
  have hstored : Selected rows (locId, issuer) ↔ ∃ r ∈ read.toList, r.selected = true := by
    rw [selected_filter, hread]
  cases h with
  | absent =>
    split_ifs with hq
    · rw [← hq]
      exact hstored.trans (by simp)
    · rfl
  | same =>
    split_ifs with hq
    · rw [← hq]
      exact hstored.trans (by simp)
    · rfl
  | @insert _ item =>
    refine selected_insert.trans ?_
    split_ifs with hq
    · have hnone : ¬ Selected rows q := by
        rw [← hq, hstored]
        simp
      rw [or_iff_right hnone]
      exact and_iff_right hq
    · exact or_iff_left fun h => hq h.1
  | @update _ item r =>
    have honly : ∀ r₀, r₀ ∈ rows ∧ r₀.key = item.key ↔ r₀ = r := by
      intro r₀
      have hmem : r₀ ∈ rows.filter (fun r => r.key = item.key) ↔ r₀ ∈ [r] := iff_of_eq (congrArg _ hread)
      rwa [List.mem_filter, decide_eq_true_eq, List.mem_singleton] at hmem
    have hwrite : (write item r r).selected = item.selected := by simp [write]
    obtain ⟨hmem, hr⟩ := (honly r).mpr rfl
    split_ifs with hq
    · rw [← hq]
      constructor
      · rintro ⟨r', hmem', hkey, hsel⟩
        obtain ⟨r₀, hmem₀, rfl⟩ := List.mem_map.mp hmem'
        have hkey₀ : r₀.key = item.key := by
          split_ifs at hkey <;> exact hkey
        obtain rfl := (honly r₀).mp ⟨hmem₀, hkey₀⟩
        rwa [if_pos (decide_eq_true hkey₀), hwrite] at hsel
      · intro hsel
        refine ⟨write item r r, List.mem_map.mpr ⟨r, hmem, if_pos (decide_eq_true hr)⟩, hr, ?_⟩
        rw [hwrite, hsel]
    · refine selected_map_of_ne (fun r₀ => ?_) fun r₀ hr₀ => if_neg ?_
      · split_ifs <;> rfl
      · rw [decide_eq_true_eq, hr₀]
        exact Ne.symm hq

end

/-! ### What the extrinsics imply -/

section

variable [LegalOfficers] {scope : Scope} {e e' : SelectionExtrinsic} {p : UUID × String} {b b' : Bool}

theorem SelectionExtrinsic.isLocal_of_implies (h : e.implies scope p = some b) : e.isLocal = true := by
  cases hlocal : e.isLocal with
  | true => rfl
  | false => simp [implies, hlocal] at h

theorem implies_of_not_local (h : e.isLocal = false) : e.implies scope p = none := by
  simp [SelectionExtrinsic.implies, h]

theorem implies_setIssuerSelection {signer : String} {locId : UUID} {issuer : String} {selected : Bool} :
    (SelectionExtrinsic.setIssuerSelection signer locId issuer selected).implies scope p = some b ↔
      (SelectionExtrinsic.setIssuerSelection signer locId issuer selected).isLocal = true ∧
        (locId, issuer) = p ∧ selected = b := by
  cases hlocal : (SelectionExtrinsic.setIssuerSelection signer locId issuer selected).isLocal <;>
    simp [SelectionExtrinsic.implies, hlocal]

theorem implies_dismissIssuer {signer issuer : String} :
    (SelectionExtrinsic.dismissIssuer signer issuer).implies scope p = some b ↔
      (SelectionExtrinsic.dismissIssuer signer issuer).isLocal = true ∧
        (issuer = p.2 ∧ scope signer p.1 = true) ∧ false = b := by
  cases hlocal : (SelectionExtrinsic.dismissIssuer signer issuer).isLocal <;>
    simp [SelectionExtrinsic.implies, hlocal]

/-- Extrinsics that do not contradict each other imply the same. -/
theorem implies_of_contradicts (h : e.contradicts scope e' = false) (he : e.implies scope p = some b)
    (he' : e'.implies scope p = some b') : b' = b := by
  have hlocal := SelectionExtrinsic.isLocal_of_implies he
  have hlocal' := SelectionExtrinsic.isLocal_of_implies he'
  by_contra hne
  have hnot : b' = !b := by cases b <;> cases b' <;> simp_all
  cases e with
  | setIssuerSelection signer locId issuer selected =>
    obtain ⟨-, rfl, rfl⟩ := implies_setIssuerSelection.mp he
    simp [SelectionExtrinsic.contradicts, hlocal, he', hnot] at h
  | dismissIssuer signer issuer =>
    cases e' with
    | setIssuerSelection signer' locId issuer' selected =>
      obtain ⟨-, rfl, rfl⟩ := implies_setIssuerSelection.mp he'
      have hsame : b = selected := by simpa [SelectionExtrinsic.contradicts, hlocal', he] using h
      exact hne hsame.symm
    | dismissIssuer signer' issuer' =>
      exact hne ((implies_dismissIssuer.mp he').2.2.symm.trans (implies_dismissIssuer.mp he).2.2)

/-- The selections once a task that is up to date has committed. -/
theorem WrittenBy.selected_after {rows : List VerifiedIssuerSelection}
    {read : Option VerifiedIssuerSelection} {done : List (Statement VerifiedIssuerSelection)}
    (h : WrittenBy e read done) (hlocal : e.isLocal = true)
    (hread : UpToDate scope rows e (.written read done)) :
    Selected (after done rows) p ↔ match e.implies scope p with
      | some b => b = true
      | none => Selected rows p := by
  cases e with
  | setIssuerSelection signer locId issuer selected =>
    rw [h.select hread]
    by_cases hp : (locId, issuer) = p
    · rw [if_pos hp, implies_setIssuerSelection.mpr ⟨hlocal, hp, rfl⟩]
    · rw [if_neg hp]
      simp [SelectionExtrinsic.implies, hlocal, hp]
  | dismissIssuer signer issuer =>
    cases h
    refine (selected_unselectAll issuer).trans ?_
    by_cases hp : issuer = p.2
    · cases hscope : scope signer p.1 with
      | true =>
        rw [implies_dismissIssuer.mpr ⟨hlocal, ⟨hp, hscope⟩, rfl⟩]
        simp [hp]
      | false =>
        have hnot : ¬ Selected rows p := by
          rintro ⟨r, hmem, rfl, hsel⟩
          have hun := hread r hmem hp.symm hscope
          rw [hsel] at hun
          cases hun
        simp [SelectionExtrinsic.implies, hlocal, hscope, hnot]
    · simp [SelectionExtrinsic.implies, hlocal, hp, Ne.symm hp]

end

/-! ### The tasks -/

/-- The extrinsics of the committed tasks, in the order of their start. -/
def committedExtrinsics (tasks : List Task) : List SelectionExtrinsic :=
  (tasks.filter Task.isCommitted).map Task.extrinsic

section

variable {σ : System} {t : ℕ} {task : Task} {tasks pre post : List Task}

theorem committedExtrinsics_append : committedExtrinsics (pre ++ post) =
    committedExtrinsics pre ++ committedExtrinsics post := by
  simp [committedExtrinsics]

theorem committedExtrinsics_of_committed (h : ∀ task ∈ tasks, task.isCommitted = true) :
    committedExtrinsics tasks = tasks.map Task.extrinsic := by
  rw [committedExtrinsics, List.filter_eq_self.mpr h]

/-- The task `t` among the others. -/
theorem exists_split (h : tasks[t]? = some task) : ∃ pre post, tasks = pre ++ task :: post ∧
    pre.length = t ∧ ∀ f, tasks.modify t f = pre ++ f task :: post := by
  obtain ⟨hlt, rfl⟩ := List.getElem?_eq_some_iff.mp h
  refine ⟨tasks.take t, tasks.drop (t + 1), ?_, by simp; omega, fun f => ?_⟩
  · rw [List.getElem_cons_drop, List.take_append_drop]
  · rw [List.modify_eq_take_cons_drop hlt]

theorem done_eq (h : σ.tasks[t]? = some task) : σ.done t = task.phase.done := by
  rw [System.done, h]

theorem done_moved {rows : List (Version ℕ VerifiedIssuerSelection)} {p : Phase}
    (h : σ.tasks[t]? = some task) (u : ℕ) :
    (σ.moved t rows p).done u = if u = t then p.done else σ.done u := by
  unfold System.done System.moved
  by_cases hu : u = t
  · subst hu
    simp [h]
  · simp [hu, Ne.symm hu]

end

/-! ### The invariant -/

section

variable [LegalOfficers] (scope : Scope) (chain : List SelectionExtrinsic)

/-- What a task relies on. -/
def PhaseInv : SelectionExtrinsic → Phase → Prop
  | .setIssuerSelection _ locId issuer selected, .loaded item
  | .setIssuerSelection _ locId issuer selected, .saving item _ =>
    item.key = (locId, issuer) ∧ item.selected = selected
  | e, .written read done => WrittenBy e read done
  | _, _ => True

structure Inv (σ : System) : Prop where
  made : ∀ t, Made t (σ.done t) σ.rows
  shapes : ∀ task ∈ σ.tasks, PhaseInv task.extrinsic task.phase
  selected : ∀ p, Selected (stored σ.rows) p ↔ implied scope (committedExtrinsics σ.tasks) p = true
  origins : ∀ task ∈ σ.tasks, chain[task.origin]? = some task.extrinsic ∧ task.extrinsic.isLocal = true
  unended : ∀ task ∈ σ.tasks, task.hasEnded = true ∨ σ.synced ≤ task.origin
  pass : (σ.tasks.drop σ.pass).map (fun task => (task.extrinsic, task.origin)) =
    ((chain.zipIdx.take σ.next).drop σ.synced).filter fun e => e.1.isLocal
  passLe : σ.pass ≤ σ.tasks.length
  syncedLe : σ.synced ≤ σ.next
  settled : ∀ p, (∀ e ∈ chain.drop σ.synced, e.implies scope p = none) →
    implied scope (committedExtrinsics σ.tasks) p = implied scope (chain.take σ.synced) p
  covered : ∀ i < σ.synced, ∀ e, chain[i]? = some e → e.isLocal = true →
    ∃ task ∈ σ.tasks, task.origin = i ∧ task.isCommitted = true

end

section

variable [LegalOfficers] {scope : Scope} {chain : List SelectionExtrinsic} {σ : System} {t : ℕ}
  {task : Task} {p : Phase} {rows : List (Version ℕ VerifiedIssuerSelection)}

/-- **Step of a task.**  Its phase changes; what is stored changes as the committed extrinsics do. -/
theorem Inv.moved (h : Inv scope chain σ) (htask : σ.tasks[t]? = some task)
    (hbefore : task.hasEnded = false) (hmade : Made t p.done rows)
    (hothers : ∀ u, u ≠ t → Made u (σ.done u) rows) (hshape : PhaseInv task.extrinsic p)
    (hselected : ∀ q, Selected (stored rows) q ↔
      implied scope (committedExtrinsics (σ.moved t rows p).tasks) q = true)
    (hsettled : ∀ q, (task.extrinsic).implies scope q = none →
      implied scope (committedExtrinsics (σ.moved t rows p).tasks) q =
        implied scope (committedExtrinsics σ.tasks) q) :
    Inv scope chain (σ.moved t rows p) := by
  obtain ⟨pre, post, htasks, hlen, hmodify⟩ := exists_split htask
  have hmoved : (σ.moved t rows p).tasks = pre ++ { task with phase := p } :: post :=
    hmodify fun task => { task with phase := p }
  have hmem : ∀ k, k ∈ σ.tasks ↔ k ∈ pre ∨ k = task ∨ k ∈ post := by simp [htasks]
  have hmem' : ∀ k, k ∈ (σ.moved t rows p).tasks ↔
      k ∈ pre ∨ k = { task with phase := p } ∨ k ∈ post := by simp [hmoved]
  have hnot : task.isCommitted = false := by
    cases hphase : task.phase <;> simp_all [Task.hasEnded, Task.isCommitted]
  have horigin := h.origins task ((hmem task).mpr (.inr (.inl rfl)))
  have hunended := (h.unended task ((hmem task).mpr (.inr (.inl rfl)))).resolve_left
    (by simp [hbefore])
  constructor
  · intro u
    rw [done_moved htask]
    split_ifs with hu
    · exact hu ▸ hmade
    · exact hothers u hu
  · intro k hk
    rcases (hmem' k).mp hk with hk | rfl | hk
    · exact h.shapes k ((hmem k).mpr (.inl hk))
    · exact hshape
    · exact h.shapes k ((hmem k).mpr (.inr (.inr hk)))
  · exact hselected
  · intro k hk
    rcases (hmem' k).mp hk with hk | rfl | hk
    · exact h.origins k ((hmem k).mpr (.inl hk))
    · exact horigin
    · exact h.origins k ((hmem k).mpr (.inr (.inr hk)))
  · intro k hk
    rcases (hmem' k).mp hk with hk | rfl | hk
    · exact h.unended k ((hmem k).mpr (.inl hk))
    · exact .inr hunended
    · exact h.unended k ((hmem k).mpr (.inr (.inr hk)))
  · refine Eq.trans ?_ h.pass
    rw [hmoved, htasks, List.map_drop, List.map_drop]
    simp [System.moved]
  · have hlength : (σ.moved t rows p).tasks.length = σ.tasks.length := by simp [System.moved]
    exact hlength ▸ h.passLe
  · exact h.syncedLe
  · intro q hq
    refine (hsettled q (hq _ ?_)).trans (h.settled q hq)
    refine List.mem_of_getElem? (i := task.origin - σ.synced) ?_
    rw [List.getElem?_drop]
    have hsame : σ.synced + (task.origin - σ.synced) = task.origin := by omega
    show chain[σ.synced + (task.origin - σ.synced)]? = _
    rw [hsame]
    exact horigin.1
  · intro i hi e he hlocal
    obtain ⟨k, hk, hki, hcommitted⟩ := h.covered i hi e he hlocal
    refine ⟨k, (hmem' k).mpr ?_, hki, hcommitted⟩
    rcases (hmem k).mp hk with hk | rfl | hk
    · exact .inl hk
    · rw [hnot] at hcommitted
      cases hcommitted
    · exact .inr (.inr hk)

omit [LegalOfficers] in
variable (p rows) in
theorem committedExtrinsics_moved (htask : σ.tasks[t]? = some task) (hbefore : task.hasEnded = false) :
    ∃ pre post, pre.length = t ∧ σ.tasks = pre ++ task :: post ∧
      committedExtrinsics σ.tasks = committedExtrinsics pre ++ committedExtrinsics post ∧
      committedExtrinsics (σ.moved t rows p).tasks = committedExtrinsics pre ++
        (if ({ task with phase := p } : Task).isCommitted then [task.extrinsic] else []) ++
          committedExtrinsics post := by
  obtain ⟨pre, post, htasks, hlen, hmodify⟩ := exists_split htask
  have hnot : task.isCommitted = false := by
    cases hphase : task.phase <;> simp_all [Task.hasEnded, Task.isCommitted]
  have hmoved : (σ.moved t rows p).tasks = pre ++ { task with phase := p } :: post :=
    hmodify fun task => { task with phase := p }
  refine ⟨pre, post, hlen, htasks, ?_, ?_⟩
  · rw [htasks, committedExtrinsics_append]
    simp [committedExtrinsics, hnot]
  · rw [hmoved, committedExtrinsics_append, List.append_assoc]
    cases hp : ({ task with phase := p } : Task).isCommitted <;>
      simp [committedExtrinsics, hp]

/-- Nothing is committed. -/
theorem Inv.quiet (h : Inv scope chain σ) (htask : σ.tasks[t]? = some task)
    (hbefore : task.hasEnded = false) (hp : ({ task with phase := p } : Task).isCommitted = false)
    (hmade : Made t p.done rows) (hothers : ∀ u, u ≠ t → Made u (σ.done u) rows)
    (hstored : stored rows = stored σ.rows) (hshape : PhaseInv task.extrinsic p) :
    Inv scope chain (σ.moved t rows p) := by
  obtain ⟨pre, post, -, -, hcommitted, hcommitted'⟩ :=
    committedExtrinsics_moved p rows htask hbefore
  have hsame : committedExtrinsics (σ.moved t rows p).tasks = committedExtrinsics σ.tasks := by
    rw [hcommitted', hcommitted, hp]
    simp
  refine h.moved htask hbefore hmade hothers hshape (fun q => ?_) fun q _ => by rw [hsame]
  rw [hstored, hsame]
  exact h.selected q

theorem Inv.failed (h : Inv scope chain σ) (htask : σ.tasks[t]? = some task)
    (hbefore : task.hasEnded = false) : Inv scope chain (σ.moved t (rollback t σ.rows) .failed) :=
  h.quiet htask hbefore rfl made_rollback_self
    (fun u hu => (h.made u).rollback_other hu) stored_rollback
    (by cases task.extrinsic <;> trivial)

/-- **Commit.** -/
theorem Inv.committed (h : Inv scope chain σ) (htask : σ.tasks[t]? = some task)
    {read : Option VerifiedIssuerSelection} {done : List (Statement VerifiedIssuerSelection)}
    (hphase : task.phase = .written read done) (hC : InOrder scope σ t task) :
    Inv scope chain (σ.moved t (commit t σ.rows) .committed) := by
  have hbefore : task.hasEnded = false := by rw [Task.hasEnded, hphase]
  have hmem : task ∈ σ.tasks := List.mem_of_getElem? htask
  have hlocal := (h.origins task hmem).2
  obtain ⟨pre, post, hlen, htasks, hcommitted, hcommitted'⟩ :=
    committedExtrinsics_moved .committed (commit t σ.rows) htask hbefore
  have hcommitted' : committedExtrinsics (σ.moved t (commit t σ.rows) .committed).tasks =
      committedExtrinsics pre ++ task.extrinsic :: committedExtrinsics post := by
    simpa [Task.isCommitted] using hcommitted'
  have hpost : σ.tasks.drop (t + 1) = post := by
    rw [htasks, ← hlen]
    simp
  -- what the transaction sees is what its statements make of the stored rows
  have hmade := h.made t
  rw [done_eq htask, hphase] at hmade
  have hwritten : WrittenBy task.extrinsic read done := by
    have hshape := h.shapes task hmem
    rw [hphase] at hshape
    cases hext : task.extrinsic <;> rw [hext] at hshape <;> exact hshape
  have hread := hC.upToDate
  rw [hphase] at hread
  have hskip : ∀ q, task.extrinsic.implies scope q = none →
      implied scope (committedExtrinsics pre ++ task.extrinsic :: committedExtrinsics post) q =
        implied scope (committedExtrinsics pre ++ committedExtrinsics post) q :=
    fun q hq => LastWrite.value_insert_none hq
  refine h.moved htask hbefore made_commit_self (fun u hu => ?_)
    (by cases task.extrinsic <;> trivial) (fun q => ?_) fun q hq => ?_
  · refine (h.made u).commit_other hu ?_
    by_cases hlt : u < σ.tasks.length
    · exact hC.missed u hlt hu
    · rw [System.done, List.getElem?_eq_none (by omega)]
      intro r _ s hs
      cases hs
  · rw [stored_commit, Selected.perm hmade.view]
    refine (hwritten.selected_after hlocal hread).trans ?_
    rw [hcommitted']
    cases himplies : task.extrinsic.implies scope q with
    | some b =>
      refine iff_of_eq (congrArg (· = true) (Eq.symm ?_))
      refine LastWrite.value_insert himplies fun e he b' hb' => ?_
      obtain ⟨later, hlater, rfl⟩ := List.mem_map.mp he
      obtain ⟨hlater, hdone⟩ := List.mem_filter.mp hlater
      exact implies_of_contradicts (hC.order later (hpost ▸ hlater) hdone) himplies hb'
    | none =>
      rw [hskip q himplies, ← hcommitted]
      exact h.selected q
  · rw [hcommitted', hcommitted, hskip q hq]

/-! ### The steps -/

/-- A statement of a task that has run none yet. -/
theorem Inv.statement (h : Inv scope chain σ) (htask : σ.tasks[t]? = some task)
    (hbefore : task.hasEnded = false) (hdone : task.phase.done = []) {s : Statement VerifiedIssuerSelection}
    {read : Option VerifiedIssuerSelection} (hwritten : WrittenBy task.extrinsic read [s]) {σ' : System}
    (hok : σ.statement t s (.written read [s]) = .ok σ') : Inv scope chain σ' := by
  unfold System.statement at hok
  split_ifs at hok with hfree hconsistent
  · cases hok
    have hmade := (h.made t).exec_self (s := s)
    rw [done_eq htask, hdone, List.nil_append] at hmade
    refine h.quiet htask hbefore rfl hmade
      (fun u hu => (h.made u).exec_other hu hfree) stored_exec ?_
    cases hext : task.extrinsic <;> rw [hext] at hwritten <;> exact hwritten
  · cases hok
    exact h.failed htask hbefore

/-- The rows stay as they are, and the task has run no statement. -/
theorem Inv.read (h : Inv scope chain σ) (htask : σ.tasks[t]? = some task)
    (hbefore : task.hasEnded = false) (hdone : task.phase.done = []) (hp : p.done = [])
    (hp' : ({ task with phase := p } : Task).isCommitted = false)
    (hshape : PhaseInv task.extrinsic p) : Inv scope chain (σ.moved t σ.rows p) := by
  have hmade := h.made t
  rw [done_eq htask, hdone] at hmade
  exact h.quiet htask hbefore hp' (hp ▸ hmade) (fun u _ => h.made u) rfl hshape

theorem Inv.selectUnselect (h : Inv scope chain σ) (hC : Undisturbed scope σ (.resume t))
    (htask : σ.tasks[t]? = some task) {signer : String} {locId : UUID} {issuer : String}
    {selected : Bool} (hext : task.extrinsic = .setIssuerSelection signer locId issuer selected)
    {σ' : System}
    (hok : σ.selectUnselect t (locId, issuer) task.identityLocId selected task.phase = .ok σ') :
    Inv scope chain σ' := by
  have hshape := h.shapes task (List.mem_of_getElem? htask)
  rw [hext] at hshape
  cases hphase : task.phase with
  | ready =>
    have hbefore : task.hasEnded = false := by rw [Task.hasEnded, hphase]
    have hdone : task.phase.done = [] := by rw [hphase]; rfl
    simp only [System.selectUnselect, hphase] at hok
    cases hfind : findById (locId, issuer) (view t σ.rows) with
    | some selection =>
      rw [hfind] at hok
      cases hok
      have hkey : selection.key = (locId, issuer) := by simpa using List.find?_some hfind
      exact h.read htask hbefore hdone rfl rfl (by rw [hext]; exact ⟨hkey, rfl⟩)
    | none =>
      rw [hfind] at hok
      cases selected with
      | true =>
        cases hok
        exact h.read htask hbefore hdone rfl rfl (by rw [hext]; exact ⟨rfl, rfl⟩)
      | false =>
        cases hok
        exact h.read htask hbefore hdone rfl rfl (by rw [hext]; exact .absent)
  | loaded item =>
    rw [hphase] at hshape
    simp only [System.selectUnselect, hphase] at hok
    cases hok
    exact h.read htask (by rw [Task.hasEnded, hphase]) (by rw [hphase]; rfl) rfl rfl
      (by rw [hext]; exact hshape)
  | saving item reread =>
    have hbefore : task.hasEnded = false := by rw [Task.hasEnded, hphase]
    have hdone : task.phase.done = [] := by rw [hphase]; rfl
    rw [hphase] at hshape
    obtain ⟨hkey, rfl⟩ := hshape
    obtain ⟨rfl, rfl⟩ := Prod.mk.inj hkey
    simp only [System.selectUnselect, hphase] at hok
    cases reread with
    | none => exact h.statement htask hbefore hdone (by rw [hext]; exact .insert) hok
    | some r =>
      by_cases hsame : item = r
      · subst hsame
        rw [saveSelection, if_pos rfl] at hok
        cases hok
        exact h.read htask hbefore hdone rfl rfl (by rw [hext]; exact .same)
      · rw [saveSelection, if_neg hsame] at hok
        exact h.statement htask hbefore hdone (by rw [hext]; exact .update) hok
  | written read done =>
    simp only [System.selectUnselect, hphase] at hok
    cases hok
    exact h.committed htask hphase (hC task htask (by rw [hphase]; rfl))
  | committed | failed =>
    simp only [System.selectUnselect, hphase] at hok
    cases hok

theorem Inv.unselect (h : Inv scope chain σ) (hC : Undisturbed scope σ (.resume t))
    (htask : σ.tasks[t]? = some task) {signer issuer : String}
    (hext : task.extrinsic = .dismissIssuer signer issuer) {σ' : System}
    (hok : σ.unselect t issuer task.phase = .ok σ') : Inv scope chain σ' := by
  cases hphase : task.phase with
  | ready =>
    simp only [System.unselect, hphase] at hok
    exact h.statement htask (by rw [Task.hasEnded, hphase]) (by rw [hphase]; rfl)
      (by rw [hext]; exact .dismiss) hok
  | written read done =>
    simp only [System.unselect, hphase] at hok
    cases hok
    exact h.committed htask hphase (hC task htask (by rw [hphase]; rfl))
  | loaded | saving | committed | failed =>
    simp only [System.unselect, hphase] at hok
    cases hok

theorem Inv.startOver (h : Inv scope chain σ) : Inv scope chain σ.startOver where
  made := h.made
  shapes := h.shapes
  selected := h.selected
  origins := h.origins
  unended := h.unended
  pass := by simp [System.startOver, List.drop_eq_nil_of_le]
  passLe := le_refl _
  syncedLe := Nat.le_refl _
  settled := h.settled
  covered := h.covered

/-- One more extrinsic since the sync point. -/
theorem pass_next {e : SelectionExtrinsic} {synced next : ℕ} (he : chain[next]? = some e)
    (hle : synced ≤ next) :
    ((chain.zipIdx.take (next + 1)).drop synced).filter (fun e => e.1.isLocal) =
      ((chain.zipIdx.take next).drop synced).filter (fun e => e.1.isLocal) ++
        if e.isLocal then [(e, next)] else [] := by
  obtain ⟨hlt, -⟩ := List.getElem?_eq_some_iff.mp he
  have hlength : synced ≤ (chain.zipIdx.take next).length := by
    rw [List.length_take, List.length_zipIdx]
    omega
  have hget : chain.zipIdx[next]? = some (e, next) := by
    rw [List.getElem?_zipIdx, he]
    simp
  rw [List.take_add_one, hget, Option.toList_some, List.drop_append_of_le_length hlength,
    List.filter_append]
  cases hlocal : e.isLocal <;> simp [hlocal]

/-- A task is started. -/
theorem Inv.started (h : Inv scope chain σ) {e : SelectionExtrinsic} (he : chain[σ.next]? = some e)
    (hlocal : e.isLocal = true) (identityLocId : UUID) :
    Inv scope chain { σ with
      tasks := σ.tasks ++ [⟨σ.next, e, identityLocId, .ready⟩], next := σ.next + 1 } := by
  have hcommitted : committedExtrinsics (σ.tasks ++ [⟨σ.next, e, identityLocId, .ready⟩]) =
      committedExtrinsics σ.tasks := by
    rw [committedExtrinsics_append]
    simp [committedExtrinsics, Task.isCommitted]
  constructor
  · intro u
    refine Eq.mp (congrArg (Made u · σ.rows) ?_) (h.made u)
    unfold System.done
    rcases Nat.lt_trichotomy u σ.tasks.length with hlt | rfl | hgt
    · rw [List.getElem?_append_left hlt]
    · simp [Phase.done]
    · rw [List.getElem?_eq_none (Nat.le_of_lt hgt), List.getElem?_eq_none (by simp; omega)]
  · intro task hmem
    rcases List.mem_append.mp hmem with hmem | hmem
    · exact h.shapes task hmem
    · rw [List.mem_singleton.mp hmem]
      cases e <;> trivial
  · intro q
    show _ ↔ implied scope (committedExtrinsics (σ.tasks ++ _)) q = true
    rw [hcommitted]
    exact h.selected q
  · intro task hmem
    rcases List.mem_append.mp hmem with hmem | hmem
    · exact h.origins task hmem
    · rw [List.mem_singleton.mp hmem]
      exact ⟨he, hlocal⟩
  · intro task hmem
    rcases List.mem_append.mp hmem with hmem | hmem
    · exact h.unended task hmem
    · rw [List.mem_singleton.mp hmem]
      exact .inr h.syncedLe
  · show _ = ((chain.zipIdx.take (σ.next + 1)).drop σ.synced).filter _
    rw [pass_next he h.syncedLe, if_pos hlocal, ← h.pass, List.drop_append_of_le_length h.passLe,
      List.map_append]
    rfl
  · have hle := h.passLe
    simp
    omega
  · exact Nat.le_succ_of_le h.syncedLe
  · intro q hq
    refine Eq.trans ?_ (h.settled q hq)
    exact congrArg (implied scope · q) hcommitted
  · intro i hi e' he' hlocal'
    obtain ⟨task, hmem, htask⟩ := h.covered i hi e' he' hlocal'
    exact ⟨task, List.mem_append_left _ hmem, htask⟩

/-- The extrinsic is not of a legal officer of this node. -/
theorem Inv.skipped (h : Inv scope chain σ) {e : SelectionExtrinsic} (he : chain[σ.next]? = some e)
    (hlocal : e.isLocal = false) : Inv scope chain { σ with next := σ.next + 1 } where
  made := h.made
  shapes := h.shapes
  selected := h.selected
  origins := h.origins
  unended := h.unended
  pass := by
    show _ = ((chain.zipIdx.take (σ.next + 1)).drop σ.synced).filter _
    rw [pass_next he h.syncedLe, hlocal]
    simpa using h.pass
  passLe := h.passLe
  syncedLe := Nat.le_succ_of_le h.syncedLe
  settled := h.settled
  covered := h.covered

theorem Inv.handle (h : Inv scope chain σ) {identityLocId : Option UUID} {locFound : Bool}
    {σ' : System} (hok : σ.handle chain identityLocId locFound = .ok σ') : Inv scope chain σ' := by
  unfold System.handle at hok
  cases he : chain[σ.next]? with
  | none =>
    rw [he] at hok
    cases hok
  | some e =>
    rw [he] at hok
    cases hlocal : e.isLocal with
    | false =>
      simp only [hlocal, Bool.not_false, if_true] at hok
      cases hok
      exact h.skipped he hlocal
    | true =>
      simp only [hlocal, Bool.not_true, Bool.false_eq_true, if_false] at hok
      cases identityLocId with
      | none =>
        cases hok
        exact h.startOver
      | some identityLocId =>
        cases e with
        | dismissIssuer signer issuer =>
          cases hok
          exact h.started he hlocal identityLocId
        | setIssuerSelection signer locId issuer selected =>
          cases locFound with
          | true =>
            cases hok
            exact h.started he hlocal identityLocId
          | false =>
            cases hok
            exact h.startOver

/-- **Sync point.**  The tasks that were started since the last one have committed. -/
theorem Inv.sync (h : Inv scope chain σ) (hC : Undisturbed scope σ .sync) :
    Inv scope chain { σ with synced := σ.next, pass := σ.tasks.length } := by
  obtain ⟨hended, hcommitted⟩ := hC
  have hpass : committedExtrinsics (σ.tasks.drop σ.pass) =
      ((chain.take σ.next).drop σ.synced).filter SelectionExtrinsic.isLocal := by
    rw [committedExtrinsics_of_committed hcommitted]
    have hfst := congrArg (List.map Prod.fst) h.pass
    rw [List.map_map] at hfst
    refine hfst.trans ?_
    show List.map Prod.fst (List.filter (SelectionExtrinsic.isLocal ∘ Prod.fst) _) = _
    rw [← List.filter_map, List.map_drop, List.map_take, List.zipIdx_map_fst]
  have hnew : chain.take σ.next = chain.take σ.synced ++ (chain.take σ.next).drop σ.synced := by
    have hsplit := (List.take_append_drop σ.synced (chain.take σ.next)).symm
    rwa [List.take_take, Nat.min_eq_left h.syncedLe] at hsplit
  have hrest : chain.drop σ.synced = (chain.take σ.next).drop σ.synced ++ chain.drop σ.next := by
    have hsplit := (List.take_append_drop (σ.next - σ.synced) (chain.drop σ.synced)).symm
    rwa [← List.drop_take, List.drop_drop, Nat.add_sub_cancel' h.syncedLe] at hsplit
  refine ⟨h.made, h.shapes, h.selected, h.origins, fun task hmem => .inl (hended task hmem), ?_,
    Nat.le_refl _, Nat.le_refl _, fun q hq => ?_, fun i hi e he hlocal => ?_⟩
  · rw [List.drop_length, List.drop_eq_nil_of_le]
    · rfl
    · rw [List.length_take]
      exact Nat.min_le_left _ _
  · show implied scope (committedExtrinsics σ.tasks) q = implied scope (chain.take σ.next) q
    by_cases hwritten : ∃ e ∈ (chain.take σ.next).drop σ.synced, e.implies scope q ≠ none
    · -- the last write is one of those that were started since the last sync point
      have hfilter : ∀ v, LastWrite.value (fun e => e.implies scope q) v
          (((chain.take σ.next).drop σ.synced).filter SelectionExtrinsic.isLocal) =
            LastWrite.value (fun e => e.implies scope q) v ((chain.take σ.next).drop σ.synced) :=
        fun v => LastWrite.value_filter fun e _ hlocal => implies_of_not_local hlocal
      rw [implied, implied, hnew, LastWrite.value_append, ← List.take_append_drop σ.pass σ.tasks,
        committedExtrinsics_append, hpass, LastWrite.value_append, hfilter]
      exact LastWrite.value_forget hwritten
    · have hnone : ∀ e ∈ (chain.take σ.next).drop σ.synced, e.implies scope q = none := by
        simpa using hwritten
      have hbefore := h.settled q fun e he => by
        rw [hrest] at he
        exact (List.mem_append.mp he).elim (hnone e) (hq e)
      rw [hbefore, implied, implied, hnew, LastWrite.value_append, LastWrite.value_skip hnone]
  · by_cases hlt : i < σ.synced
    · exact h.covered i hlt e he hlocal
    · have hmem : (e, i) ∈ ((chain.zipIdx.take σ.next).drop σ.synced).filter fun e => e.1.isLocal := by
        refine List.mem_filter.mpr ⟨List.mem_of_getElem? (i := i - σ.synced) ?_, hlocal⟩
        rw [List.getElem?_drop, Nat.add_sub_cancel' (Nat.le_of_not_lt hlt), List.getElem?_take_of_lt hi,
          List.getElem?_zipIdx, he]
        simp
      rw [← h.pass] at hmem
      obtain ⟨task, htask, heq⟩ := List.mem_map.mp hmem
      exact ⟨task, List.mem_of_mem_drop htask, congrArg Prod.snd heq, hcommitted task htask⟩

theorem inv_step {o : Op} {σ' : System} (h : Inv scope chain σ) (hC : Undisturbed scope σ o)
    (hok : step chain σ o = .ok σ') : Inv scope chain σ' := by
  cases o with
  | handle identityLocId locFound => exact h.handle hok
  | startOver =>
    cases hok
    exact h.startOver
  | sync =>
    cases hok
    exact h.sync hC
  | resume t =>
    simp only [step, System.resume] at hok
    cases htask : σ.tasks[t]? with
    | none =>
      rw [htask] at hok
      cases hok
    | some task =>
      rw [htask] at hok
      cases hext : task.extrinsic with
      | setIssuerSelection signer locId issuer selected =>
        simp only [hext] at hok
        exact h.selectUnselect hC htask hext hok
      | dismissIssuer signer issuer =>
        simp only [hext] at hok
        exact h.unselect hC htask hext hok
  | fail t =>
    simp only [step] at hok
    split_ifs at hok with hbefore
    cases hok
    obtain ⟨task, htask, hnot⟩ := (Option.any_eq_true _ _).mp hbefore
    exact h.failed htask (by simpa using hnot)

theorem inv_start : Inv scope chain start where
  made _ := made_nil fun _ hv => by cases hv
  shapes _ hmem := by cases hmem
  selected q := by
    constructor
    · rintro ⟨r, hmem, -⟩
      cases hmem
    · intro h
      cases h
  origins _ hmem := by cases hmem
  unended _ hmem := by cases hmem
  pass := rfl
  passLe := Nat.le_refl _
  syncedLe := Nat.le_refl _
  settled _ _ := rfl
  covered _ hi := by cases hi

theorem Inv.reflects (h : Inv scope chain σ) : Reflects scope chain σ where
  selected q hq := by
    have hchain : implied scope chain q = implied scope (chain.take σ.synced) q := by
      calc implied scope chain q
          = implied scope (chain.take σ.synced ++ chain.drop σ.synced) q := by
            rw [List.take_append_drop]
        _ = implied scope (chain.take σ.synced) q := by
            rw [implied, LastWrite.value_append, LastWrite.value_skip hq]
            rfl
    rw [h.selected q, h.settled q hq, hchain]
  covered := h.covered

end

/-- **The selection of issuers reflects the chain** in every run whose tasks commit as if they had been
awaited. -/
theorem reflects_run [LegalOfficers] (scope : Scope) (chain : List SelectionExtrinsic) (ops : List Op)
    (h : Along (step chain) (Undisturbed scope) start ops) :
    Reflects scope chain (run (step chain) start ops) :=
  (run_invariant (I := Inv scope chain) (fun _ _ _ hinv hC hok => inv_step hinv hC hok) inv_start h).reflects

/-! ### Tasks that commit in order, and tasks that do not -/

/-- A dismissal concerns the LOCs of every legal officer. -/
def everyLoc : Scope := fun _ _ => true

/-- The issuer is selected, and then dismissed. -/
def selectDismiss : List SelectionExtrinsic :=
  [.setIssuerSelection "alice" "loc" "issuer" true, .dismissIssuer "alice" "issuer"]

/-- The issuer is selected, and then unselected. -/
def selectUnselectAgain : List SelectionExtrinsic :=
  [.setIssuerSelection "alice" "loc" "issuer" true, .setIssuerSelection "alice" "loc" "issuer" false]

def handled : Op := .handle (some "identity") true

/-- The first task fails, and the consumer starts over; the tasks of the second pass commit. -/
def inTurn : List Op :=
  [handled, .fail 0, .startOver, handled] ++ List.replicate 4 (.resume 1) ++ [handled] ++
    List.replicate 2 (.resume 2) ++ [.sync]

/-- Both tasks find no selection; the one that was started first inserts it last. -/
def overtaking : List Op :=
  [handled, handled] ++ List.replicate 2 (.resume 1) ++ List.replicate 4 (.resume 0) ++ [.sync]

theorem reflects_run_inTurn : letI : LegalOfficers := ⟨fun _ => true⟩
    Reflects everyLoc selectDismiss (run (step selectDismiss) start inTurn) :=
  let _ : LegalOfficers := ⟨fun _ => true⟩
  reflects_run everyLoc selectDismiss inTurn (by decide)

/-- An unselected issuer stays selected, and the sync point covers a task that has failed. -/
theorem selection_notReflected : letI : LegalOfficers := ⟨fun _ => true⟩
    ¬ Reflects everyLoc selectUnselectAgain (run (step selectUnselectAgain) start overtaking) ∧
      ¬ Reflects everyLoc selectDismiss (run (step selectDismiss) start [handled, .fail 0, .sync]) := by
  let _ : LegalOfficers := ⟨fun _ => true⟩
  constructor
  · intro h
    have hselected : Selected (stored (run (step selectUnselectAgain) start overtaking).rows)
        ("loc", "issuer") := ⟨⟨"loc", "issuer", "identity", true⟩, by decide, rfl, rfl⟩
    have himplied := (h.selected ("loc", "issuer") (by decide)).mp hselected
    exact absurd himplied (by decide)
  · intro h
    obtain ⟨task, hmem, -, hcommitted⟩ := h.covered 0 (by decide) _ rfl rfl
    obtain rfl := List.mem_singleton.mp hmem
    cases hcommitted

end IssuerSelection

end Logion
