import Logion.Store.Updates

/-!
# SerialUpdates — when concurrent updates are serial

* `Inv`: what holds of the tables and of every call, in every state of a run; one lemma a step.
* `undisturbed_serial`: a run whose commits harm no other call has a serial outcome.
* `closing_lost`: two updates of an open LOC, one of which loses the effect of the other.
-/

namespace Logion

open Fallible Table ReadCommitted

namespace Updates

section

variable [Hashing] {ι : Type} [DecidableEq ι] {updates : ι → Update} {requestId : UUID}
  {rows rows' : LocRows} {c : Update} {l l' : LocRequest} {reread : RootRow}

/-! ### Well-formed rows -/

/-- Well-formed children, and one row for each LOC. -/
structure WellFormed (rows : LocRows) : Prop where
  children : rows.children.WellFormed
  ids : (rows.root.map RootRow.id).Nodup

theorem WellFormed.root_unique {row row' : RootRow} (h : WellFormed rows) (hrow : row ∈ rows.root)
    (hrow' : row' ∈ rows.root) (hid : row'.id = row.id) : row' = row :=
  List.inj_on_of_nodup_map h.ids hrow' hrow hid

/-- What a mutator leaves of a loaded instance is accounted for. -/
theorem accounted_mutate (hrows : WellFormed rows) (hfind : FindById rows requestId l)
    (hmutate : mutate c l = some l') : Accounted rows.children requestId l' := by
  obtain ⟨ops, -, rfl⟩ := Option.map_eq_some_iff.mp hmutate
  exact (hfind.children.accounted hrows.children).run ops

/-! ### A save that is up to date -/

/-- Its UPDATE makes of the root what the save of a fresh instance would. -/
theorem UpToDate.after_saveRoot {l₀ : LocRequest} (hrows : WellFormed rows)
    (hfind : FindById rows requestId l₀) (hid : l.id = requestId)
    (hroot : l'.rootRow = l.rootRow.write reread l₀.rootRow) :
    after (l.saveRoot reread) rows.root = after (l'.saveRoot l₀.rootRow) rows.root := by
  have hid' : l'.id = l.id := (congrArg RootRow.id hroot).trans (hfind.rootRow_id.trans hid.symm)
  rw [Logion.after_saveRoot, Logion.after_saveRoot, hid']
  refine List.map_congr_left fun r hr => ?_
  split_ifs with hrid
  · have heq : r = l₀.rootRow :=
      hrows.root_unique hfind.root hr (hrid.trans (hid.trans hfind.rootRow_id.symm))
    have hid₀ : l'.rootRow.id = l₀.rootRow.id := by
      rw [hroot]
      rfl
    rw [heq, RootRow.write_reread hid₀, hroot]
  · rfl

/-- It stores what the call alone would. -/
theorem UpToDate.alone (hinj : Function.Injective Hashing.of) (hrows : WellFormed rows)
    (h : UpToDate requestId c rows l (some reread)) (hid : l.id = requestId)
    (hafter : ∀ T, (rows' T).Perm (afterAll (l.save reread) rows T)) :
    Alone requestId c rows rows' ∧ WellFormed rows' := by
  obtain ⟨l₀, l', hfind, hmutate, hroot, hsame⟩ := h
  have haccounted := accounted_mutate hrows hfind hmutate
  obtain ⟨children, hsave, hholds⟩ := haccounted.save_holds hinj hrows.children
  have hchildren : children = LocRows.children (afterAll (l.save reread) rows) := by
    rw [(afterAll_save rows).2, ← hsame]
    exact foldlM_exec hsave
  have hperm : rows'.root.Perm (after (l.saveRoot reread) rows.root) := by
    rw [← (afterAll_save rows).1]
    exact hafter .root
  have hitems : ∀ k, (rows'.children.items k).Perm (children.items k) := by
    intro k
    rw [hchildren]
    exact hafter (.items k)
  have hsecrets : rows'.children.secrets.Perm children.secrets := by
    rw [hchildren]
    exact hafter .secrets
  refine ⟨.saved hfind hmutate hsave ?_ hitems hsecrets, ?_, ?_⟩
  · rwa [← UpToDate.after_saveRoot hrows hfind hid hroot]
  · exact (hholds.wellFormed hrows.children haccounted).perm hitems hsecrets
  · rw [Logion.after_saveRoot] at hperm
    refine (hperm.map RootRow.id).nodup_iff.mpr ?_
    rw [List.map_map]
    have hsameIds : RootRow.id ∘ (fun r => if r.id = l.id then l.rootRow.write reread r else r) =
        RootRow.id := by
      funext r
      simp only [Function.comp]
      split_ifs <;> rfl
    rw [hsameIds]
    exact hrows.ids

/-! ### The invariant -/

/-- What a phase says of its call, beside the stored rows. -/
def PhaseSound (requestId : UUID) (c : Update) (rows : LocRows) (p : Phase) : Prop :=
  PhaseUpToDate requestId c rows p ∧
    match p with
    | .mutated l => l.id = requestId
    | .saving l reread done todo => l.id = requestId ∧ done ++ todo = l.save reread
    | _ => True

/-- What holds in every state of a run. -/
structure Inv (updates : ι → Update) (requestId : UUID) (before : LocRows) (σ : System ι) : Prop where
  serial : SerialOutcome updates requestId before σ
  wellFormed : WellFormed (storedAll σ.tables)
  made : ∀ t, MadeAll t (σ.phase t).done σ.tables
  sound : ∀ t, PhaseSound requestId (updates t) (storedAll σ.tables) (σ.phase t)

variable {before : LocRows} {σ σ' : System ι} {t : ι} {p : Phase}

omit [DecidableEq ι] in
theorem inOrder_concat {order : List ι} (h : InOrder updates requestId before order rows)
    (ht : Alone requestId (updates t) rows rows') :
    InOrder updates requestId before (order ++ [t]) rows' := by
  induction order generalizing before with
  | nil =>
    cases h
    exact ⟨rows', ht, rfl⟩
  | cons u order ih =>
    obtain ⟨mid, hu, h⟩ := h
    exact ⟨mid, hu, ih h⟩

/-- A step that commits nothing. -/
theorem Inv.advance {tables : Versions ι LocRow} (h : Inv updates requestId before σ)
    (hstored : storedAll tables = storedAll σ.tables) (hphase : σ.phase t ≠ .committed)
    (hp : p ≠ .committed) (hmade : MadeAll t p.done tables)
    (hothers : ∀ u, u ≠ t → MadeAll u (σ.phase u).done tables)
    (hsound : PhaseSound requestId (updates t) (storedAll σ.tables) p) :
    Inv updates requestId before (σ.moved t tables p) := by
  refine ⟨?_, ?_, fun u => ?_, fun u => ?_⟩
  · obtain ⟨order, hnodup, hmem, horder⟩ := h.serial
    refine ⟨order, hnodup, fun u => ?_, ?_⟩
    · rw [hmem u]
      by_cases hu : u = t
      · subst hu
        exact iff_of_false hphase (by simpa using hp)
      · rw [System.phase_moved_of_ne hu]
    · rwa [System.tables_moved, hstored]
  · rw [System.tables_moved, hstored]
    exact h.wellFormed
  · by_cases hu : u = t
    · subst hu
      simpa using hmade
    · rw [System.phase_moved_of_ne hu]
      exact hothers u hu
  · rw [System.tables_moved, hstored]
    by_cases hu : u = t
    · subst hu
      simpa using hsound
    · rw [System.phase_moved_of_ne hu]
      exact h.sound u

/-- The rows that a call sees before its first statement are those that are stored. -/
theorem Inv.view_perm (h : Inv updates requestId before σ) (hdone : (σ.phase t).done = [])
    (T : LocTable) : (viewAll t σ.tables T).Perm (storedAll σ.tables T) := by
  have hmade := h.made t T
  rw [hdone] at hmade
  exact hmade.view

theorem Inv.load {l₀ : LocRequest} (h : Inv updates requestId before σ) (hphase : σ.phase t = .ready)
    (hfind : FindById (viewAll t σ.tables) requestId l₀) (hmutate : mutate (updates t) l₀ = some l) :
    Inv updates requestId before (σ.moved t σ.tables (.mutated l)) := by
  have hmade := h.made t
  rw [hphase] at hmade
  have hfind' := FindById.perm hfind (h.view_perm (by rw [hphase]; rfl))
  have hid : l.id = requestId := (accounted_mutate h.wellFormed hfind' hmutate).id
  refine h.advance rfl (by simp [hphase]) (by simp) hmade (fun u _ => h.made u) ⟨?_, hid⟩
  refine ⟨l₀, l, hfind', hmutate, ?_, rfl⟩
  exact (RootRow.write_reread (hid.trans hfind'.rootRow_id.symm)).symm

theorem Inv.rereadRoot (h : Inv updates requestId before σ) (hphase : σ.phase t = .mutated l)
    (hrow : reread ∈ LocRows.root (viewAll t σ.tables)) (hid : reread.id = requestId) :
    Inv updates requestId before (σ.moved t σ.tables (.saving l reread [] (l.save reread))) := by
  have hmade := h.made t
  rw [hphase] at hmade
  have hsound := h.sound t
  rw [hphase] at hsound
  obtain ⟨⟨l₀, l', hfind, hmutate, hroot, hsame⟩, hlid⟩ := hsound
  have hstored : reread ∈ LocRows.root (storedAll σ.tables) :=
    (h.view_perm (by rw [hphase]; rfl) .root).subset hrow
  have heq : reread = l₀.rootRow :=
    h.wellFormed.root_unique hfind.root hstored (hid.trans hfind.rootRow_id.symm)
  subst heq
  refine h.advance rfl (by simp [hphase]) (by simp) hmade (fun u _ => h.made u) ⟨?_, hlid, rfl⟩
  exact ⟨l₀, l', hfind, hmutate, hroot, hsame⟩

theorem Inv.statement {s : TableStatement LocRow} {done todo : List (TableStatement LocRow)}
    (h : Inv updates requestId before σ) (hphase : σ.phase t = .saving l reread done (s :: todo))
    (hfree : Free (LocRow.clash s.table) t s.statement (σ.tables s.table)) :
    Inv updates requestId before
      (σ.moved t (execOn t s σ.tables) (.saving l reread (done ++ [s]) todo)) := by
  have hmade := h.made t
  rw [hphase] at hmade
  have hsound := h.sound t
  rw [hphase] at hsound
  obtain ⟨huptodate, hid, hall⟩ := hsound
  refine h.advance storedAll_execOn (by simp [hphase]) (by simp) hmade.exec_self
    (fun u hu => (h.made u).exec_other hu hfree) ⟨huptodate, hid, ?_⟩
  rw [List.append_assoc]
  exact hall

theorem Inv.fail (h : Inv updates requestId before σ) (hphase : σ.phase t ≠ .committed) :
    Inv updates requestId before (σ.moved t (rollbackAll t σ.tables) .failed) :=
  h.advance storedAll_rollbackAll hphase (by simp) madeAll_rollback_self
    (fun u hu => (h.made u).rollback_other hu) ⟨trivial, trivial⟩

/-- **A commit** stores what the call alone would, after the calls that have committed before. -/
theorem Inv.commit {done : List (TableStatement LocRow)} (hinj : Function.Injective Hashing.of)
    (h : Inv updates requestId before σ) (hC : Undisturbed updates requestId σ t .commit)
    (hphase : σ.phase t = .saving l reread done []) :
    Inv updates requestId before (σ.moved t (commitAll t σ.tables) .committed) := by
  have hmade := h.made t
  rw [hphase] at hmade
  have hsound := h.sound t
  rw [hphase] at hsound
  obtain ⟨huptodate, hid, hall⟩ := hsound
  rw [List.append_nil] at hall
  subst hall
  obtain ⟨halone, hwellFormed⟩ := UpToDate.alone hinj h.wellFormed huptodate hid hmade.stored_commit
  obtain ⟨order, hnodup, hmem, horder⟩ := h.serial
  have hnew : t ∉ order := by
    rw [hmem t, hphase]
    simp
  refine ⟨⟨order ++ [t], ?_, fun u => ?_, inOrder_concat horder halone⟩, hwellFormed, fun u => ?_,
    fun u => ?_⟩
  · exact hnodup.append (List.nodup_singleton t) (by simpa using hnew)
  · rw [List.mem_append, List.mem_singleton, hmem u]
    by_cases hu : u = t
    · simp [hu]
    · simp [System.phase_moved_of_ne hu, hu]
  · by_cases hu : u = t
    · subst hu
      rw [System.phase_moved_self]
      exact madeAll_commit_self
    · rw [System.phase_moved_of_ne hu]
      exact (h.made u).commit_other hu (hC rfl u hu).2
  · by_cases hu : u = t
    · subst hu
      rw [System.phase_moved_self]
      exact ⟨trivial, trivial⟩
    · rw [System.phase_moved_of_ne hu, System.tables_moved, storedAll_commitAll]
      exact ⟨(hC rfl u hu).1, (h.sound u).2⟩

/-! ### Runs -/

/-- Nothing is written yet, and no call has begun. -/
structure Start (σ : System ι) : Prop where
  phase : ∀ t, σ.phase t = .ready
  unwritten : ∀ T, ∀ v ∈ σ.tables T, v.pending = none
  wellFormed : WellFormed (storedAll σ.tables)

theorem Start.inv (h : Start σ) : Inv updates requestId (storedAll σ.tables) σ where
  serial := ⟨[], List.nodup_nil, fun t => by simp [h.phase t], rfl⟩
  wellFormed := h.wellFormed
  made t := by
    rw [h.phase t]
    refine madeAll_nil fun T v hv => ?_
    simp [Version.writtenBy, h.unwritten T v hv]
  sound t := by
    rw [h.phase t]
    exact ⟨trivial, trivial⟩

theorem Inv.step {a : Action} (hinj : Function.Injective Hashing.of)
    (h : Inv updates requestId before σ) (hC : Undisturbed updates requestId σ t a)
    (hstep : Step updates requestId σ t a σ') : Inv updates requestId before σ' := by
  cases hstep with
  | load hphase hfind hmutate => exact h.load hphase hfind hmutate
  | reread hphase hrow hid => exact h.rereadRoot hphase hrow hid
  | statement hphase hfree hconsistent => exact h.statement hphase hfree
  | commit hphase => exact h.commit hinj hC hphase
  | fail hphase => exact h.fail hphase

/-- **Concurrent updates** whose commits harm no other call have a serial outcome. -/
theorem undisturbed_serial (hinj : Function.Injective Hashing.of) (hσ : Start σ)
    (hrun : Run updates requestId (Undisturbed updates requestId) σ σ') :
    SerialOutcome updates requestId (storedAll σ.tables) σ' := by
  have hinv : Inv updates requestId (storedAll σ.tables) σ' := by
    induction hrun with
    | start => exact hσ.inv
    | step hrun hC hstep ih => exact ih.step hinj hC hstep
  exact hinv.serial

/-! ### A LOC without children -/

/-- One LOC is stored, without children. -/
structure OneRoot (requestId : UUID) (rows : LocRows) (row : RootRow) : Prop where
  root : rows.root = [row]
  id : row.id = requestId
  items : ∀ k, rows.children.items k = []
  secrets : rows.children.secrets = []

omit [Hashing] in
theorem OneRoot.findById (h : OneRoot requestId rows l.rootRow) (hl : l.Childless) :
    FindById rows requestId l where
  root := by
    rw [h.root]
    exact List.mem_singleton.mpr rfl
  children := {
    id := h.id
    items := fun k => by simp [ChildTables.rowsOf, (hl.items k).1, h.items k]
    unmarked := hl.unmarked.items
    itemsToDelete := hl.unmarked.itemsToDelete
    secrets := by simp [ChildTables.secretsOf, hl.secrets.1, h.secrets]
    unmarkedSecrets := hl.unmarked.secrets
    secretsToDelete := hl.secrets.2 }

/-- A call alone that marks no child and does not throw stores the root of its instance. -/
theorem OneRoot.alone {row : RootRow} (h : OneRoot requestId rows row) (ha : Alone requestId c rows rows')
    (hc : ∀ l₀, ∃ l, mutate c l₀ = some l ∧ l.id = l₀.id ∧ (l₀.Unmarked → l.Unmarked)) :
    ∃ l₀ l, l₀.rootRow = row ∧ mutate c l₀ = some l ∧ OneRoot requestId rows' l.rootRow := by
  have hmutated : ∀ {l₀}, FindById rows requestId l₀ → ∃ l, mutate c l₀ = some l ∧
      l₀.rootRow = row ∧ l.id = requestId ∧ l.Unmarked := by
    intro l₀ hfind
    obtain ⟨l, hmutate, hid, hunmarked⟩ := hc l₀
    have hroot := hfind.root
    rw [h.root] at hroot
    exact ⟨l, hmutate, List.mem_singleton.mp hroot, hid.trans hfind.children.id,
      hunmarked hfind.isUnmarked⟩
  cases ha with
  | mutatorThrows hfind hmutate =>
    obtain ⟨l, hl, -⟩ := hmutated hfind
    rw [hmutate] at hl
    cases hl
  | saveFails hfind hmutate hsave =>
    obtain ⟨l, hl, -, -, hunmarked⟩ := hmutated hfind
    rw [hmutate] at hl
    cases hl
    rw [ChildTables.save, hunmarked.saveStatements] at hsave
    cases hsave
  | @saved l₀ l children hfind hmutate hsave hroot hitems hsecrets =>
    obtain ⟨_, hl, hrow, hid, hunmarked⟩ := hmutated hfind
    rw [hmutate] at hl
    cases hl
    rw [ChildTables.save, hunmarked.saveStatements] at hsave
    cases hsave
    refine ⟨l₀, l, hrow, hmutate, ?_, hid, fun k => ?_, ?_⟩
    · have hsame : l.rootRow.id = row.id := hid.trans h.id.symm
      rw [h.root, Logion.after_saveRoot, hrow, List.map_singleton, if_pos (h.id.trans hid.symm),
        RootRow.write_reread hsame] at hroot
      exact List.perm_singleton.mp hroot
    · exact List.perm_nil.mp ((hitems k).trans (List.Perm.of_eq (h.items k)))
    · exact List.perm_nil.mp (hsecrets.trans (List.Perm.of_eq h.secrets))

end

/-! ### A LOC that is closed and voided at once -/

/-- The LOC is closed by the synchronizer, and voided by its owner. -/
def closeAndVoid : Bool → Update
  | false => ⟨fun _ => some [.close 5]⟩
  | true => ⟨fun _ => some [.preVoid "reason"]⟩

/-- An open LOC without children. -/
def openRequest : LocRequest where
  id := "15ed922d-5960-4147-a73f-97d362cb7c46"
  status := .opened
  requester := some (.polkadot "requester")
  ownerAddress := "owner"
  locType := .transaction

def closedRequest : LocRequest := openRequest.close 5

def voidedRequest : LocRequest := { openRequest with voidInfo := some ⟨some "reason", none⟩ }

def openSystem : System Bool where
  tables
    | .root => [⟨some openRequest.rootRow, none⟩]
    | .items _ => []
    | .secrets => []
  phase _ := .ready

def closeRoot : TableStatement LocRow :=
  ⟨.root, .update (fun r => r.id = openRequest.id) (closedRequest.rootRow.write openRequest.rootRow)⟩

/-- Both calls have loaded the LOC, and the closing has read the root again. -/
def loadedSystem : System Bool :=
  ((openSystem.moved false openSystem.tables (.mutated closedRequest)).moved true openSystem.tables
    (.mutated voidedRequest)).moved false openSystem.tables
      (.saving closedRequest openRequest.rootRow [] [closeRoot])

theorem closedRequest_childless : closedRequest.Childless where
  items k := by cases k <;> exact ⟨rfl, rfl⟩
  secrets := ⟨rfl, rfl⟩

theorem voidedRequest_childless : voidedRequest.Childless where
  items k := by cases k <;> exact ⟨rfl, rfl⟩
  secrets := ⟨rfl, rfl⟩

theorem openRequest_found (t : Bool) :
    FindById (viewAll t openSystem.tables) openRequest.id openRequest :=
  OneRoot.findById ⟨rfl, rfl, fun _ => rfl, rfl⟩ ⟨fun k => by cases k <;> exact ⟨rfl, rfl⟩, ⟨rfl, rfl⟩⟩

theorem openSystem_start [Hashing] : Start openSystem where
  phase _ := rfl
  unwritten T v hv := by
    cases T with
    | root => rw [List.mem_singleton.mp hv]
    | items k => cases hv
    | secrets => cases hv
  wellFormed := {
    children := ⟨fun _ _ => Indices.dense_nil, fun _ _ => List.nodup_nil,
      fun _ _ hr => (List.not_mem_nil hr).elim, fun _ => List.nodup_nil⟩
    ids := List.nodup_singleton _ }

theorem run_loadedSystem [Hashing] {C : System Bool → Bool → Action → Prop}
    (hC : ∀ σ t a, a ≠ .commit → C σ t a) :
    Run closeAndVoid openRequest.id C openSystem loadedSystem := by
  have hclose : mutate (closeAndVoid false) openRequest = some closedRequest := rfl
  have hvoid : mutate (closeAndVoid true) openRequest = some voidedRequest := rfl
  have h₁ : Run closeAndVoid openRequest.id C openSystem _ :=
    .step .start (hC _ _ _ (by simp)) (.load (t := false) rfl (openRequest_found false) hclose)
  have h₂ := h₁.step (hC _ _ _ (by simp)) (.load (t := true) rfl (openRequest_found true) hvoid)
  have h₃ := h₂.step (hC _ _ _ (by simp)) (.reread (t := false) rfl
    (show openRequest.rootRow ∈ _ from List.mem_singleton.mpr rfl) rfl)
  rw [closedRequest_childless.unmarked.save] at h₃
  exact h₃

/-- Both have read the root again when the closing commits: the UPDATE that voids the LOC leaves the
columns of the closing alone. -/
theorem undisturbed_serial_close_void :
    letI : Hashing := ⟨fun name => name⟩
    ∃ σ, Run closeAndVoid openRequest.id (Undisturbed closeAndVoid openRequest.id) openSystem σ ∧
      (∀ t, σ.phase t = .committed) ∧
      SerialOutcome closeAndVoid openRequest.id (storedAll openSystem.tables) σ := by
  let _ : Hashing := ⟨fun name => name⟩
  have hopen : ∀ (σ : System Bool) t a, a ≠ .commit →
      Undisturbed closeAndVoid openRequest.id σ t a := fun _ _ _ hne h => absurd h hne
  have h₄ := (run_loadedSystem hopen).step (hopen _ _ _ (by simp)) (.reread (t := true) rfl
    (show openRequest.rootRow ∈ _ from List.mem_singleton.mpr rfl) rfl)
  rw [voidedRequest_childless.unmarked.save] at h₄
  have h₅ := h₄.step (hopen _ _ _ (by simp)) (.statement (t := false) rfl (by decide) (by decide))
  -- The voiding would be the same, had it loaded the closed LOC.
  have hfresh : ({ closedRequest with voidInfo := some ⟨some "reason", none⟩ } : LocRequest).Childless :=
    ⟨closedRequest_childless.items, closedRequest_childless.secrets⟩
  have h₆ := h₅.step (fun _ t ht => by
    cases t with
    | false => exact absurd rfl ht
    | true =>
      refine ⟨⟨closedRequest, _, ?_, rfl, ?_, ?_⟩, ?_⟩
      · exact OneRoot.findById ⟨rfl, rfl, fun _ => rfl, rfl⟩ closedRequest_childless
      · decide
      · exact hfresh.unmarked.saveStatements.trans
          voidedRequest_childless.unmarked.saveStatements.symm
      · exact fun T r _ s hs => (List.not_mem_nil hs).elim) (.commit (t := false) rfl)
  have h₇ := h₆.step (hopen _ _ _ (by simp)) (.statement (t := true) rfl (by decide) (by decide))
  have h₈ := h₇.step (fun _ t ht => by
    cases t with
    | false => exact ⟨trivial, fun T r _ s hs => (List.not_mem_nil hs).elim⟩
    | true => exact absurd rfl ht) (.commit (t := true) rfl)
  exact ⟨_, h₈, fun t => by cases t <;> rfl,
    undisturbed_serial Function.injective_id openSystem_start h₈⟩

/-- In any order, one after the other: once closed, the LOC stays so. -/
theorem closed_of_inOrder [Hashing] {requestId : UUID} {rows rows' : LocRows} {row : RootRow}
    {order : List Bool} (h : InOrder closeAndVoid requestId rows order rows')
    (hrows : OneRoot requestId rows row) (hclosed : row.status = .closed ∨ false ∈ order) :
    ∃ row', rows'.root = [row'] ∧ row'.status = .closed := by
  induction order generalizing rows row with
  | nil =>
    cases h
    exact ⟨row, hrows.root, hclosed.resolve_right List.not_mem_nil⟩
  | cons t order ih =>
    obtain ⟨mid, halone, h⟩ := h
    cases t with
    | false =>
      obtain ⟨l₀, l, -, hmutate, hmid⟩ := hrows.alone halone fun l₀ => ⟨l₀.close 5, rfl, rfl,
        fun hu => ⟨hu.items, hu.itemsToDelete, hu.secrets, hu.secretsToDelete⟩⟩
      cases hmutate
      exact ih h hmid (.inl rfl)
    | true =>
      have hvoid : ∀ l₀ : LocRequest, ∃ l, mutate (closeAndVoid true) l₀ = some l ∧
          l.rootRow.status = l₀.rootRow.status ∧ l.id = l₀.id ∧ (l₀.Unmarked → l.Unmarked) := by
        intro l₀
        refine ⟨attempt LocRequest.step l₀ (.preVoid "reason"), rfl, ?_⟩
        rcases attempt_cases LocRequest.step l₀ (.preVoid "reason") with ⟨_, -, hsame⟩ | hstep
        · rw [hsame]
          exact ⟨rfl, rfl, id⟩
        · have hpre : l₀.preVoid "reason" = .ok (attempt LocRequest.step l₀ (.preVoid "reason")) := hstep
          unfold LocRequest.preVoid at hpre
          split_ifs at hpre
          rw [← Except.ok.inj hpre]
          exact ⟨rfl, rfl, fun hu => ⟨hu.items, hu.itemsToDelete, hu.secrets, hu.secretsToDelete⟩⟩
      obtain ⟨l₀, l, hrow, hmutate, hmid⟩ := hrows.alone halone fun l₀ =>
        (hvoid l₀).imp fun l hl => ⟨hl.1, hl.2.2⟩
      obtain ⟨_, hl, hstatus, -⟩ := hvoid l₀
      rw [hmutate] at hl
      cases hl
      refine ih h hmid (hclosed.imp (fun hst => ?_) fun hmem => by simpa using hmem)
      rw [hstatus, hrow, hst]

/-- **A closing is lost.**  The closing commits before the voiding reads the root again: the UPDATE that
voids the LOC opens it, and removes the date. -/
theorem closing_lost :
    letI : Hashing := ⟨fun name => name⟩
    ∃ σ, Run closeAndVoid openRequest.id (fun _ _ _ => True) openSystem σ ∧
      (∀ t, σ.phase t = .committed) ∧
      LocRows.root (storedAll σ.tables) = [voidedRequest.rootRow] ∧
      ¬ SerialOutcome closeAndVoid openRequest.id (storedAll openSystem.tables) σ := by
  let _ : Hashing := ⟨fun name => name⟩
  have hloaded := run_loadedSystem fun _ _ _ _ => trivial
  have h₄ := hloaded.step trivial (.statement (t := false) rfl (by decide) (by decide))
  have h₅ := h₄.step trivial (.commit (t := false) rfl)
  have h₆ := h₅.step trivial (.reread (t := true) rfl
    (show closedRequest.rootRow ∈ _ from List.mem_singleton.mpr rfl) rfl)
  rw [voidedRequest_childless.unmarked.save] at h₆
  have h₇ := h₆.step trivial (.statement (t := true) rfl (by decide) (by decide))
  have h₈ := h₇.step trivial (.commit (t := true) rfl)
  refine ⟨_, h₈, fun t => by cases t <;> rfl, rfl, ?_⟩
  rintro ⟨order, -, hmem, horder⟩
  obtain ⟨row, hrow, hclosed⟩ := closed_of_inOrder horder
    ⟨rfl, rfl, fun _ => rfl, rfl⟩ (.inr ((hmem false).mpr rfl))
  have hlost : [voidedRequest.rootRow] = [row] := hrow
  cases List.singleton_injective hlost
  cases hclosed

end Updates

end Logion
