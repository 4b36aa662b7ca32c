import Logion.Crypto.ConcurrentImport
import Logion.Crypto.ConcurrentExport

/-!
# Isolation — imports and exports that do not disturb each other

All the calls share the fields of one writer and one reader.  A run in which every step finds in these
fields what the same call put there leaves every call as if it were alone; a call that opens its file
while another one still has its own open breaks both.

* `Served`: what the caller of an import or export expects.
* `run_kept`, `import_isolated`, `export_isolated`: what one call relies on, along a run of all of them.
* `isolated_of_owned`: every call is served, in every state of such a run, and gets to its end.
* `imports_disturbed`: two imports whose steps alternate.
-/

namespace Logion

open BlockMode Effect Interleaving Fallible

variable {C : NodeCrypto} {I : Ipfs} {ι : Type}

/-! ### What one call relies on -/

/-- The step finds its own objects in the fields of the writer and the reader. -/
def Owned (s : System (World C ι) ι (Task I)) (t : ι) : Prop := OwnedAt t (s.task t) s.world

instance [DecidableEq ι] (s : System (World C ι) ι (Task I)) (t : ι) : Decidable (Owned s t) :=
  inferInstanceAs (Decidable (OwnedAt t (s.task t) s.world))

section

variable [DecidableEq ι] {env : Env} {headers : ι → Header} {calls : ι → FileCall I}
  {s : System (World C ι) ι (Task I)} {t u : ι} {ts : List ι}

/-- The handles of the calls are those of their encrypted files. -/
def OwnHandles (calls : ι → FileCall I) (s : System (World C ι) ι (Task I)) : Prop :=
  ∀ t, OwnHandle (calls t) t s.world

theorem resumed_touches (hs : OwnHandles calls s) (h : Owned s u) :
    Touches (calls u) u s.world ((service C env headers calls).resumed s u).world :=
  safe_resume h (hs u)

theorem resumed_ownHandles (hs : OwnHandles calls s) (h : Owned s u) :
    OwnHandles calls ((service C env headers calls).resumed s u) := by
  intro t
  have htouches : Touches (calls u) u s.world ((service C env headers calls).resumed s u).world :=
    resumed_touches hs h
  by_cases hne : t = u
  · rw [hne]
    exact htouches.ownHandle (hs u)
  · intro handle hh
    rw [htouches.handles t hne] at hh
    exact hs t handle hh

theorem resumed_of_step {task' : Task I} {w' : World C ι}
    (h : exec (resume env headers calls t (s.task t)) s.world = (.ok task', w')) :
    ((service C env headers calls).resumed s t).task t = task' ∧
      ((service C env headers calls).resumed s t).world = w' :=
  Code.resumed_of_exec h

/-- What call `t` relies on holds after every run in which each step finds its own objects in the
fields, and a rank that each step of `t` lowers has dropped accordingly. -/
theorem run_kept (J : Task I → World C ι → Prop) (rank : Task I → World C ι → ℕ)
    (hpaths : PathsApart calls)
    (hview : ∀ p w w', SameView (calls t) t w w' → J p w → J p w' ∧ rank p w' ≤ rank p w)
    (hstep : ∀ p w, J p w → OwnedAt t p w →
      ∃ p' w', exec (resume env headers calls t p) w = (.ok p', w') ∧
        (Touches (calls t) t w w' → J p' w' ∧ rank p' w' ≤ rank p w - 1))
    (hs : OwnHandles calls s) (hJ : J (s.task t) s.world)
    (hC : Along (service C env headers calls).step Owned s ts) :
    J ((run (service C env headers calls).step s ts).task t)
        (run (service C env headers calls).step s ts).world ∧
      rank ((run (service C env headers calls).step s ts).task t)
        (run (service C env headers calls).step s ts).world ≤
          rank (s.task t) s.world - ts.count t := by
  have hG : ∀ s u, OwnHandles calls s → Owned s u → u ≠ t →
      Touches (calls u) u s.world ((service C env headers calls).resumed s u).world :=
    fun s u hs hu _ => resumed_touches hs hu
  have hstable : ∀ u w w' p, u ≠ t → Touches (calls u) u w w' → J p w →
      J p w' ∧ rank p w' ≤ rank p w :=
    fun u w w' p hne htouches => hview p w w' (.of_touches hpaths hne htouches)
  have hown : ∀ s, OwnHandles calls s → Owned s t → J (s.task t) s.world →
      J (((service C env headers calls).resumed s t).task t)
          ((service C env headers calls).resumed s t).world ∧
        rank (((service C env headers calls).resumed s t).task t)
          ((service C env headers calls).resumed s t).world ≤ rank (s.task t) s.world - 1 := by
    intro s hs ht hJ
    have htouches : Touches (calls t) t s.world
        ((service C env headers calls).resumed s t).world := resumed_touches hs ht
    obtain ⟨p', w', he, hkept⟩ := hstep _ _ hJ ht
    obtain ⟨htask, hworld⟩ := resumed_of_step he
    rw [hworld] at htouches
    rw [htask, hworld]
    exact hkept htouches
  exact ⟨Code.run_isolated (fun s u => resumed_ownHandles) hG
      (fun u w w' p hne hGu hJ => (hstable u w w' p hne hGu hJ).1)
      (fun s hs ht hJ => (hown s hs ht hJ).1) hs hJ hC,
    Code.run_progress (fun s u => resumed_ownHandles) hG hstable hown hs hJ hC⟩

/-! ### Each kind of call -/

section

variable {path password : String} {legalOfficer : AccountId} {clear content : List UInt8}
  {id : FileId I} {header : Header} {p : Task I} {w w' : World C ι}

theorem import_kept_step (hcall : calls t = .importFile path legalOfficer)
    (hpassword : getPassword env legalOfficer = .ok password)
    (h : ImportInv (calls t) t (headers t) password clear p w) (howned : OwnedAt t p w) :
    ∃ p' w', exec (resume env headers calls t p) w = (.ok p', w') ∧ (Touches (calls t) t w w' →
      ImportInv (calls t) t (headers t) password clear p' w' ∧
        importRank clear.length p' ≤ importRank clear.length p - 1) := by
  obtain ⟨p', w', he, hkept⟩ := import_step hcall hpassword h howned
  exact ⟨p', w', he, fun _ => hkept⟩

/-- **Imports.** -/
theorem import_isolated (hpaths : PathsApart calls)
    (hcall : calls t = .importFile path legalOfficer)
    (hpassword : getPassword env legalOfficer = .ok password) (hs : OwnHandles calls s)
    (hJ : ImportInv (calls t) t (headers t) password clear (s.task t) s.world)
    (hC : Along (service C env headers calls).step Owned s ts) :
    ImportInv (calls t) t (headers t) password clear
        ((run (service C env headers calls).step s ts).task t)
        (run (service C env headers calls).step s ts).world ∧
      (importRank clear.length (s.task t) ≤ ts.count t →
        ∃ result, (run (service C env headers calls).step s ts).task t = .resolved result) := by
  obtain ⟨hinv, hrank⟩ := run_kept (ImportInv (calls t) t (headers t) password clear)
    (fun p _ => importRank clear.length p) hpaths
    (fun p w w' hv h => ⟨h.sameView hv, Nat.le_refl _⟩)
    (fun p w h howned => import_kept_step hcall hpassword h howned) hs hJ hC
  exact ⟨hinv, fun hcount => hinv.resolved_of_rank (by omega)⟩

/-- **Exports of files in IPFS.** -/
theorem export_isolated (hpaths : PathsApart calls)
    (hcall : calls t = .exportFile id path legalOfficer)
    (hoid : id.oid.getD 0 = 0) (hcid : id.cid = some (I.cid content))
    (hpassword : getPassword env legalOfficer = .ok password) (hlength : 32 ≤ content.length)
    (hdecrypt : EncryptedFileReader.decrypt C content password = .ok clear)
    (hs : OwnHandles calls s)
    (hJ : ExportInv (calls t) t legalOfficer content password clear (s.task t) s.world)
    (hC : Along (service C env headers calls).step Owned s ts) :
    ExportInv (calls t) t legalOfficer content password clear
        ((run (service C env headers calls).step s ts).task t)
        (run (service C env headers calls).step s ts).world ∧
      (content ∈ s.world.stored → exportRank t content.length (s.task t) s.world ≤ ts.count t →
        ∃ result, (run (service C env headers calls).step s ts).task t = .resolved result) := by
  have hstep : ∀ p w, ExportInv (calls t) t legalOfficer content password clear p w →
      OwnedAt t p w → ∃ p' w', exec (resume env headers calls t p) w = (.ok p', w') ∧
        ExportInv (calls t) t legalOfficer content password clear p' w' ∧
        (content ∈ w.stored →
          exportRank t content.length p' w' ≤ exportRank t content.length p w - 1) :=
    fun p w h howned => export_step hcall hoid hcid hpassword hlength hdecrypt h howned
  have hkept := run_kept (ExportInv (calls t) t legalOfficer content password clear)
    (fun _ _ => 0) hpaths
    (fun p w w' hv h => ⟨ExportInv.sameView h hv, Nat.le_refl _⟩)
    (fun p w h howned => by
      obtain ⟨p', w', he, hinv, -⟩ := hstep p w h howned
      exact ⟨p', w', he, fun _ => ⟨hinv, Nat.zero_le _⟩⟩) hs hJ hC
  refine ⟨hkept.1, fun hmem hcount => ?_⟩
  -- IPFS keeps the content, so that no segment of the download has to wait
  obtain ⟨hinv, hrank⟩ := run_kept
    (fun p w => ExportInv (calls t) t legalOfficer content password clear p w ∧
      content ∈ w.stored) (exportRank t content.length) hpaths
    (fun p w w' hv h => ⟨⟨h.1.sameView hv, hv.stored _ h.2⟩, Nat.le_of_eq (exportRank_sameView hv)⟩)
    (fun p w h howned => by
      obtain ⟨p', w', he, hinv, hrank⟩ := hstep p w h.1 howned
      exact ⟨p', w', he, fun htouches => ⟨⟨hinv, htouches.stored _ h.2⟩, hrank h.2⟩⟩)
    hs ⟨hJ, hmem⟩ hC
  exact hinv.1.resolved_of_rank (by omega)

/-- **Exports of large objects.** -/
theorem largeObject_isolated (hpaths : PathsApart calls)
    (hcall : calls t = .exportFile id path legalOfficer) (hoid : id.oid.getD 0 ≠ 0)
    (hcontent : s.world.largeObjects (id.oid.getD 0) = some content) (hs : OwnHandles calls s)
    (hJ : LargeObjectInv (calls t) content (s.task t) s.world)
    (hC : Along (service C env headers calls).step Owned s ts) :
    LargeObjectInv (calls t) content ((run (service C env headers calls).step s ts).task t)
        (run (service C env headers calls).step s ts).world ∧
      (largeObjectRank (s.task t) ≤ ts.count t →
        ∃ result, (run (service C env headers calls).step s ts).task t = .resolved result) := by
  obtain ⟨hinv, hrank⟩ := run_kept
    (fun p w => LargeObjectInv (calls t) content p w ∧
      w.largeObjects (id.oid.getD 0) = some content) (fun p _ => largeObjectRank p) hpaths
    (fun p w w' hv h => ⟨⟨h.1.sameView hv, hv.largeObjects ▸ h.2⟩, Nat.le_refl _⟩)
    (fun p w h _ => by
      obtain ⟨p', w', he, hinv, hrank⟩ := largeObject_step hcall hoid h.2 h.1
      exact ⟨p', w', he, fun htouches => ⟨⟨hinv, htouches.largeObjects ▸ h.2⟩, hrank⟩⟩)
    hs ⟨hJ, hcontent⟩ hC
  exact ⟨hinv.1, fun hcount => hinv.1.resolved_of_rank (by omega)⟩

end

end

/-! ### All the calls -/

/-- The calls that are going to be made, the random headers of the imports, and what the service finds
when it starts. -/
structure Scenario (C : NodeCrypto) (I : Ipfs) (ι : Type) where
  calls : ι → FileCall I
  headers : ι → Header
  env : Env
  files : String → Option (List UInt8)
  stored : List (List UInt8)
  largeObjects : ℕ → Option (List UInt8)

namespace Scenario

variable (sc : Scenario C I ι)

/-- The service before the first call. -/
def start : System (World C ι) ι (Task I) where
  task _ := .called
  world := {
    files := sc.files
    stored := sc.stored
    largeObjects := sc.largeObjects
    handles _ := none
    ciphers _ := none
    deciphers _ := none
    writer := ⟨none, none⟩
    reader := ⟨none, none, ⟨List.replicate bufferSize 0, List.length_replicate⟩⟩ }

/-- What the caller of `t` expects: an import stores a file that decrypts to the bytes of its source,
an export writes the clear bytes, and neither fails.  Nothing is promised to a call that asks for
something that is not there. -/
def Served (t : ι) (s : System (World C ι) ι (Task I)) : Prop :=
  match sc.calls t with
  | .importFile path legalOfficer => ∀ clear password,
      sc.files path = some clear → getPassword sc.env legalOfficer = .ok password →
      (∀ e, s.task t ≠ .rejected e) ∧ ∀ result, s.task t = .resolved result →
        ∃ cid content, result = some cid ∧ s.world.cat cid = some content ∧
          EncryptedFileReader.decrypt C content password = .ok clear
  | .exportFile id path legalOfficer =>
    if id.oid.getD 0 ≠ 0 then ∀ content, sc.largeObjects (id.oid.getD 0) = some content →
      (∀ e, s.task t ≠ .rejected e) ∧
        ∀ result, s.task t = .resolved result → s.world.files path = some content
    else ∀ header clear password,
      id.cid = some (I.cid (EncryptedFileWriter.encrypt C header password clear)) →
      getPassword sc.env legalOfficer = .ok password →
      (∀ e, s.task t ≠ .rejected e) ∧
        ∀ result, s.task t = .resolved result → s.world.files path = some clear

/-- What the call asks for is there: the source of an import, the large object, or the encrypted file
in IPFS, and the password. -/
def Ready (t : ι) (s : System (World C ι) ι (Task I)) : Prop :=
  match sc.calls t with
  | .importFile path legalOfficer => (∃ clear, sc.files path = some clear) ∧
      ∃ password, getPassword sc.env legalOfficer = .ok password
  | .exportFile id _ legalOfficer =>
    if id.oid.getD 0 ≠ 0 then ∃ content, sc.largeObjects (id.oid.getD 0) = some content
    else ∃ header clear password,
      id.cid = some (I.cid (EncryptedFileWriter.encrypt C header password clear)) ∧
      getPassword sc.env legalOfficer = .ok password ∧
      EncryptedFileWriter.encrypt C header password clear ∈ s.world.stored

/-- The clear bytes of the call are of a number that the reader reads back (`roundTrips_iff`). -/
def ReadsBack (t : ι) : Prop :=
  match sc.calls t with
  | .importFile path _ => ∀ clear, sc.files path = some clear → clear.length % bufferSize ≤ 8176
  | .exportFile id _ _ => ∀ header clear password,
      id.cid = some (I.cid (EncryptedFileWriter.encrypt C header password clear)) →
      clear.length % bufferSize ≤ 8176

theorem ownHandles_start : OwnHandles sc.calls sc.start := by
  intro t handle hh
  cases hh

variable [DecidableEq ι]

/-- The state after a run, the list of the calls that are resumed one after the other. -/
def after (ts : List ι) : System (World C ι) ι (Task I) :=
  run (service C sc.env sc.headers sc.calls).step sc.start ts

/-- Each step of the run finds its own objects in the fields of the writer and the reader. -/
def OwnedRun (ts : List ι) : Prop :=
  Along (service C sc.env sc.headers sc.calls).step Owned sc.start ts

instance (ts : List ι) : Decidable (sc.OwnedRun ts) :=
  inferInstanceAs (Decidable (Along (service C sc.env sc.headers sc.calls).step Owned sc.start ts))

variable {sc} {ts : List ι} {t : ι}

theorem ownHandles_after (hrun : sc.OwnedRun ts) : OwnHandles sc.calls (sc.after ts) :=
  run_invariant (fun _ _ _ hs hu he => by
    obtain rfl := Except.ok.inj he
    exact resumed_ownHandles hs hu) sc.ownHandles_start hrun

theorem after_append (ts more : List ι) : sc.after (ts ++ more) =
    run (service C sc.env sc.headers sc.calls).step (sc.after ts) more :=
  run_append _ _ _

theorem ownedRun_append {more : List ι} : sc.OwnedRun (ts ++ more) ↔
    sc.OwnedRun ts ∧ Along (service C sc.env sc.headers sc.calls).step Owned (sc.after ts) more :=
  along_append

section

variable {path password : String} {legalOfficer : AccountId} {clear content : List UInt8}
  {id : FileId I} {header : Header}

theorem importInv_after (hpaths : PathsApart sc.calls)
    (hcall : sc.calls t = .importFile path legalOfficer) (hfile : sc.files path = some clear)
    (hpassword : getPassword sc.env legalOfficer = .ok password) (hrun : sc.OwnedRun ts) :
    ImportInv (sc.calls t) t (sc.headers t) password clear ((sc.after ts).task t)
      (sc.after ts).world := by
  refine (import_isolated hpaths hcall hpassword sc.ownHandles_start ?_ hrun).1
  change sc.files (sc.calls t).path = some clear
  rw [hcall]
  exact hfile

theorem exportInv_after (hpaths : PathsApart sc.calls)
    (hcall : sc.calls t = .exportFile id path legalOfficer) (hoid : id.oid.getD 0 = 0)
    (hcid : id.cid = some (I.cid (EncryptedFileWriter.encrypt C header password clear)))
    (hpassword : getPassword sc.env legalOfficer = .ok password)
    (hclear : clear.length % bufferSize ≤ 8176) (hrun : sc.OwnedRun ts) :
    ExportInv (sc.calls t) t legalOfficer (EncryptedFileWriter.encrypt C header password clear)
      password clear ((sc.after ts).task t) (sc.after ts).world :=
  (export_isolated hpaths hcall hoid hcid hpassword (header_le_encrypt header password clear)
    (decrypt_encrypt hclear) sc.ownHandles_start trivial hrun).1

theorem largeObjects_after (hrun : sc.OwnedRun ts) :
    (sc.after ts).world.largeObjects = sc.largeObjects := by
  have hboth : OwnHandles sc.calls (sc.after ts) ∧
      (sc.after ts).world.largeObjects = sc.largeObjects :=
    run_invariant (I := fun s => OwnHandles sc.calls s ∧ s.world.largeObjects = sc.largeObjects)
      (fun s u s' hs hu he => by
        obtain rfl := Except.ok.inj he
        exact ⟨resumed_ownHandles hs.1 hu, (resumed_touches hs.1 hu).largeObjects.trans hs.2⟩)
      ⟨sc.ownHandles_start, rfl⟩ hrun
  exact hboth.2

theorem largeObjectInv_after (hpaths : PathsApart sc.calls)
    (hcall : sc.calls t = .exportFile id path legalOfficer) (hoid : id.oid.getD 0 ≠ 0)
    (hcontent : sc.largeObjects (id.oid.getD 0) = some content) (hrun : sc.OwnedRun ts) :
    LargeObjectInv (sc.calls t) content ((sc.after ts).task t) (sc.after ts).world :=
  (largeObject_isolated hpaths hcall hoid hcontent sc.ownHandles_start trivial hrun).1

end

/-- No call is disturbed. -/
theorem served_of_owned (hpaths : PathsApart sc.calls) (hreads : sc.ReadsBack t)
    (hrun : sc.OwnedRun ts) : sc.Served t (sc.after ts) := by
  unfold ReadsBack at hreads
  unfold Served
  cases hcall : sc.calls t with
  | importFile path legalOfficer =>
    rw [hcall] at hreads
    intro clear password hfile hpassword
    have hinv := importInv_after hpaths hcall hfile hpassword hrun
    refine ⟨fun e he => ?_, fun result he => ?_⟩
    · rw [he] at hinv
      exact hinv
    · rw [he] at hinv
      obtain ⟨rfl, hmem⟩ := hinv
      exact ⟨_, _, rfl, cat_of_mem hmem, decrypt_encrypt (hreads clear hfile)⟩
  | exportFile id path legalOfficer =>
    rw [hcall] at hreads
    have hpath : (sc.calls t).path = path := by rw [hcall, FileCall.path]
    dsimp only
    split_ifs with hoid
    · intro content hcontent
      have hinv := largeObjectInv_after hpaths hcall hoid hcontent hrun
      refine ⟨fun e he => ?_, fun result he => ?_⟩
      · rw [he] at hinv
        exact hinv
      · rw [he] at hinv
        exact hpath ▸ hinv
    · intro header clear password hcid hpassword
      have hinv := exportInv_after hpaths hcall (not_not.mp hoid) hcid hpassword
        (hreads header clear password hcid) hrun
      refine ⟨fun e he => ?_, fun result he => ?_⟩
      · rw [he] at hinv
        exact hinv
      · rw [he] at hinv
        exact hpath ▸ hinv

/-- A call that asks for nothing that is not there gets to its end. -/
theorem settles_of_owned (hpaths : PathsApart sc.calls) (hreads : sc.ReadsBack t)
    (hrun : sc.OwnedRun ts) (hready : sc.Ready t (sc.after ts)) :
    ∃ n, ∀ more, sc.OwnedRun (ts ++ more) → n ≤ more.count t →
      ∃ result, (sc.after (ts ++ more)).task t = .resolved result := by
  have hhandles := ownHandles_after hrun
  simp only [after_append, ownedRun_append]
  unfold ReadsBack at hreads
  unfold Ready at hready
  cases hcall : sc.calls t with
  | importFile path legalOfficer =>
    rw [hcall] at hready
    obtain ⟨⟨clear, hfile⟩, password, hpassword⟩ := hready
    have hinv := importInv_after hpaths hcall hfile hpassword hrun
    exact ⟨_, fun more hmore =>
      (import_isolated hpaths hcall hpassword hhandles hinv hmore.2).2⟩
  | exportFile id path legalOfficer =>
    rw [hcall] at hready hreads
    dsimp only at hready
    split_ifs at hready with hoid
    · obtain ⟨content, hcontent⟩ := hready
      have hinv := largeObjectInv_after hpaths hcall hoid hcontent hrun
      rw [← largeObjects_after hrun] at hcontent
      exact ⟨_, fun more hmore =>
        (largeObject_isolated hpaths hcall hoid hcontent hhandles hinv hmore.2).2⟩
    · obtain ⟨header, clear, password, hcid, hpassword, hmem⟩ := hready
      have hclear := hreads header clear password hcid
      have hinv := exportInv_after hpaths hcall (not_not.mp hoid) hcid hpassword hclear hrun
      exact ⟨_, fun more hmore =>
        (export_isolated hpaths hcall (not_not.mp hoid) hcid hpassword
          (header_le_encrypt header password clear) (decrypt_encrypt hclear) hhandles hinv
          hmore.2).2 hmem⟩

/-- **Isolation.**  In every run whose steps find their own objects in the fields of the writer and
the reader, every call is served and, once what it asks for is there, gets to its end. -/
theorem isolated_of_owned (hpaths : PathsApart sc.calls) (hreads : ∀ t, sc.ReadsBack t)
    (hrun : sc.OwnedRun ts) (t : ι) :
    sc.Served t (sc.after ts) ∧ (sc.Ready t (sc.after ts) →
      ∃ n, ∀ more, sc.OwnedRun (ts ++ more) → n ≤ more.count t →
        ∃ result, (sc.after (ts ++ more)).task t = .resolved result) :=
  ⟨served_of_owned hpaths (hreads t) hrun, settles_of_owned hpaths (hreads t) hrun⟩

/-! ### Runs of two calls -/

/-- An IPFS in which a content is its own CID. -/
def plainIpfs : Ipfs where
  Cid := List UInt8
  decEq := inferInstance
  cid := id
  cid_injective := Function.injective_id

/-- An import of one file and an export of another one. -/
def importAndExport : Scenario xorCrypto plainIpfs Bool where
  calls
    | true => .importFile "a" (.polkadot "alice")
    | false => .exportFile
      ⟨none, some (EncryptedFileWriter.encrypt xorCrypto zeroHeader "secret" [2])⟩ "b"
      (.polkadot "alice")
  headers _ := zeroHeader
  env _ := some "secret"
  files path := if path = "a" then some [1] else none
  stored := [EncryptedFileWriter.encrypt xorCrypto zeroHeader "secret" [2]]
  largeObjects _ := none

theorem readsBack_importAndExport (t : Bool) : importAndExport.ReadsBack t := by
  cases t with
  | true =>
    rintro clear hfile
    obtain rfl := Option.some.inj hfile
    decide
  | false =>
    intro header clear password hcid
    have hlen := congrArg List.length (Option.some.inj hcid)
    change (EncryptedFileWriter.encrypt xorCrypto zeroHeader "secret" [2]).length =
      (EncryptedFileWriter.encrypt xorCrypto header password clear).length at hlen
    rw [encrypt_length, encrypt_length] at hlen
    simp only [List.length_singleton, bufferSize] at hlen ⊢
    omega

/-- Their steps alternate, and both are served. -/
theorem isolated_importAndExport :
    importAndExport.Served true (importAndExport.after (List.replicate 17 [true, false]).flatten) ∧
    importAndExport.Served false
      (importAndExport.after (List.replicate 17 [true, false]).flatten) := by
  have hpaths : PathsApart importAndExport.calls := ⟨by decide, by decide⟩
  have hrun : importAndExport.OwnedRun (List.replicate 17 [true, false]).flatten := by
    decide +kernel
  exact ⟨(isolated_of_owned hpaths readsBack_importAndExport hrun true).1,
    (isolated_of_owned hpaths readsBack_importAndExport hrun false).1⟩

/-- Two imports. -/
def twoImports : Scenario xorCrypto plainIpfs Bool where
  calls t := .importFile (if t then "a" else "b") (.polkadot "alice")
  headers _ := zeroHeader
  env _ := some "secret"
  files path := if path = "a" then some [1] else if path = "b" then some [2] else none
  stored := []
  largeObjects _ := none

/-- The second import opens its file before the first one has written anything. -/
def crossing : List Bool :=
  [true, true, false, false] ++ List.replicate 15 true ++ List.replicate 3 false

/-- The first import writes into the file of the second one and closes it; it stores an empty file and
returns.  The second one then fails. -/
theorem imports_disturbed :
    PathsApart twoImports.calls ∧ (∀ t, twoImports.ReadsBack t) ∧
      ¬ twoImports.Served true (twoImports.after crossing) ∧
      ¬ twoImports.Served false (twoImports.after crossing) := by
  refine ⟨⟨by decide, by decide⟩, fun t clear hfile => ?_, fun h => ?_, fun h => ?_⟩
  · cases t <;> obtain rfl := Option.some.inj hfile <;> decide
  · have hend : (twoImports.after crossing).task true = .resolved (some []) := by rfl
    have hstored : (twoImports.after crossing).world.stored = [[]] := by rfl
    obtain ⟨cid, content, hcid, hcat, hdecrypt⟩ := (h [1] "secret" rfl rfl).2 _ hend
    have hcontent : content ∈ (twoImports.after crossing).world.stored :=
      List.mem_of_find?_eq_some hcat
    rw [hstored, List.mem_singleton] at hcontent
    rw [hcontent, EncryptedFileReader.decrypt, EncryptedFileReader.readToFile_eq_readAll,
      EncryptedFileReader.readAll_empty rfl] at hdecrypt
    cases hdecrypt
  · have hend : (twoImports.after crossing).task false =
        .rejected (.error "EBADF: bad file descriptor") := by rfl
    exact (h [2] "secret" rfl rfl).1 _ hend

end Scenario

end Logion
