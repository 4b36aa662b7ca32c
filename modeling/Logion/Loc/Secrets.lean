import Logion.Loc.InPlace
import Logion.Loc.Markers
import Logion.Loc.Reachable
import Logion.Model.Seal
import Mathlib.Data.List.Perm.Subperm

/-!
# Secrets — the recoverable secrets of a LOC along its history

* `addSecret_eq_ok`: when a secret is added, and to which LOC.
* `InPlace.addSecret`, `InPlace.removeSecret`: the methods statement by statement; both throw before
  any write.
* `Happening`: an operation on the instance, or a reload from its rows.
* `SecretsBounded`, `SecretsKept`: what is expected of every state, and of every happening.
* `secrets_iff`: both hold along a history exactly if no secret is accepted beside ten others: the
  guard `> 10` lets one more through.
-/

namespace Logion

open Keyed Effect Fallible

namespace LocRequest

variable {l l' l₀ : LocRequest} {name value : String}

/-! ### One call -/

/-- What `addSecret` checks, but for the number of secrets. -/
structure SuitsSecret (l : LocRequest) (name value : String) : Prop where
  valid : l.isValidIdentityLoc = true
  fresh : name ∉ l.secrets.map RecoverableSecret.name
  name_le : utf16Length name ≤ 255
  value_le : utf16Length value ≤ 4096

theorem addSecret_eq_ok : l.addSecret name value = .ok l' ↔
    l.SuitsSecret name value ∧ l.secrets.length ≤ 10 ∧
      l' = { l with secrets := l.secrets ++ [⟨name, value, true⟩] } := by
  have hfresh : l.hasSecret name = false ↔ name ∉ l.secrets.map RecoverableSecret.name := by
    rw [hasSecret, List.any_eq_false]
    simp
  constructor
  · intro h
    obtain ⟨hnew, heq⟩ := addSecret_ok h
    unfold addSecret at h
    split_ifs at h with h1 h2 h3 h4 h5
    exact ⟨⟨by simpa using h1, hnew, by omega, by omega⟩, by omega, heq⟩
  · rintro ⟨⟨hvalid, hnew, hname, hvalue⟩, hlength, rfl⟩
    unfold addSecret
    rw [hvalid, hfresh.mpr hnew, if_neg (by simp), if_neg (by simp), if_neg (by omega),
      if_neg (by omega), if_neg (by omega)]
    rfl

end LocRequest

/-! ### Statement by statement -/

namespace InPlace

def addSecret (name value : String) : Method Unit := do
  let l ← get
  if !l.isValidIdentityLoc then
    throw (.error "Secrets can only be added to a valid Identity LOC")
  else if l.hasSecret name then
    throw (.error ("A secret with name '" ++ name ++ "' already exists"))
  else if utf16Length name > 255 then throw (.error "Name is too long (max 255 characters)")
  else if utf16Length value > 4096 then throw (.error "Value is too long (max 4096 characters)")
  else if l.secrets.length > 10 then throw (.error "Too many secrets (max 10)")
  else modify fun l => { l with secrets := l.secrets ++ [⟨name, value, true⟩] }

/-- With `deleteChild`: the secret is pushed to those to delete, then taken out. -/
def removeSecret (name : String) : Method Unit := do
  match lookup RecoverableSecret.name name (← get).secrets with
  | none => throw (.error ("There is no secret with name '" ++ name ++ "'"))
  | some secret => do
    modify fun l => { l with secretsToDelete := l.secretsToDelete ++ [secret] }
    modify fun l => { l with secrets := eraseFirst RecoverableSecret.name name l.secrets }

theorem refines_addSecret (name value : String) :
    Refines (addSecret name value) (·.addSecret name value) := by
  intro l
  unfold RefinesAt LocRequest.addSecret addSecret
  rw [exec_bind_ok (exec_get l)]
  dsimp only
  split_ifs <;> rfl

theorem refines_removeSecret (name : String) :
    Refines (removeSecret name) (·.removeSecret name) := by
  intro l
  unfold RefinesAt LocRequest.removeSecret removeSecret
  rw [exec_bind_ok (exec_get l)]
  dsimp only
  cases hsecret : lookup RecoverableSecret.name name l.secrets with
  | none => rfl
  | some secret => rfl

/-- A refusal leaves both lists as they were. -/
theorem Refines.kept {m : Method Unit} {f : LocRequest → Except Err LocRequest} (h : Refines m f)
    {l l' : LocRequest} {e : Err} (he : exec m l = (.error e, l')) :
    l'.secrets = l.secrets ∧ l'.secretsToDelete = l.secretsToDelete := by
  cases hf : f l with
  | ok l₁ =>
    rw [h.of_ok hf] at he
    cases he
  | error e₁ =>
    rw [h.of_error hf] at he
    cases he
    exact ⟨rfl, rfl⟩

end InPlace

/-! ### Histories -/

/-- An operation on the instance, or a reload that gives the instance `l'`. -/
inductive Happening
  | operation (op : LocOp)
  | reload (l' : LocRequest)

/-- The method of a call on the secrets. -/
def Happening.secretMethod : Happening → Option (Method Unit)
  | .operation (.addSecret name value) => some (InPlace.addSecret name value)
  | .operation (.removeSecret name) => some (InPlace.removeSecret name)
  | _ => none

variable [Hashing]

namespace LocRequest

variable {l l' l₀ : LocRequest} {name value : String} {h : Happening} {hs : List Happening}

def happen (l : LocRequest) : Happening → Except Err LocRequest
  | .operation op => l.step op
  | .reload l' => .ok l'

omit [Hashing] in
/-- A reload gives an instance loaded from the rows. -/
def FromRows (l : LocRequest) : Happening → Prop
  | .operation _ => True
  | .reload l' => Reloads l l'

/-- What holds of the secrets in every state. -/
structure SecretsBounded (l : LocRequest) : Prop where
  atMostTen : l.secrets.length ≤ 10
  distinct : (l.secrets.map RecoverableSecret.name).Nodup
  names : ∀ secret ∈ l.secrets, utf16Length secret.name ≤ 255
  values : ∀ secret ∈ l.secrets, utf16Length secret.value ≤ 4096

/-- What happens to the secrets: one is only added while the LOC is a closed identity LOC that is not
void, and a call that is refused leaves the instance with the secrets, and those to delete, that it
had. -/
structure SecretsKept (l : LocRequest) (h : Happening) : Prop where
  added : ∀ secret ∈ (attempt happen l h).secrets,
    secret.name ∉ l.secrets.map RecoverableSecret.name →
      l.locType = .identity ∧ l.status = .closed ∧ l.isVoid = false
  refused : ∀ m, h.secretMethod = some m → ∀ e l', exec m l = (.error e, l') →
    l'.secrets = l.secrets ∧ l'.secretsToDelete = l.secretsToDelete

/-- No secret is accepted beside ten others. -/
def WithinTen (l : LocRequest) : Happening → Prop
  | .operation (.addSecret name value) => l.SuitsSecret name value → l.secrets.length ≠ 10
  | _ => True

/-! ### One happening -/

/-- The secrets that are left are some of those that there were, or one was added. -/
theorem attempt_secrets (hrows : l.FromRows h) :
    ((attempt happen l h).secrets.map RecoverableSecret.row).Subperm
        (l.secrets.map RecoverableSecret.row) ∨
      ∃ name value, h = .operation (.addSecret name value) ∧ l.SuitsSecret name value ∧
        (attempt happen l h).secrets = l.secrets ++ [⟨name, value, true⟩] := by
  rcases attempt_cases happen l h with ⟨e, -, heq⟩ | hok
  · rw [heq]
    exact .inl (List.Subperm.refl _)
  · generalize attempt happen l h = l' at hok ⊢
    cases h with
    | reload l₁ =>
      obtain rfl := Except.ok.inj hok
      left
      have hperm := (hrows.secrets).map RecoverableSecret.row
      rw [List.map_map] at hperm
      exact hperm.subperm
    | operation op =>
      cases hop : op.isSecret with
      | false =>
        rw [(step_secrets hop hok).1]
        exact .inl (List.Subperm.refl _)
      | true =>
        cases op with
        | addSecret name value =>
          obtain ⟨hsuits, -, rfl⟩ := addSecret_eq_ok.mp hok
          exact .inr ⟨name, value, rfl, hsuits, rfl⟩
        | removeSecret name =>
          obtain ⟨secret, -, rfl⟩ := removeSecret_ok hok
          exact .inl (List.eraseP_sublist.map _).subperm
        | _ => cases hop

omit [Hashing] in
theorem SecretsBounded.of_subperm (hl : l.SecretsBounded)
    (h : (l'.secrets.map RecoverableSecret.row).Subperm (l.secrets.map RecoverableSecret.row)) :
    l'.SecretsBounded := by
  have hlength := h.length_le
  rw [List.length_map, List.length_map] at hlength
  have hfrom : ∀ secret ∈ l'.secrets, ∃ s ∈ l.secrets, s.row = secret.row := fun secret hmem =>
    List.mem_map.mp (h.subset (List.mem_map_of_mem hmem))
  refine ⟨Nat.le_trans hlength hl.atMostTen, ?_, fun secret hmem => ?_, fun secret hmem => ?_⟩
  · obtain ⟨kept, hperm, hsub⟩ := h
    have hnames : ∀ xs : List RecoverableSecret,
        (xs.map RecoverableSecret.row).map RecoverableSecret.name = xs.map RecoverableSecret.name :=
      fun xs => List.map_map
    rw [← hnames, ← (hperm.map _).nodup_iff]
    exact (hsub.map _).nodup (hnames l.secrets ▸ hl.distinct)
  · obtain ⟨s, hs, heq⟩ := hfrom secret hmem
    have hname : s.row.name = secret.row.name := by rw [heq]
    exact (show s.name = secret.name from hname) ▸ hl.names s hs
  · obtain ⟨s, hs, heq⟩ := hfrom secret hmem
    have hvalue : s.row.value = secret.row.value := by rw [heq]
    exact (show s.value = secret.value from hvalue) ▸ hl.values s hs

omit [Hashing] in
theorem SecretsBounded.add (hl : l.SecretsBounded) (hsuits : l.SuitsSecret name value)
    (hlength : l.secrets.length ≠ 10) (h : l'.secrets = l.secrets ++ [⟨name, value, true⟩]) :
    l'.SecretsBounded := by
  have hten := hl.atMostTen
  refine ⟨?_, ?_, fun secret hmem => ?_, fun secret hmem => ?_⟩
  · rw [h, List.length_append, List.length_singleton]
    omega
  · rw [h, List.map_append, List.nodup_append_comm]
    exact List.nodup_cons.mpr ⟨hsuits.fresh, hl.distinct⟩
  · rw [h] at hmem
    rcases List.mem_append.mp hmem with hmem | hmem
    · exact hl.names secret hmem
    · exact List.mem_singleton.mp hmem ▸ hsuits.name_le
  · rw [h] at hmem
    rcases List.mem_append.mp hmem with hmem | hmem
    · exact hl.values secret hmem
    · exact List.mem_singleton.mp hmem ▸ hsuits.value_le

/-- **One happening** keeps the bounds exactly if it is not an eleventh secret. -/
theorem attempt_bounded_iff (hrows : l.FromRows h) (hl : l.SecretsBounded) :
    (attempt happen l h).SecretsBounded ↔ l.WithinTen h := by
  constructor
  · intro hafter
    cases h with
    | reload l' => trivial
    | operation op =>
      cases op with
      | addSecret name value =>
        intro hsuits hten
        have hadd : happen l (.operation (.addSecret name value)) = .ok _ :=
          addSecret_eq_ok.mpr ⟨hsuits, Nat.le_of_eq hten, rfl⟩
        have heleven := hafter.atMostTen
        rw [attempt_of_ok hadd, List.length_append, hten, List.length_singleton] at heleven
        omega
      | _ => trivial
  · intro hwithin
    rcases attempt_secrets hrows with hsub | ⟨name, value, rfl, hsuits, hadded⟩
    · exact hl.of_subperm hsub
    · exact hl.add hsuits (hwithin hsuits) hadded

/-- What happens to the secrets is as expected in any case. -/
theorem secretsKept (hrows : l.FromRows h) : l.SecretsKept h where
  added secret hmem hnew := by
    rcases attempt_secrets hrows with hsub | ⟨name, value, -, hsuits, -⟩
    · obtain ⟨s, hs, heq⟩ := List.mem_map.mp (hsub.subset (List.mem_map_of_mem hmem))
      have hname : s.row.name = secret.row.name := by rw [heq]
      exact absurd (List.mem_map.mpr ⟨s, hs, hname⟩) hnew
    · simpa [isValidIdentityLoc, and_assoc] using hsuits.valid
  refused m hm e l' he := by
    cases h with
    | reload l' => cases hm
    | operation op =>
      cases op with
      | addSecret name value =>
        obtain rfl := Option.some.inj hm
        exact (InPlace.refines_addSecret name value).kept he
      | removeSecret name =>
        obtain rfl := Option.some.inj hm
        exact (InPlace.refines_removeSecret name).kept he
      | _ => cases hm

/-! ### Creation -/

omit [Hashing] in
theorem createLocRequest_secrets {id : UUID} {description : LocRequestDescription} {draft : Bool}
    {type : SubmissionType} (h : LocRequestFactory.createLocRequest id description draft type = .ok l) :
    l.secrets = [] := by
  obtain ⟨_, -, h⟩ := bind_eq_ok.mp h
  split_ifs at h
  · obtain ⟨_, -, h⟩ := bind_eq_ok.mp h
    obtain ⟨_, -, h⟩ := bind_eq_ok.mp h
    cases h
    rfl
  · obtain ⟨_, -, h⟩ := bind_eq_ok.mp h
    cases h
    rfl

/-- The LOCs that the factory returns have no secrets. -/
theorem created_secrets (h : Created l) : l.secrets = [] := by
  have hadd : ∀ {l₁ l₂ : LocRequest} (op : LocOp), l₁.secrets = [] → op.isSecret = false →
      l₁.step op = .ok l₂ → l₂.secrets = [] := fun _ hl hop hstep => (step_secrets hop hstep).1.trans hl
  cases h with
  | newLOLocRequest id description h =>
    obtain ⟨_, -, h⟩ := bind_eq_ok.mp h
    exact createLocRequest_secrets h
  | newLocRequest id description draft h =>
    obtain ⟨_, -, h⟩ := bind_eq_ok.mp h
    exact createLocRequest_secrets h
  | newSofRequest id description target submitter nature now h =>
    obtain ⟨_, -, h⟩ := bind_eq_ok.mp h
    obtain ⟨l₀, hcreate, h⟩ := bind_eq_ok.mp h
    obtain ⟨l₁, hlink, hsubmit⟩ := bind_eq_ok.mp h
    have hlinked := hadd (.addLink target submitter nature .manualByUser now)
      (createLocRequest_secrets hcreate) rfl hlink
    exact hadd .submit hlinked rfl hsubmit
  | newLoc id description metadata links now h =>
    obtain ⟨_, -, h⟩ := bind_eq_ok.mp h
    obtain ⟨l₀, hcreate, h⟩ := bind_eq_ok.mp h
    obtain ⟨l₁, hmetadata, hlinks⟩ := bind_eq_ok.mp h
    refine foldlM_invariant (I := fun l => l.secrets = []) (fun l link l' hl hlink => ?_) ?_ hlinks
    · exact hadd (.addLink link.target link.submitter link.nature .directByRequester now) hl rfl
        hlink
    · refine foldlM_invariant (I := fun l => l.secrets = []) (fun l item l' hl hitem => ?_)
        (createLocRequest_secrets hcreate) hmetadata
      exact hadd (.addMetadataItem item.submitter item.name item.value .directByRequester now)
        hl rfl hitem

theorem created_bounded (h : Created l) : l.SecretsBounded := by
  have hnone := created_secrets h
  refine ⟨?_, ?_, ?_, ?_⟩ <;> simp [hnone]

/-! ### Every history -/

/-- **The secrets stay within their bounds** along every history of a LOC that the factory created,
exactly if no secret is accepted beside ten others. -/
theorem secrets_iff (hcreated : Created l₀) (hrows : Along happen FromRows l₀ hs) :
    Always happen SecretsBounded l₀ hs ∧ Along happen SecretsKept l₀ hs ↔
      Along happen WithinTen l₀ hs := by
  have hkept : Along happen SecretsKept l₀ hs := hrows.mono fun _ _ => secretsKept
  rw [and_iff_left hkept]
  have hrun : Always happen SecretsBounded l₀ hs ∧ Along happen FromRows l₀ hs ↔
      Along happen (fun l h => l.FromRows h ∧ l.WithinTen h) l₀ hs := by
    refine always_along_iff (fun l h hl => ?_) (created_bounded hcreated)
    constructor
    · exact fun ⟨hr, hw⟩ => ⟨(attempt_bounded_iff hr hl).mpr hw, hr⟩
    · exact fun ⟨hb, hr⟩ => ⟨hr, (attempt_bounded_iff hr hl).mp hb⟩
  rw [and_iff_left hrows] at hrun
  refine hrun.trans ⟨fun h => h.mono fun _ _ => And.right, fun h => along_iff.mpr ?_⟩
  exact fun pre o post he => ⟨along_iff.mp hrows pre o post he, along_iff.mp h pre o post he⟩

/-! ### Eleven secrets -/

/-- The legal officer closes an identity LOC, and its secrets are added one by one. -/
def addingSecrets (names : List String) : List Happening :=
  .operation (.preClose false) :: names.map fun name => .operation (.addSecret name "value")

omit [Hashing] in
theorem secrets_iff_two :
    @Always _ _ _ (@happen plainHash) SecretsBounded ownersLoc (addingSecrets ["a", "b"]) ∧
      @Along _ _ _ (@happen plainHash) (@SecretsKept plainHash) ownersLoc
        (addingSecrets ["a", "b"]) := by
  refine (@secrets_iff plainHash _ _ (@ownersLoc_created plainHash) ?_).mpr ?_
  · exact ⟨trivial, trivial, trivial, trivial⟩
  · refine ⟨trivial, fun _ => ?_, fun _ => ?_, trivial⟩ <;> decide

omit [Hashing] in
/-- The eleventh secret is added. -/
theorem eleventhSecret_added :
    @Created plainHash ownersLoc ∧
    (run (@happen plainHash) ownersLoc (addingSecrets
      ["a", "b", "c", "d", "e", "f", "g", "h", "i", "j", "k"])).secrets.length = 11 ∧
    ¬ @Always _ _ _ (@happen plainHash) SecretsBounded ownersLoc (addingSecrets
      ["a", "b", "c", "d", "e", "f", "g", "h", "i", "j", "k"]) := by
  have heleven : (run (@happen plainHash) ownersLoc (addingSecrets
      ["a", "b", "c", "d", "e", "f", "g", "h", "i", "j", "k"])).secrets.length = 11 := by decide
  refine ⟨@ownersLoc_created plainHash, heleven, fun h => ?_⟩
  have hten := (h _ (List.prefix_refl _)).atMostTen
  rw [heleven] at hten
  omega

end LocRequest

end Logion
