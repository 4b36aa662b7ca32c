import Logion.Lib.Fallible
import Logion.Lib.Joining
import Logion.Model.Factory

/-!
# Seal — the seal of the personal information (`seal.service.ts`)

The seal is the hash of the sealed values and the salt, joined by hyphens.  Version 0 seals the identity
and the postal address, version 1 the company as well, when there is one.

* `values_eq_ok`: the sealed values, for the versions that are supported.
* `verify_seal`: what verifies against a seal.
* `sealBinds_iff`: the seal of `p` binds its content against `q` exactly when, if their values have the
  same pieces between hyphens, they also have their hyphens in the same places.
-/

namespace Logion

open Fallible Joining

structure PostalAddress where
  line1 : String
  line2 : String
  postalCode : String
  city : String
  country : String
  deriving DecidableEq, Repr

structure PersonalInfo where
  userIdentity : UserIdentity
  userPostalAddress : PostalAddress
  company : Option String := none
  deriving DecidableEq, Repr

structure Seal where
  hash : Hash
  version : ℕ
  salt : String
  deriving DecidableEq, Repr

def sealSeparator : String := "-"

def latestSealVersion : ℕ := 1

/-! ### `PersonalInfoSealService` -/

namespace PersonalInfo

def unsupportedVersion (version : ℕ) : Err := .error s!"Unsupported seal version {version}"

def userIdentityValues (userIdentity : UserIdentity) (version : ℕ) : Except Err (List String) :=
  if version = 0 ∨ version = latestSealVersion then
    .ok [userIdentity.firstName, userIdentity.lastName, userIdentity.email, userIdentity.phoneNumber]
  else .error (unsupportedVersion version)

def postalAddressValue (postalAddress : PostalAddress) (version : ℕ) : Except Err (List String) :=
  if version = 0 ∨ version = latestSealVersion then
    .ok [postalAddress.line1, postalAddress.line2, postalAddress.postalCode, postalAddress.city,
      postalAddress.country]
  else .error (unsupportedVersion version)

/-- The company that is sealed: version 1 seals it when it is not empty. -/
def sealedCompany (p : PersonalInfo) (version : ℕ) : Option String :=
  if version = latestSealVersion then nonEmpty p.company else none

def values (p : PersonalInfo) (version : ℕ) : Except Err (List String) := do
  let identity ← userIdentityValues p.userIdentity version
  let address ← postalAddressValue p.userPostalAddress version
  return identity ++ (p.sealedCompany version).toList ++ address

def serialize (values : List String) (salt : String) : String :=
  sealSeparator.intercalate (values ++ [salt])

variable [Hashing]

/-- `_seal`. -/
def sealValues (values : List String) (salt : String) (version : ℕ) : Seal where
  hash := Hashing.of (serialize values salt)
  version := version
  salt := salt

/-- `seal`. -/
def toSeal (p : PersonalInfo) (version : ℕ) (salt : String) : Except Err Seal := do
  let values ← p.values version
  return sealValues values salt version

def verify (p : PersonalInfo) (s : Seal) : Except Err Bool := do
  let values ← p.values s.version
  return (sealValues values s.salt s.version).hash = s.hash

/-! ### Sealed values -/

/-- The values that a supported version seals. -/
def sealedValues (p : PersonalInfo) (version : ℕ) : List String :=
  [p.userIdentity.firstName, p.userIdentity.lastName, p.userIdentity.email,
    p.userIdentity.phoneNumber] ++ (p.sealedCompany version).toList ++
    [p.userPostalAddress.line1, p.userPostalAddress.line2, p.userPostalAddress.postalCode,
      p.userPostalAddress.city, p.userPostalAddress.country]

/-- The two agree on every sealed field. -/
structure SealedAlike (version : ℕ) (p q : PersonalInfo) : Prop where
  userIdentity : p.userIdentity = q.userIdentity
  userPostalAddress : p.userPostalAddress = q.userPostalAddress
  company : version = latestSealVersion → nonEmpty p.company = nonEmpty q.company

/-- What stands between the hyphens of the sealed values, one value after the other. -/
def sealedPieces (p : PersonalInfo) (version : ℕ) : List (List Char) :=
  pieces '-' ((p.sealedValues version).map String.toList)

/-- The number of hyphens in each sealed value. -/
def sealedHyphens (p : PersonalInfo) (version : ℕ) : List ℕ :=
  cuts '-' ((p.sealedValues version).map String.toList)

/-- The seal of `p` is verified by `p`, and by `q` only if it has the same sealed fields. -/
def SealBinds (p q : PersonalInfo) (version : ℕ) (salt : String) : Prop :=
  ∃ s, p.toSeal version salt = .ok s ∧ p.verify s = .ok true ∧
    (q.verify s = .ok true → SealedAlike version p q)

variable {p q : PersonalInfo} {version : ℕ} {salt : String}

omit [Hashing] in
theorem values_eq_ok (hversion : version = 0 ∨ version = latestSealVersion) :
    p.values version = .ok (p.sealedValues version) := by
  unfold values userIdentityValues postalAddressValue
  rw [if_pos hversion, if_pos hversion]
  rfl

omit [Hashing] in
/-- The sealed values are those of the sealed fields: a list tells whether it has a company. -/
theorem sealedValues_eq_iff :
    p.sealedValues version = q.sealedValues version ↔ SealedAlike version p q := by
  have hcompany : p.sealedCompany version = q.sealedCompany version ↔
      (version = latestSealVersion → nonEmpty p.company = nonEmpty q.company) := by
    unfold sealedCompany
    split_ifs with h <;> simp [h]
  obtain ⟨⟨_, _, _, _⟩, ⟨_, _, _, _, _⟩, _⟩ := p
  obtain ⟨⟨_, _, _, _⟩, ⟨_, _, _, _, _⟩, _⟩ := q
  constructor
  · intro h
    unfold sealedValues at h
    rw [List.append_assoc, List.append_assoc] at h
    obtain ⟨hidentity, hrest⟩ := List.append_inj h rfl
    obtain ⟨hvalue, haddress⟩ := List.append_inj' hrest rfl
    have hlist : Function.Injective (Option.toList : Option String → List String) := by
      rintro (_ | a) (_ | b) hab <;> simp_all
    refine ⟨?_, ?_, hcompany.mp (hlist hvalue)⟩
    · simpa using hidentity
    · simpa using haddress
  · rintro ⟨hidentity, haddress, hcomp⟩
    unfold sealedValues
    rw [hcompany.mpr hcomp, hidentity, haddress]

theorem toSeal_eq_ok (hversion : version = 0 ∨ version = latestSealVersion) :
    p.toSeal version salt = .ok (sealValues (p.sealedValues version) salt version) := by
  rw [toSeal, values_eq_ok hversion]
  rfl

/-- **What verifies against a seal**: the same joined text, when the hash has no collision. -/
theorem verify_seal (hof : Function.Injective (Hashing.of : String → Hash))
    (hversion : version = 0 ∨ version = latestSealVersion) :
    q.verify (sealValues (p.sealedValues version) salt version) = .ok true ↔
      serialize (q.sealedValues version) salt = serialize (p.sealedValues version) salt := by
  have hverify : q.verify (sealValues (p.sealedValues version) salt version) = .ok (decide
      (Hashing.of (serialize (q.sealedValues version) salt) =
        Hashing.of (serialize (p.sealedValues version) salt))) := by
    rw [verify, sealValues, values_eq_ok hversion]
    rfl
  rw [hverify, Except.ok.injEq, decide_eq_true_iff, hof.eq_iff]

omit [Hashing] in
/-- The serialization joins the values and the salt. -/
theorem serialize_eq_iff {vs ws : List String} : serialize vs salt = serialize ws salt ↔
    join '-' (vs.map String.toList ++ [salt.toList]) = join '-' (ws.map String.toList ++ [salt.toList]) := by
  have hlist : ∀ vs : List String, (serialize vs salt).toList =
      join '-' (vs.map String.toList ++ [salt.toList]) := by
    intro vs
    rw [serialize, String.toList_intercalate, List.map_append]
    rfl
  rw [← hlist, ← hlist, String.toList_inj]

/-- **A seal binds its content** against other personal information exactly when this has not the same
pieces between hyphens, or has its hyphens in the same places. -/
theorem sealBinds_iff (hof : Function.Injective (Hashing.of : String → Hash))
    (hversion : version = 0 ∨ version = latestSealVersion) :
    SealBinds p q version salt ↔ (p.sealedPieces version = q.sealedPieces version →
      p.sealedHyphens version = q.sealedHyphens version) := by
  have hbinds : SealBinds p q version salt ↔
      (serialize (p.sealedValues version) salt = serialize (q.sealedValues version) salt →
        p.sealedValues version = q.sealedValues version) := by
    unfold SealBinds
    rw [toSeal_eq_ok hversion, sealedValues_eq_iff]
    constructor
    · rintro ⟨s, hs, -, h⟩ hsame
      cases hs
      exact h ((verify_seal hof hversion).mpr hsame.symm)
    · exact fun h => ⟨_, rfl, (verify_seal hof hversion).mpr rfl, fun hq =>
        h ((verify_seal hof hversion).mp hq).symm⟩
  have hvalues : p.sealedValues version = q.sealedValues version ↔
      (p.sealedValues version).map String.toList = (q.sealedValues version).map String.toList :=
    (List.map_injective_iff.mpr fun _ _ => String.toList_inj.mp).eq_iff.symm
  rw [hbinds, serialize_eq_iff, hvalues, join_binds_iff]
  rfl

end PersonalInfo

/-! ### A hyphen in a name -/

/-- A hash without collision. -/
@[reducible] def plainHash : Hashing where
  of text := text

def sampleInfo (firstName lastName : String) : PersonalInfo where
  userIdentity := ⟨firstName, lastName, "scott.tiger@example.org", "123"⟩
  userPostalAddress := ⟨"Rue de la Paix", "", "4000", "Liège", "Belgium"⟩

theorem sealBinds_iff_otherName :
    @PersonalInfo.SealBinds plainHash (sampleInfo "Scott" "Tiger") (sampleInfo "Jean" "Tiger") 1 "aa" :=
  (@PersonalInfo.sealBinds_iff plainHash _ _ 1 "aa" (fun _ _ h => h) (.inr rfl)).mpr fun h =>
    absurd h (by decide)

/-- A hyphen that moves from one name to the other leaves the seal as it is. -/
theorem sharedSeal {version : ℕ} (hversion : version = 0 ∨ version = latestSealVersion) :
    ¬ @PersonalInfo.SealBinds plainHash (sampleInfo "Jean-Luc" "Picard")
      (sampleInfo "Jean" "Luc-Picard") version "aa" := by
  rintro ⟨s, hs, -, hbinds⟩
  rw [@PersonalInfo.toSeal_eq_ok plainHash _ _ _ hversion] at hs
  cases hs
  have hverify : @PersonalInfo.verify plainHash (sampleInfo "Jean" "Luc-Picard")
      (@PersonalInfo.sealValues plainHash ((sampleInfo "Jean-Luc" "Picard").sealedValues version)
        "aa" version) = .ok true := by
    rcases hversion with rfl | rfl <;> rfl
  exact absurd (hbinds hverify).userIdentity (by decide)

/-- In both versions the seal is that of another name. -/
theorem seal_sharedByNames :
    ¬ @PersonalInfo.SealBinds plainHash (sampleInfo "Jean-Luc" "Picard")
        (sampleInfo "Jean" "Luc-Picard") 0 "aa" ∧
      ¬ @PersonalInfo.SealBinds plainHash (sampleInfo "Jean-Luc" "Picard")
        (sampleInfo "Jean" "Luc-Picard") latestSealVersion "aa" :=
  ⟨sharedSeal (.inl rfl), sharedSeal (.inr rfl)⟩

end Logion
