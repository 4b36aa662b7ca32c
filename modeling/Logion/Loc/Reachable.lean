import Logion.Loc.Projection
import Logion.Loc.Status
import Logion.Model.Factory

/-!
# Reachable — invariants of the LOCs that the factory creates

* `created_of_blank`: what the factory returns comes from a LOC without items through operations.
* `reachable_induct`: an invariant of the LOCs without items, kept by operations and reloads.
* `Sound`: the keys of the items are distinct, and a date of acknowledgement comes with its flag.
* `reachable_sound`: every reachable LOC is sound.
-/

namespace Logion

open Keyed Fallible

/-! ### Creation -/

/-- A LOC without items, as `createLocRequest` returns it. -/
structure Blank (l : LocRequest) : Prop where
  items : ∀ k, l.items k = []
  status : l.status = .draft ∨ l.status = .reviewPending ∨ l.status = .opened

theorem newInstance_blank (id : UUID) (description : LocRequestDescription) (draft : Bool)
    (type : SubmissionType) : Blank (LocRequestFactory.newInstance id description draft type) where
  items k := by cases k <;> rfl
  status := by
    unfold LocRequestFactory.newInstance
    dsimp only
    split_ifs <;> simp

theorem createLocRequest_blank {id : UUID} {description : LocRequestDescription} {draft : Bool}
    {type : SubmissionType} {l : LocRequest}
    (h : LocRequestFactory.createLocRequest id description draft type = .ok l) : Blank l := by
  obtain ⟨_, -, h⟩ := bind_eq_ok.mp h
  have hchecked : LocRequestFactory.newInstance id description draft type = l := by
    split_ifs at h
    · obtain ⟨_, -, h⟩ := bind_eq_ok.mp h
      obtain ⟨_, -, h⟩ := bind_eq_ok.mp h
      exact Except.ok.inj h
    · obtain ⟨_, -, h⟩ := bind_eq_ok.mp h
      exact Except.ok.inj h
  exact hchecked ▸ newInstance_blank id description draft type

section

variable [Hashing] {l l' l₀ : LocRequest}

/-- The LOCs that the factory returns come from a LOC without items, and are not accepted. -/
theorem created_of_blank (h : Created l) :
    ∃ l₀, Blank l₀ ∧ Evolves l₀ l ∧ l.status ≠ .reviewAccepted := by
  have hblank : ∀ {l₀ : LocRequest}, Blank l₀ → l₀.status ≠ .reviewAccepted := by
    intro l₀ hb hst
    rcases hb.status with h | h | h <;> rw [h] at hst <;> cases hst
  cases h with
  | newLOLocRequest id description h =>
    obtain ⟨_, -, h⟩ := bind_eq_ok.mp h
    have hb := createLocRequest_blank h
    exact ⟨l, hb, .refl, hblank hb⟩
  | newLocRequest id description draft h =>
    obtain ⟨_, -, h⟩ := bind_eq_ok.mp h
    have hb := createLocRequest_blank h
    exact ⟨l, hb, .refl, hblank hb⟩
  | newSofRequest id description target submitter nature now h =>
    obtain ⟨_, -, h⟩ := bind_eq_ok.mp h
    obtain ⟨l₀, hcreate, h⟩ := bind_eq_ok.mp h
    obtain ⟨l₁, hlink, hsubmit⟩ := bind_eq_ok.mp h
    have hevolves : Evolves l₀ l₁ :=
      .operation (.addLink target submitter nature .manualByUser now) .refl hlink
    refine ⟨l₀, createLocRequest_blank hcreate, .operation .submit hevolves hsubmit, ?_⟩
    have hstep : l₁.step .submit = .ok l := hsubmit
    rw [(LocRequest.step_status hstep).2]
    simp [LocOp.statusAfter]
  | newLoc id description metadata links now h =>
    obtain ⟨_, -, h⟩ := bind_eq_ok.mp h
    obtain ⟨l₀, hcreate, h⟩ := bind_eq_ok.mp h
    obtain ⟨l₁, hmetadata, hlinks⟩ := bind_eq_ok.mp h
    have hb := createLocRequest_blank hcreate
    have hstart : Evolves l₀ l₀ ∧ l₀.status ≠ .reviewAccepted := ⟨.refl, hblank hb⟩
    have hmiddle : Evolves l₀ l₁ ∧ l₁.status ≠ .reviewAccepted := by
      refine foldlM_invariant (I := fun l => Evolves l₀ l ∧ l.status ≠ .reviewAccepted) ?_ hstart
        hmetadata
      rintro l item l' ⟨hevolves, hst⟩ hadd
      have hstep : l.step (.addMetadataItem item.submitter item.name item.value
        .directByRequester now) = .ok l' := hadd
      refine ⟨.operation _ hevolves hstep, ?_⟩
      rw [(LocRequest.step_status hstep).2]
      exact hst
    refine ⟨l₀, hb, foldlM_invariant (I := fun l => Evolves l₀ l ∧ l.status ≠ .reviewAccepted) ?_
      hmiddle hlinks⟩
    rintro l item l' ⟨hevolves, hst⟩ hadd
    have hstep : l.step (.addLink item.target item.submitter item.nature .directByRequester now) =
      .ok l' := hadd
    refine ⟨.operation _ hevolves hstep, ?_⟩
    rw [(LocRequest.step_status hstep).2]
    exact hst

/-! ### Induction -/

theorem Evolves.trans (h : Evolves l₀ l) (h' : Evolves l l') : Evolves l₀ l' := by
  induction h' with
  | refl => exact h
  | operation op _ hop ih => exact .operation op ih hop
  | reload _ hre ih => exact .reload ih hre

theorem evolves_run (l : LocRequest) (ops : List LocOp) : Evolves l (run LocRequest.step l ops) :=
  run_induct (I := Evolves l) (fun _ op _ h hop => .operation op h hop) .refl ops

theorem reachable_run (h : Created l) (ops : List LocOp) :
    Reachable (run LocRequest.step l ops) :=
  ⟨l, h, evolves_run l ops⟩

/-- An invariant kept by operations and reloads. -/
theorem Evolves.induct {I : LocRequest → Prop}
    (hstep : ∀ {l op l'}, I l → l.step op = .ok l' → I l')
    (hreload : ∀ {l l'}, I l → Reloads l l' → I l') (h : Evolves l₀ l) (h₀ : I l₀) : I l := by
  induction h with
  | refl => exact h₀
  | operation op _ hop ih => exact hstep ih hop
  | reload _ hre ih => exact hreload ih hre

/-- **Induction on reachable LOCs.** -/
theorem reachable_induct {I : LocRequest → Prop} (hblank : ∀ {l}, Blank l → I l)
    (hstep : ∀ {l op l'}, I l → l.step op = .ok l' → I l')
    (hreload : ∀ {l l'}, I l → Reloads l l' → I l') (h : Reachable l) : I l := by
  obtain ⟨l₁, hcreated, hevolves⟩ := h
  obtain ⟨l₀, hb, hevolves₀, -⟩ := created_of_blank hcreated
  exact (hevolves₀.trans hevolves).induct hstep hreload (hblank hb)

end

/-! ### Dates and flags -/

namespace EmbeddableLifecycle

/-- A date of acknowledgement comes with its flag. -/
structure Flagged (c : EmbeddableLifecycle) : Prop where
  owner : c.acknowledgedByOwnerOn.isSome → c.acknowledgedByOwner = true
  issuer : c.acknowledgedByVerifiedIssuerOn.isSome → c.acknowledgedByVerifiedIssuer = true

variable {c c' : EmbeddableLifecycle}

theorem flagged_fromSubmissionType (type : SubmissionType) (now : Moment) :
    (fromSubmissionType type now).Flagged where
  owner h := by cases type <;> simp_all [fromSubmissionType]
  issuer h := by cases h

theorem Flagged.step {op : LifecycleOp} (hc : c.Flagged) (h : c.step op = .ok c') : c'.Flagged := by
  cases op with
  | requestReview =>
    obtain ⟨-, rfl⟩ := requestReview_ok h
    exact ⟨hc.owner, hc.issuer⟩
  | accept now =>
    obtain ⟨-, rfl⟩ := accept_ok h
    exact ⟨hc.owner, hc.issuer⟩
  | reject reason now =>
    obtain ⟨-, rfl⟩ := reject_ok h
    exact ⟨hc.owner, hc.issuer⟩
  | prePublishOrAcknowledge isAck on =>
    obtain ⟨-, rfl⟩ := prePublishOrAcknowledge_ok h
    exact ⟨hc.owner, hc.issuer⟩
  | cancelPrePublishOrAcknowledge isAck =>
    obtain ⟨-, -, rfl⟩ := cancelPrePublishOrAcknowledge_ok h
    exact ⟨hc.owner, hc.issuer⟩
  | preAcknowledge expectVI byVI on =>
    obtain ⟨-, rfl⟩ := preAcknowledge_ok h
    cases byVI with
    | true => exact ⟨hc.owner, fun _ => rfl⟩
    | false => exact ⟨fun _ => rfl, hc.issuer⟩
  | cancelPreAcknowledge byVI =>
    obtain ⟨-, howner, hissuer, rfl⟩ := cancelPreAcknowledge_ok h
    exact ⟨fun hs => by simp [howner] at hs, fun hs => by simp [hissuer] at hs⟩
  | setAddedOn on =>
    cases h
    exact ⟨hc.owner, hc.issuer⟩
  | setStatus status =>
    cases h
    exact ⟨hc.owner, hc.issuer⟩

theorem Flagged.steps {ops : List LifecycleOp} (hc : c.Flagged) (h : c.steps ops = .ok c') :
    c'.Flagged :=
  foldlM_invariant (I := Flagged) (fun _ _ _ hc h => hc.step h) hc h

end EmbeddableLifecycle

namespace LocRequest

variable {l l' : LocRequest}

/-- The invariant of reachable LOCs. -/
structure Sound (l : LocRequest) : Prop where
  keys : l.DistinctKeys
  flagged : ∀ {k key} {item : Item k}, l.item? k key = some item → item.lifecycle.Flagged

theorem Sound.of_mem (hl : l.Sound) {k : ItemKind} {item : Item k} (hmem : item ∈ l.items k) :
    item.lifecycle.Flagged :=
  hl.flagged (lookup_of_mem (hl.keys k) hmem)

theorem sound_of_blank (hb : Blank l) : l.Sound where
  keys k := by
    rw [hb.items k]
    exact List.nodup_nil
  flagged hit := by
    rw [item?, hb.items] at hit
    cases hit

theorem Sound.step [Hashing] {op : LocOp} (hl : l.Sound) (h : l.step op = .ok l') : l'.Sound where
  keys := step_distinctKeys hl.keys h
  flagged hit := by
    rcases step_item_from hl.keys hit h with ⟨item, hitem, -, hsteps⟩ | ⟨-, type, now, -, hlife⟩
    · exact (hl.flagged hitem).steps hsteps
    · rw [hlife]
      exact EmbeddableLifecycle.flagged_fromSubmissionType type now

theorem Sound.reload (hl : l.Sound) (h : Reloads l l') : l'.Sound := by
  have hkeys : ∀ k, ((l'.items k).map Item.key).Perm ((l.items k).map Item.key) := by
    intro k
    have hperm := (h.items k).map Item.key
    rwa [List.map_map, List.map_map] at hperm
  refine ⟨fun k => (hkeys k).nodup_iff.mpr (hl.keys k), fun {k key item} hit => ?_⟩
  have hmem : item.row ∈ (l.items k).map Item.row :=
    (h.items k).mem_iff.mp (List.mem_map_of_mem (mem_of_lookup hit))
  obtain ⟨item₀, hmem₀, heq⟩ := List.mem_map.mp hmem
  have hflagged := hl.of_mem hmem₀
  have hlife : item₀.row.lifecycle = item.row.lifecycle := by rw [heq]
  rwa [show item₀.lifecycle = item.lifecycle from hlife] at hflagged

/-- **Reachable LOCs are sound.** -/
theorem reachable_sound [Hashing] (h : Reachable l) : l.Sound :=
  reachable_induct sound_of_blank Sound.step Sound.reload h

/-- An identity LOC that the legal officer has just created, without requester. -/
def ownersDescription : LocRequestDescription where
  requesterAddress := none
  requesterIdentityLoc := none
  ownerAddress := .polkadot "owner"
  locType := .identity
  createdOn := 1
  userIdentity := some ⟨"John", "Doe", "john@doe.com", "+1234"⟩
  collectionParams := none
  fees := ⟨none, none, none⟩

def ownersLoc : LocRequest :=
  LocRequestFactory.newInstance "15ed922d-5960-4147-a73f-97d362cb7c46" ownersDescription false
    .manualByOwner

theorem ownersLoc_created [Hashing] : Created ownersLoc :=
  .newLOLocRequest "15ed922d-5960-4147-a73f-97d362cb7c46" ownersDescription rfl

end LocRequest

end Logion
