import Logion.Loc.OnChainDates

/-!
# Race — the client and the block synchronisation on one item

After an extrinsic the client confirms over HTTP, without a timestamp, and the synchronisation makes
the same transition with the timestamp of the block; either may come first.

* `last_write`: the call that comes last decides whether the date is set.
* `orders_never_agree`: on no item do the two orders of a publication, or of an acknowledgement, lead
  to the same lifecycle without a rejected call.
-/

namespace Logion

open Fallible

/-! ### One item of a LOC -/

namespace LocRequest

open DateField

variable [Hashing] {l l' : LocRequest} {k : ItemKind} {key : String} {f : DateField} {op : LocOp}

/-- The lifecycle of the item after calls that are all accepted. -/
def outcome (l : LocRequest) (k : ItemKind) (key : String) (ops : List LocOp) :
    Except Err (Option EmbeddableLifecycle) := do
  let l' ← ops.foldlM step l
  return (l'.item? k key).map Item.lifecycle

/-- Neither order of the two calls has a rejected one, and both lead to the same lifecycle. -/
def Agree (l : LocRequest) (k : ItemKind) (key : String) (http sync : LocOp) : Prop :=
  ∃ c, l.outcome k key [http, sync] = .ok (some c) ∧ l.outcome k key [sync, http] = .ok (some c)

/-- The client's call and the synchronisation's, for a publication. -/
def PublicationsAgree (l : LocRequest) (k : ItemKind) (key : String) (contributor : AccountId)
    (t : Moment) : Prop :=
  Agree l k key (.prePublishOrAcknowledgeItem k key contributor) (.setItemAddedOn k key t)

/-- The client's call and the synchronisation's, for an acknowledgement. -/
def AcknowledgementsAgree (l : LocRequest) (k : ItemKind) (key : String) (contributor : AccountId)
    (t : Moment) : Prop :=
  Agree l k key (.preAcknowledgeItem k key contributor none)
    (.preAcknowledgeItem k key contributor (some t))

theorem outcome_pair {o₁ o₂ : LocOp} {c : EmbeddableLifecycle}
    (h : l.outcome k key [o₁, o₂] = .ok (some c)) :
    ∃ l₁ l₂ item, l.step o₁ = .ok l₁ ∧ l₁.step o₂ = .ok l₂ ∧ l₂.item? k key = some item ∧
      item.lifecycle = c := by
  obtain ⟨l₂, h1, h⟩ := bind_eq_ok.mp h
  rw [List.foldlM_cons] at h1
  obtain ⟨l₁, h1, h2⟩ := bind_eq_ok.mp h1
  rw [List.foldlM_cons] at h2
  obtain ⟨_, h2, h3⟩ := bind_eq_ok.mp h2
  cases h3
  obtain ⟨item, hit, hc⟩ := Option.map_eq_some_iff.mp (Except.ok.inj h)
  exact ⟨l₁, l₂, item, h1, h2, hit, hc⟩

/-- **The last call decides.**  An operation whose only transition on the item writes the date leaves
it set exactly when it carries a timestamp. -/
theorem last_write {item' : Item k} {o : AccountId → LifecycleOp} {on : Option Moment}
    (hop : op.changesItems = false) (h : l.step op = .ok l') (hit' : l'.item? k key = some item')
    (ho : ∀ item : Item k, item.key = key → l.lifecycleOps k item op = [o item.submitter])
    (hw : ∀ submitter, f.written (o submitter) = some on) : f.Kept item'.lifecycle ↔ on.isSome := by
  obtain ⟨item, hit, -, hsteps⟩ := (step_moves hop h).item hit'
  rw [ho item (item?_key hit), steps_singleton] at hsteps
  exact kept_of_written hsteps (hw _)

omit [Hashing] in
theorem preAcknowledgeItem_isVerifiedIssuer {contributor : AccountId} {on : Option Moment}
    (h : l.preAcknowledgeItem k key contributor on = .ok l') (account : AccountId) :
    l'.isVerifiedIssuer account = l.isVerifiedIssuer account := by
  obtain ⟨_, _, -, -, hone⟩ := mutateLifecycle_ok (roleCheck_ok h).2
  exact isVerifiedIssuer_congr (owner_of_withoutItems hone.rest)
    (requester_of_withoutItems hone.rest) account

/-- **Client and chain never agree.**  Whatever the kind of the item, its submitter, its status and
the contributor, the two orders of a publication do not lead to the same lifecycle without a rejected
call, and neither do the two orders of an acknowledgement. -/
theorem orders_never_agree (l : LocRequest) (k : ItemKind) (key : String) (contributor : AccountId)
    (t : Moment) :
    ¬ PublicationsAgree l k key contributor t ∧ ¬ AcknowledgementsAgree l k key contributor t := by
  constructor
  · rintro ⟨c, hhttp, hsync⟩
    obtain ⟨l₁, l₂, item, -, h2, hit, rfl⟩ := outcome_pair hhttp
    obtain ⟨l₁', l₂', item', -, h2', hit', hc⟩ := outcome_pair hsync
    have hkept : addedOn.Kept item.lifecycle := (last_write rfl h2 hit (o := fun _ => .setAddedOn t)
      (fun item hkey => by simp only [lifecycleOps]; exact onItem_self hkey)
      (fun _ => rfl)).mpr rfl
    have hlost := last_write (f := addedOn) rfl h2' hit'
      (o := fun submitter =>
        .prePublishOrAcknowledge (l₁'.isPublishAcknowledge submitter) none)
      (fun item hkey => by simp only [lifecycleOps]; exact onItem_self hkey) (fun _ => rfl)
    rw [← hc] at hkept
    exact absurd (hlost.mp hkept) (by simp)
  · rintro ⟨c, hhttp, hsync⟩
    obtain ⟨l₁, l₂, item, h1, h2, hit, rfl⟩ := outcome_pair hhttp
    obtain ⟨l₁', l₂', item', h1', h2', hit', hc⟩ := outcome_pair hsync
    have hparty := preAcknowledgeItem_isVerifiedIssuer h1 contributor
    have hparty' := preAcknowledgeItem_isVerifiedIssuer h1' contributor
    have hkept := last_write (f := ofParty (l.isVerifiedIssuer contributor)) rfl h2 hit
      (o := fun submitter => .preAcknowledge (l₁.isVerifiedIssuer submitter)
        (l₁.isVerifiedIssuer contributor) (some t))
      (fun item hkey => by simp only [lifecycleOps]; exact onItem_self hkey)
      (fun _ => if_pos (by rw [hparty]))
    have hlost := last_write (f := ofParty (l.isVerifiedIssuer contributor)) rfl h2' hit'
      (o := fun submitter => .preAcknowledge (l₁'.isVerifiedIssuer submitter)
        (l₁'.isVerifiedIssuer contributor) none)
      (fun item hkey => by simp only [lifecycleOps]; exact onItem_self hkey)
      (fun _ => if_pos (by rw [hparty']))
    rw [hc] at hlost
    exact absurd (hlost.mp (hkept.mpr rfl)) (by simp)

omit [Hashing] in
/-- The file of an open LOC: the client's confirmation after the synchronisation's
drops the date of the publication. -/
theorem publications_disagree :
    ¬ @PublicationsAgree ⟨fun name => name⟩ openLocWithFile .file "0xabcd" (.polkadot "requester") 5 := by
  rintro ⟨c, hhttp, hsync⟩
  have hfirst : @outcome ⟨fun name => name⟩ openLocWithFile .file "0xabcd"
      [.prePublishOrAcknowledgeItem .file "0xabcd" (.polkadot "requester"),
        .setItemAddedOn .file "0xabcd" 5] = .ok (some { status := .published, addedOn := some 5 }) :=
    rfl
  have hsecond : @outcome ⟨fun name => name⟩ openLocWithFile .file "0xabcd"
      [.setItemAddedOn .file "0xabcd" 5,
        .prePublishOrAcknowledgeItem .file "0xabcd" (.polkadot "requester")] =
      .ok (some { status := .published, addedOn := none }) := rfl
  rw [hfirst] at hhttp
  rw [hsecond] at hsync
  cases hhttp
  cases hsync

end LocRequest

end Logion
