import Mathlib.Data.List.Perm.Basic
import Mathlib.Data.List.Nodup
import Mathlib.Logic.Function.Basic

/-!
# Custody — resources of a pool, and the records that refer to them

Holders acquire resources, record them under keys, remove records, and release what is not recorded any
more.  A resource of the pool is recorded, or some holder still has to record or to release it.

* `Ledger`: the pool, the records, and what each holder still has to do.
* `Sound`: every resource of the pool has one custodian, and what is recorded is in the pool.
* `Sound.acquire`, `Sound.claim`, `Sound.settle`, `Sound.abandon`, `Sound.release`: the operations keep it.
* `Sound.recorded_once`: when nothing is left to do, the pool is what is recorded, once each.
-/

namespace Custody

/-- What a holder has acquired and not recorded yet, the records that it is about to remove, and what is
not recorded any more, which it has to release. -/
structure Holder (κ γ : Type*) where
  held : List γ
  claimed : List (κ × γ)
  condemned : List γ

/-- All that was ever acquired, the pool, the records, and the holders. -/
structure Ledger (ι κ γ : Type*) where
  used : List γ
  pool : List γ
  records : List (κ × γ)
  holder : ι → Holder κ γ

namespace Ledger

variable {ι κ γ : Type*} [DecidableEq ι] (L : Ledger ι κ γ) (t : ι)

/-! ### Operations -/

/-- `t` acquires `c`. -/
def acquire (c : γ) : Ledger ι κ γ where
  used := L.used ++ [c]
  pool := L.pool ++ [c]
  records := L.records
  holder := Function.update L.holder t { L.holder t with held := (L.holder t).held ++ [c] }

/-- `t` is about to remove the records `ps`. -/
def claim (ps : List (κ × γ)) : Ledger ι κ γ :=
  { L with holder := Function.update L.holder t { L.holder t with claimed := ps } }

/-- `t` has recorded what it held, and removed what it has claimed. -/
def settle (records : List (κ × γ)) : Ledger ι κ γ where
  used := L.used
  pool := L.pool
  records := records
  holder := Function.update L.holder t ⟨[], [], (L.holder t).claimed.map Prod.snd⟩

/-- `t` gives up, and will release what it held. -/
def abandon : Ledger ι κ γ :=
  { L with holder := Function.update L.holder t ⟨[], [], (L.holder t).held⟩ }

/-- `t` releases `c`. -/
def release [DecidableEq γ] (c : γ) : Ledger ι κ γ where
  used := L.used
  pool := L.pool.filter (· ≠ c)
  records := L.records
  holder := Function.update L.holder t
    { L.holder t with condemned := (L.holder t).condemned.erase c }

/-! ### Sound ledgers -/

/-- `c` was acquired once, and no holder holds it any more. -/
def Past (c : γ) : Prop := c ∈ L.used ∧ ∀ u, c ∉ (L.holder u).held

/-- Every resource of the pool has one custodian. -/
structure Sound : Prop where
  once : (L.records.map Prod.snd).Nodup
  pooled : ∀ p ∈ L.records, p.2 ∈ L.pool
  used : ∀ c ∈ L.pool, c ∈ L.used
  kept : ∀ c ∈ L.pool, (∃ k, (k, c) ∈ L.records) ∨
    ∃ u, c ∈ (L.holder u).held ∨ c ∈ (L.holder u).condemned
  heldOnce : ∀ u, (L.holder u).held.Nodup
  held : ∀ u, ∀ c ∈ (L.holder u).held, c ∈ L.pool ∧ (∀ k, (k, c) ∉ L.records) ∧
    ∀ w, w ≠ u → c ∉ (L.holder w).held
  claimed : ∀ u, ∀ p ∈ (L.holder u).claimed, L.Past p.2 ∧ ∀ q ∈ L.records, q.2 = p.2 → q.1 = p.1
  condemned : ∀ u, ∀ c ∈ (L.holder u).condemned, L.Past c ∧ ∀ k, (k, c) ∉ L.records

variable {L t} {c : γ} {u : ι}

/-! ### The holders after an operation -/

section

variable {α : Type*} (f : Holder κ γ → α) {x : Holder κ γ}

theorem holder_update : f (Function.update L.holder t x u) = if u = t then f x else f (L.holder u) := by
  by_cases hu : u = t
  · rw [if_pos hu, hu, Function.update_self]
  · rw [if_neg hu, Function.update_of_ne hu]

theorem holder_update_same (hx : f x = f (L.holder t)) :
    f (Function.update L.holder t x u) = f (L.holder u) := by
  rw [holder_update f]
  split_ifs with hu
  · rw [hx, hu]
  · rfl

/-- `t` holds nothing any more. -/
theorem mem_held_update (hx : x.held = []) :
    c ∈ (Function.update L.holder t x u).held ↔ u ≠ t ∧ c ∈ (L.holder u).held := by
  rw [holder_update Holder.held]
  by_cases hu : u = t <;> simp [hu, hx]

theorem heldOnce_update (h : ∀ u, (L.holder u).held.Nodup) (hx : x.held = []) :
    (Function.update L.holder t x u).held.Nodup := by
  rw [holder_update Holder.held, hx]
  split_ifs
  · exact List.nodup_nil
  · exact h u

end

omit [DecidableEq ι] in
/-- No one else holds it. -/
theorem Past.mono {L' : Ledger ι κ γ} (h : L.Past c) (hused : c ∈ L.used → c ∈ L'.used)
    (hheld : ∀ u, c ∈ (L'.holder u).held → c ∈ (L.holder u).held) : L'.Past c :=
  ⟨hused h.1, fun u hu => h.2 u (hheld u hu)⟩

/-! ### Sound ledgers stay sound -/

theorem Sound.acquire (h : L.Sound) (hc : c ∉ L.used) : (L.acquire t c).Sound := by
  have hpool : c ∉ L.pool := fun hmem => hc (h.used c hmem)
  have hrecords : ∀ k, (k, c) ∉ L.records := fun k hmem => hpool (h.pooled _ hmem)
  have hheld : ∀ u, c ∉ (L.holder u).held := fun u hmem => hpool (h.held u c hmem).1
  have hmem : ∀ u c', c' ∈ ((L.acquire t c).holder u).held ↔
      c' ∈ (L.holder u).held ∨ u = t ∧ c' = c := by
    intro u c'
    unfold Ledger.acquire
    rw [holder_update Holder.held]
    by_cases hu : u = t <;> simp [hu]
  have hpast : ∀ c', L.Past c' → (L.acquire t c).Past c' := by
    intro c' hpast
    refine ⟨List.mem_append_left _ hpast.1, fun u hu => ?_⟩
    rcases (hmem u c').mp hu with hu | ⟨-, rfl⟩
    · exact hpast.2 u hu
    · exact hc hpast.1
  have hclaimed : ∀ u, ((L.acquire t c).holder u).claimed = (L.holder u).claimed := fun _ =>
    holder_update_same Holder.claimed rfl
  have hcondemned : ∀ u, ((L.acquire t c).holder u).condemned = (L.holder u).condemned := fun _ =>
    holder_update_same Holder.condemned rfl
  constructor
  case once => exact h.once
  case pooled => exact fun p hp => List.mem_append_left _ (h.pooled p hp)
  case used =>
    intro c' hc'
    rcases List.mem_append.mp hc' with hc' | hc'
    · exact List.mem_append_left _ (h.used c' hc')
    · exact List.mem_append_right _ hc'
  case kept =>
    intro c' hc'
    rcases List.mem_append.mp hc' with hc' | hc'
    · refine (h.kept c' hc').imp_right fun ⟨u, hu⟩ => ⟨u, ?_⟩
      rw [hmem, hcondemned]
      exact hu.imp_left .inl
    · refine .inr ⟨t, .inl ((hmem t c').mpr (.inr ⟨rfl, ?_⟩))⟩
      exact List.mem_singleton.mp hc'
  case heldOnce =>
    intro u
    unfold Ledger.acquire
    rw [holder_update Holder.held]
    split_ifs
    · rw [List.nodup_append]
      refine ⟨h.heldOnce t, List.nodup_singleton c, fun a ha b hb heq => hheld t ?_⟩
      rwa [← List.mem_singleton.mp hb, ← heq]
    · exact h.heldOnce u
  case held =>
    intro u c' hu
    rcases (hmem u c').mp hu with hu | ⟨rfl, rfl⟩
    · obtain ⟨hin, hout, hothers⟩ := h.held u c' hu
      refine ⟨List.mem_append_left _ hin, hout, fun w hw hmem' => ?_⟩
      rcases (hmem w c').mp hmem' with hmem' | ⟨-, heq⟩
      · exact hothers w hw hmem'
      · exact hheld u (heq ▸ hu)
    · refine ⟨List.mem_append_right _ (List.mem_singleton.mpr rfl), hrecords, fun w hw hmem' => ?_⟩
      rcases (hmem w c').mp hmem' with hmem' | ⟨heq, -⟩
      · exact hheld w hmem'
      · exact hw heq
  case claimed =>
    intro u p hp
    rw [hclaimed] at hp
    exact (h.claimed u p hp).imp_left (hpast p.2)
  case condemned =>
    intro u c' hc'
    rw [hcondemned] at hc'
    exact (h.condemned u c' hc').imp_left (hpast c')

/-- The claimed records are there. -/
theorem Sound.claim (h : L.Sound) {ps : List (κ × γ)} (hps : ∀ p ∈ ps, p ∈ L.records) :
    (L.claim t ps).Sound := by
  have hheld : ∀ u, ((L.claim t ps).holder u).held = (L.holder u).held := fun _ =>
    holder_update_same Holder.held rfl
  have hcondemned : ∀ u, ((L.claim t ps).holder u).condemned = (L.holder u).condemned := fun _ =>
    holder_update_same Holder.condemned rfl
  have hpast : ∀ c', L.Past c' → (L.claim t ps).Past c' :=
    fun c' hpast => hpast.mono id fun u hu => hheld u ▸ hu
  refine ⟨h.once, h.pooled, h.used, fun c' hc' => ?_, fun u => ?_, fun u c' hu => ?_, fun u p hp => ?_,
    fun u c' hu => ?_⟩
  · refine (h.kept c' hc').imp_right fun ⟨u, hu⟩ => ⟨u, ?_⟩
    rwa [hheld, hcondemned]
  · rw [hheld]
    exact h.heldOnce u
  · rw [hheld] at hu
    refine (h.held u c' hu).imp_right fun hothers => hothers.imp_right fun hothers w hw => ?_
    rw [hheld]
    exact hothers w hw
  · unfold Ledger.claim at hp
    rw [holder_update Holder.claimed] at hp
    split_ifs at hp
    · have hmem := hps p hp
      refine ⟨⟨h.used _ (h.pooled p hmem), fun w hw => ?_⟩, fun q hq heq => ?_⟩
      · rw [hheld] at hw
        exact (h.held w _ hw).2.1 p.1 hmem
      · exact congrArg Prod.fst (List.inj_on_of_nodup_map h.once hq hmem heq)
    · exact (h.claimed u p hp).imp_left (hpast p.2)
  · rw [hcondemned] at hu
    exact (h.condemned u c' hu).imp_left (hpast c')

/-- `t` has recorded what it held under new keys, and removed the records of the keys that it has
claimed, which had the resources that it has claimed. -/
theorem Sound.settle (h : L.Sound) (hcondemned : (L.holder t).condemned = [])
    {records new : List (κ × γ)} {keep : κ × γ → Bool} (hrecords : records.Perm (L.records.filter keep ++ new))
    (hnew : (new.map Prod.snd).Perm (L.holder t).held)
    (hlost : ∀ p ∈ L.records, keep p = false → p.2 ∈ (L.holder t).claimed.map Prod.snd)
    (hgone : ∀ p ∈ (L.holder t).claimed, ∀ q ∈ L.records, q.1 = p.1 → keep q = false) :
    (L.settle t records).Sound := by
  have hmem : ∀ q, q ∈ records ↔ (q ∈ L.records ∧ keep q = true) ∨ q ∈ new := fun q => by
    rw [hrecords.mem_iff, List.mem_append, List.mem_filter]
  have hnew' : ∀ q ∈ new, q.2 ∈ (L.holder t).held := fun q hq =>
    hnew.subset (List.mem_map_of_mem hq)
  have hheld : ∀ u c', c' ∈ ((L.settle t records).holder u).held ↔ u ≠ t ∧ c' ∈ (L.holder u).held :=
    fun _ _ => mem_held_update rfl
  have hpast : ∀ c', L.Past c' → (L.settle t records).Past c' :=
    fun c' hpast => hpast.mono id fun u hu => ((hheld u c').mp hu).2
  -- what is past is recorded as it was, or not at all
  have hold : ∀ c', L.Past c' → ∀ q ∈ records, q.2 = c' → q ∈ L.records ∧ keep q = true := by
    rintro c' hpast q hq rfl
    refine ((hmem q).mp hq).resolve_right fun hq => ?_
    exact hpast.2 t (hnew' q hq)
  constructor
  case once =>
    show (records.map Prod.snd).Nodup
    rw [(hrecords.map Prod.snd).nodup_iff, List.map_append, List.nodup_append]
    refine ⟨h.once.sublist (List.filter_sublist.map _), hnew.nodup_iff.mpr (h.heldOnce t), ?_⟩
    rintro a ha b hb rfl
    obtain ⟨p, hp, rfl⟩ := List.mem_map.mp ha
    exact (h.held t _ (hnew.subset hb)).2.1 p.1 (List.mem_of_mem_filter hp)
  case pooled =>
    intro q hq
    rcases (hmem q).mp hq with ⟨hq, -⟩ | hq
    · exact h.pooled q hq
    · exact (h.held t _ (hnew' q hq)).1
  case used => exact h.used
  case kept =>
    intro c' hc'
    rcases h.kept c' hc' with ⟨k, hk⟩ | ⟨u, hu⟩
    · cases hkeep : keep (k, c') with
      | true => exact .inl ⟨k, (hmem _).mpr (.inl ⟨hk, hkeep⟩)⟩
      | false =>
        refine .inr ⟨t, .inr ?_⟩
        unfold Ledger.settle
        rw [holder_update Holder.condemned, if_pos rfl]
        exact hlost _ hk hkeep
    · by_cases hut : u = t
      · rw [hut, hcondemned] at hu
        have hheld' := hu.resolve_right List.not_mem_nil
        obtain ⟨q, hq, rfl⟩ := List.mem_map.mp (hnew.symm.subset hheld')
        exact .inl ⟨q.1, (hmem q).mpr (.inr hq)⟩
      · refine .inr ⟨u, hu.imp (fun hu => (hheld u c').mpr ⟨hut, hu⟩) fun hu => ?_⟩
        unfold Ledger.settle
        rwa [holder_update Holder.condemned, if_neg hut]
  case heldOnce => exact fun u => heldOnce_update h.heldOnce rfl
  case held =>
    intro u c' hu
    obtain ⟨hut, hu⟩ := (hheld u c').mp hu
    obtain ⟨hin, hout, hothers⟩ := h.held u c' hu
    refine ⟨hin, fun k hk => ?_, fun w hw hmem' => hothers w hw ((hheld w c').mp hmem').2⟩
    rcases (hmem _).mp hk with ⟨hk, -⟩ | hk
    · exact hout k hk
    · exact hothers t (Ne.symm hut) (hnew' _ hk)
  case claimed =>
    intro u p hp
    unfold Ledger.settle at hp
    rw [holder_update Holder.claimed] at hp
    split_ifs at hp
    · cases hp
    · obtain ⟨hpast', hkey⟩ := h.claimed u p hp
      exact ⟨hpast _ hpast', fun q hq heq => hkey q (hold _ hpast' q hq heq).1 heq⟩
  case condemned =>
    intro u c' hc'
    unfold Ledger.settle at hc'
    rw [holder_update Holder.condemned] at hc'
    split_ifs at hc'
    · obtain ⟨p, hp, rfl⟩ := List.mem_map.mp hc'
      obtain ⟨hpast', hkey⟩ := h.claimed t p hp
      refine ⟨hpast _ hpast', fun k hk => ?_⟩
      obtain ⟨hk, hkeep⟩ := hold _ hpast' _ hk rfl
      rw [hgone p hp _ hk (hkey _ hk rfl)] at hkeep
      cases hkeep
    · obtain ⟨hpast', hout⟩ := h.condemned u c' hc'
      exact ⟨hpast _ hpast', fun k hk => hout k (hold _ hpast' _ hk rfl).1⟩

theorem Sound.abandon (h : L.Sound) (hcondemned : (L.holder t).condemned = []) : (L.abandon t).Sound := by
  have hheld : ∀ u c', c' ∈ ((L.abandon t).holder u).held ↔ u ≠ t ∧ c' ∈ (L.holder u).held :=
    fun _ _ => mem_held_update rfl
  have hpast : ∀ c', L.Past c' → (L.abandon t).Past c' :=
    fun c' hpast => hpast.mono id fun u hu => ((hheld u c').mp hu).2
  refine ⟨h.once, h.pooled, h.used, fun c' hc' => ?_, fun u => ?_, fun u c' hu => ?_, fun u p hp => ?_,
    fun u c' hu => ?_⟩
  · refine (h.kept c' hc').imp_right fun ⟨u, hu⟩ => ⟨u, ?_⟩
    rw [hheld]
    unfold Ledger.abandon
    rw [holder_update Holder.condemned]
    by_cases hut : u = t
    · rw [hut, hcondemned] at hu
      rw [if_pos hut]
      exact .inr (hu.resolve_right List.not_mem_nil)
    · rw [if_neg hut]
      exact hu.imp_left fun hu => ⟨hut, hu⟩
  · exact heldOnce_update h.heldOnce rfl
  · obtain ⟨-, hu⟩ := (hheld u c').mp hu
    refine (h.held u c' hu).imp_right fun hothers => hothers.imp_right fun hothers w hw hmem => ?_
    exact hothers w hw ((hheld w c').mp hmem).2
  · unfold Ledger.abandon at hp
    rw [holder_update Holder.claimed] at hp
    split_ifs at hp
    · cases hp
    · exact (h.claimed u p hp).imp_left (hpast p.2)
  · unfold Ledger.abandon at hu
    rw [holder_update Holder.condemned] at hu
    split_ifs at hu
    · obtain ⟨hin, hout, hothers⟩ := h.held t c' hu
      refine ⟨⟨h.used c' hin, fun w hw => ?_⟩, hout⟩
      obtain ⟨hwt, hw⟩ := (hheld w c').mp hw
      exact hothers w hwt hw
    · exact (h.condemned u c' hu).imp_left (hpast c')

theorem Sound.release [DecidableEq γ] (h : L.Sound) (hc : c ∈ (L.holder t).condemned) :
    (L.release t c).Sound := by
  obtain ⟨hpast, hout⟩ := h.condemned t c hc
  have hheld : ∀ u, ((L.release t c).holder u).held = (L.holder u).held := fun _ =>
    holder_update_same Holder.held rfl
  have hclaimed : ∀ u, ((L.release t c).holder u).claimed = (L.holder u).claimed := fun _ =>
    holder_update_same Holder.claimed rfl
  have hcondemned : ∀ u c', c' ≠ c →
      (c' ∈ ((L.release t c).holder u).condemned ↔ c' ∈ (L.holder u).condemned) := by
    intro u c' hne
    unfold Ledger.release
    rw [holder_update Holder.condemned]
    split_ifs with hu
    · rw [hu]
      exact List.mem_erase_of_ne hne
    · rfl
  have hpool : ∀ c', c' ∈ (L.release t c).pool ↔ c' ∈ L.pool ∧ c' ≠ c := fun c' => by
    simp [Ledger.release]
  have hpast' : ∀ c', L.Past c' → (L.release t c).Past c' :=
    fun c' hpast => hpast.mono id fun u hu => hheld u ▸ hu
  refine ⟨h.once, fun p hp => ?_, fun c' hc' => ?_, fun c' hc' => ?_, fun u => ?_, fun u c' hu => ?_,
    fun u p hp => ?_, fun u c' hu => ?_⟩
  · refine (hpool p.2).mpr ⟨h.pooled p hp, ?_⟩
    rintro rfl
    exact hout p.1 hp
  · exact h.used c' ((hpool c').mp hc').1
  · obtain ⟨hc', hne⟩ := (hpool c').mp hc'
    refine (h.kept c' hc').imp_right fun ⟨u, hu⟩ => ⟨u, ?_⟩
    rwa [hheld, hcondemned u c' hne]
  · rw [hheld]
    exact h.heldOnce u
  · rw [hheld] at hu
    obtain ⟨hin, hout', hothers⟩ := h.held u c' hu
    refine ⟨(hpool c').mpr ⟨hin, ?_⟩, hout', fun w hw => ?_⟩
    · rintro rfl
      exact hpast.2 u hu
    · rw [hheld]
      exact hothers w hw
  · rw [hclaimed] at hp
    exact (h.claimed u p hp).imp_left (hpast' p.2)
  · by_cases hne : c' = c
    · rw [hne]
      exact ⟨hpast' c hpast, hout⟩
    · exact (h.condemned u c' ((hcondemned u c' hne).mp hu)).imp_left (hpast' c')

omit [DecidableEq ι] in
/-- **What is recorded.**  When no holder has anything left to do, the resources of the pool are those
that are recorded, and each of them is recorded once. -/
theorem Sound.recorded_once [DecidableEq γ] (h : L.Sound)
    (hholder : ∀ u, (L.holder u).held = [] ∧ (L.holder u).condemned = []) (hc : c ∈ L.pool) :
    (L.records.filter fun p => p.2 = c).length = 1 := by
  have hrecorded : ∃ k, (k, c) ∈ L.records := by
    refine (h.kept c hc).resolve_right ?_
    rintro ⟨u, hu⟩
    rw [(hholder u).1, (hholder u).2] at hu
    simp at hu
  obtain ⟨k, hk⟩ := hrecorded
  have hcount : (L.records.map Prod.snd).count c = 1 :=
    List.count_eq_one_of_mem h.once (List.mem_map.mpr ⟨(k, c), hk, rfl⟩)
  rw [← List.countP_eq_length_filter, ← hcount, List.count, List.countP_map]
  exact List.countP_congr fun p _ => by simp

end Ledger

end Custody
