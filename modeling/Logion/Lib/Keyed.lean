import Logion.Lib.Fallible
import Mathlib.Data.List.Nodup
import Mathlib.Data.List.Forall2

/-!
# Keyed — lists of records with a key

`lookup key k xs` is the first record of `xs` with key `k`; `modifyFirst key k f xs` rewrites that
record only.  The lemmas say what `lookup` sees after each way of changing such a list: a rewrite of
one record, a fallible rewrite of all of them (`List.mapM`), an append, the removal of a record.

* `lookup_modifyFirst`, `lookup_mapM`, `lookup_append_singleton`, `lookup_eraseFirst_ne`;
* `keys_modifyFirst`, `keys_mapM`, `keys_eraseFirst`: the key lists.
-/

namespace Keyed

open Fallible

universe u

variable {α β : Type u} {κ ε : Type*} [DecidableEq κ] (key : α → κ)

/-- The first record with key `k`. -/
def lookup (k : κ) (xs : List α) : Option α := xs.find? (fun x => decide (key x = k))

/-- Rewrite the first record with key `k`. -/
def modifyFirst (k : κ) (f : α → α) : List α → List α
  | [] => []
  | x :: xs => if key x = k then f x :: xs else x :: modifyFirst k f xs

/-- Remove the first record with key `k`. -/
def eraseFirst (k : κ) (xs : List α) : List α := xs.eraseP (fun x => decide (key x = k))

variable {key} {k k' : κ} {x y : α} {xs ys : List α}

/-! ### Lookup -/

@[simp] theorem lookup_nil : lookup key k [] = none := rfl

theorem lookup_cons : lookup key k (x :: xs) = if key x = k then some x else lookup key k xs := by
  by_cases h : key x = k <;> simp [lookup, h]

theorem lookup_cons_self : lookup key (key x) (x :: xs) = some x := by
  simp [lookup_cons]

theorem lookup_key (h : lookup key k xs = some x) : key x = k := by
  simpa using List.find?_some h

theorem mem_of_lookup (h : lookup key k xs = some x) : x ∈ xs := List.mem_of_find?_eq_some h

theorem lookup_eq_none : lookup key k xs = none ↔ k ∉ xs.map key := by
  simp [lookup]

theorem lookup_isSome : (lookup key k xs).isSome ↔ k ∈ xs.map key := by
  rw [← not_iff_not, ← lookup_eq_none, Option.not_isSome_iff_eq_none]

/-- Among distinct keys a member is what its key looks up. -/
theorem lookup_of_mem (hnd : (xs.map key).Nodup) (hx : x ∈ xs) : lookup key (key x) xs = some x := by
  induction xs with
  | nil => simp at hx
  | cons y xs ih =>
    rw [List.map_cons, List.nodup_cons] at hnd
    rcases List.mem_cons.mp hx with rfl | hx
    · exact lookup_cons_self
    · have hne : key y ≠ key x := fun h => hnd.1 (h ▸ List.mem_map_of_mem hx)
      rw [lookup_cons, if_neg hne]
      exact ih hnd.2 hx

/-- Among distinct keys a key selects one record, or none. -/
theorem filter_key (hnd : (xs.map key).Nodup) :
    xs.filter (fun x => decide (key x = k)) = (lookup key k xs).toList := by
  induction xs with
  | nil => rfl
  | cons x xs ih =>
    rw [List.map_cons, List.nodup_cons] at hnd
    rw [List.filter_cons, lookup_cons, ih hnd.2]
    by_cases h : key x = k
    · have hnone : lookup key k xs = none := lookup_eq_none.mpr (h ▸ hnd.1)
      simp [h, hnone]
    · simp [h]

/-! ### Rewriting one record -/

theorem keys_modifyFirst {f : α → α} (hf : ∀ x, key x = k → key (f x) = k) :
    (modifyFirst key k f xs).map key = xs.map key := by
  induction xs with
  | nil => rfl
  | cons x xs ih =>
    by_cases h : key x = k
    · simp [modifyFirst, h, hf x h]
    · simp [modifyFirst, h, ih]

theorem lookup_modifyFirst {f : α → α} (hf : ∀ x, key x = k → key (f x) = k) :
    lookup key k' (modifyFirst key k f xs) =
      if k' = k then (lookup key k' xs).map f else lookup key k' xs := by
  induction xs with
  | nil => simp [modifyFirst]
  | cons x xs ih =>
    by_cases h : key x = k
    · by_cases hk : k' = k
      · subst hk
        simp [modifyFirst, lookup_cons, h, hf x h]
      · have hx : key x ≠ k' := fun h' => hk (h'.symm.trans h)
        have hfx : key (f x) ≠ k' := fun h' => hk (h'.symm.trans (hf x h))
        rw [modifyFirst, if_pos h, lookup_cons, lookup_cons, if_neg hfx, if_neg hx, if_neg hk]
    · rw [modifyFirst, if_neg h, lookup_cons, lookup_cons, ih]
      by_cases hx : key x = k'
      · subst hx
        simp [h]
      · simp [hx]

/-- The other records stay as they are. -/
theorem filter_modifyFirst {f : α → α} (hf : ∀ x, key x = k → key (f x) = k) :
    (modifyFirst key k f xs).filter (fun x => key x ≠ k) = xs.filter (fun x => key x ≠ k) := by
  induction xs with
  | nil => rfl
  | cons x xs ih =>
    by_cases h : key x = k
    · simp [modifyFirst, h, hf x h]
    · simpa [modifyFirst, h] using ih

/-- When only the rewritten record gives something. -/
theorem flatMap_modifyFirst {f : α → α} {g : α → List β} (hg : ∀ x ∈ xs, g x = [])
    (hx : lookup key k xs = some x) : (modifyFirst key k f xs).flatMap g = g (f x) := by
  induction xs with
  | nil => simp at hx
  | cons y xs ih =>
    have hrest : ∀ z ∈ xs, g z = [] := fun z hz => hg z (List.mem_cons_of_mem y hz)
    by_cases h : key y = k
    · rw [lookup_cons, if_pos h] at hx
      rw [modifyFirst, if_pos h, List.flatMap_cons, List.flatMap_eq_nil_iff.mpr hrest,
        List.append_nil, Option.some.inj hx]
    · rw [lookup_cons, if_neg h] at hx
      rw [modifyFirst, if_neg h, List.flatMap_cons, hg y List.mem_cons_self, List.nil_append,
        ih hrest hx]

/-- Rewriting only records that a filter leaves out. -/
theorem filter_map_of_fixed {p : α → Bool} {f : α → α} (hp : ∀ x, p (f x) = p x)
    (hf : ∀ x, p x = true → f x = x) : (xs.map f).filter p = xs.filter p := by
  induction xs with
  | nil => rfl
  | cons x xs ih =>
    rw [List.map_cons, List.filter_cons, List.filter_cons, hp, ih]
    split_ifs with h
    · rw [hf x h]
    · rfl

/-! ### Rewriting every record -/

theorem mapM_eq_ok {f : α → Except ε β} {ys : List β} :
    xs.mapM f = .ok ys ↔ List.Forall₂ (fun x y => f x = .ok y) xs ys := by
  induction xs generalizing ys with
  | nil => simp [List.mapM_nil, eq_comm]
  | cons x xs ih =>
    rw [List.mapM_cons, bind_eq_ok]
    constructor
    · rintro ⟨y, hy, h⟩
      obtain ⟨ys', hys, h⟩ := bind_eq_ok.mp h
      cases h
      exact .cons hy (ih.mp hys)
    · intro h
      cases h with
      | cons hy hys => exact ⟨_, hy, bind_eq_ok.mpr ⟨_, ih.mpr hys, rfl⟩⟩

theorem mapM_cons_eq_ok {f : α → Except ε β} {zs : List β} :
    (x :: xs).mapM f = .ok zs ↔ ∃ b bs, f x = .ok b ∧ xs.mapM f = .ok bs ∧ zs = b :: bs := by
  rw [List.mapM_cons, bind_eq_ok]
  constructor
  · rintro ⟨b, hb, h⟩
    obtain ⟨bs, hbs, h⟩ := bind_eq_ok.mp h
    exact ⟨b, bs, hb, hbs, (Except.ok.inj h).symm⟩
  · rintro ⟨b, bs, hb, hbs, rfl⟩
    exact ⟨b, hb, bind_eq_ok.mpr ⟨bs, hbs, rfl⟩⟩

theorem mapM_returns {f : α → Except ε β} : Returns (xs.mapM f) ↔ ∀ x ∈ xs, Returns (f x) := by
  induction xs with
  | nil => simp [List.mapM_nil]
  | cons x xs ih =>
    rw [List.mapM_cons, returns_bind, List.forall_mem_cons, ← ih]
    constructor
    · rintro ⟨y, hy, h⟩
      obtain ⟨ys, hys, -⟩ := returns_bind.mp h
      exact ⟨⟨y, hy⟩, ys, hys⟩
    · rintro ⟨⟨y, hy⟩, ys, hys⟩
      exact ⟨y, hy, returns_bind.mpr ⟨ys, hys, returns_ok _⟩⟩

/-- Two loops that agree element by element on whether they return agree as a whole. -/
theorem mapM_outcome {γ : Type u} {f : α → Except ε β} {g : γ → Except ε β} {ys : List γ}
    (h : List.Forall₂ (fun x y => outcome (f x) = outcome (g y)) xs ys) :
    outcome (xs.mapM f) = outcome (ys.mapM g) := by
  induction h with
  | nil => rfl
  | cons hxy _ ih =>
    rw [List.mapM_cons, List.mapM_cons]
    exact outcome_bind_congr hxy fun _ _ => outcome_bind_congr ih fun _ _ => rfl

omit [DecidableEq κ] in
theorem keys_mapM {f : α → Except ε α} (hf : ∀ x y, f x = .ok y → key y = key x)
    (h : xs.mapM f = .ok ys) : ys.map key = xs.map key := by
  rw [mapM_eq_ok] at h
  induction h with
  | nil => rfl
  | cons hxy _ ih => simp [hf _ _ hxy, ih]

theorem lookup_mapM {f : α → Except ε α} (hf : ∀ x y, f x = .ok y → key y = key x)
    (h : xs.mapM f = .ok ys) (hy : lookup key k ys = some y) :
    ∃ x, lookup key k xs = some x ∧ f x = .ok y := by
  rw [mapM_eq_ok] at h
  induction h with
  | nil => simp at hy
  | @cons x y' xs ys hxy _ ih =>
    rw [lookup_cons, hf _ _ hxy] at hy
    by_cases hk : key x = k
    · rw [if_pos hk] at hy
      cases hy
      exact ⟨x, by simp [lookup_cons, hk], hxy⟩
    · rw [if_neg hk] at hy
      obtain ⟨x', h1, h2⟩ := ih hy
      exact ⟨x', by rw [lookup_cons, if_neg hk]; exact h1, h2⟩

omit [DecidableEq κ] in
/-- The partner of a record, in two lists of related records. -/
theorem forall₂_mem_right {R : α → β → Prop} {ys : List β} {y : β} (h : List.Forall₂ R xs ys)
    (hy : y ∈ ys) : ∃ x ∈ xs, R x y := by
  induction h with
  | nil => cases hy
  | @cons x y' xs ys hxy _ ih =>
    rcases List.mem_cons.mp hy with rfl | hy
    · exact ⟨x, List.mem_cons_self, hxy⟩
    · obtain ⟨x', hx', hR⟩ := ih hy
      exact ⟨x', List.mem_cons_of_mem x hx', hR⟩

omit [DecidableEq κ] in
theorem forall₂_mem_left {R : α → β → Prop} {ys : List β} (h : List.Forall₂ R xs ys)
    (hx : x ∈ xs) : ∃ y ∈ ys, R x y :=
  forall₂_mem_right h.flip hx

omit [DecidableEq κ] in
theorem forall₂_and {R S : α → β → Prop} {ys : List β} (hR : List.Forall₂ R xs ys)
    (hS : List.Forall₂ S xs ys) : List.Forall₂ (fun x y => R x y ∧ S x y) xs ys := by
  induction hR with
  | nil => exact .nil
  | cons hxy _ ih =>
    obtain ⟨hxy', hS⟩ := List.forall₂_cons.mp hS
    exact .cons ⟨hxy, hxy'⟩ (ih hS)

omit [DecidableEq κ] in
/-- A field that related records share. -/
theorem forall₂_map_eq {γ : Type*} {R : α → α → Prop} {f : α → γ} (h : List.Forall₂ R xs ys)
    (hf : ∀ x y, R x y → f y = f x) : ys.map f = xs.map f := by
  induction h with
  | nil => rfl
  | cons hxy _ ih => rw [List.map_cons, List.map_cons, hf _ _ hxy, ih]

/-! ### Appending and removing a record -/

theorem lookup_append_singleton :
    lookup key k (xs ++ [x]) = (lookup key k xs).or (if key x = k then some x else none) := by
  simp only [lookup, List.find?_append, List.find?_singleton, decide_eq_true_eq]

theorem lookup_map {f : α → α} (hf : ∀ x, key (f x) = key x) :
    lookup key k (xs.map f) = (lookup key k xs).map f := by
  induction xs with
  | nil => rfl
  | cons x xs ih =>
    rw [List.map_cons, lookup_cons, lookup_cons, hf, ih]
    split_ifs <;> rfl

theorem lookup_eraseFirst_ne (hk : k' ≠ k) :
    lookup key k' (eraseFirst key k xs) = lookup key k' xs := by
  induction xs with
  | nil => rfl
  | cons x xs ih =>
    by_cases h : key x = k
    · have hx : key x ≠ k' := fun h' => hk (h'.symm.trans h)
      simp [eraseFirst, lookup_cons, h, Ne.symm hk]
    · have he : eraseFirst key k (x :: xs) = x :: eraseFirst key k xs := by simp [eraseFirst, h]
      rw [he, lookup_cons, lookup_cons, ih]

/-- The record that is erased, and the others. -/
theorem perm_eraseFirst (h : lookup key k xs = some x) : xs.Perm (x :: eraseFirst key k xs) := by
  induction xs with
  | nil => cases h
  | cons y xs ih =>
    by_cases hy : key y = k
    · rw [lookup_cons, if_pos hy] at h
      cases h
      simp [eraseFirst, hy]
    · rw [lookup_cons, if_neg hy] at h
      have he : eraseFirst key k (y :: xs) = y :: eraseFirst key k xs := by simp [eraseFirst, hy]
      rw [he]
      exact ((ih h).cons y).trans (List.Perm.swap x y _)

theorem keys_eraseFirst : (eraseFirst key k xs).map key = (xs.map key).erase k := by
  induction xs with
  | nil => rfl
  | cons x xs ih =>
    by_cases h : key x = k
    · simp [eraseFirst, h]
    · have he : eraseFirst key k (x :: xs) = x :: eraseFirst key k xs := by simp [eraseFirst, h]
      rw [he, List.map_cons, List.map_cons, ih, List.erase_cons_tail (by simpa using h)]

theorem lookup_eraseFirst_self (hnd : (xs.map key).Nodup) :
    lookup key k (eraseFirst key k xs) = none := by
  rw [lookup_eq_none, keys_eraseFirst]
  exact hnd.not_mem_erase

end Keyed
