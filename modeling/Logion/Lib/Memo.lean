import Logion.Lib.Keyed
import Mathlib.Logic.Function.Basic

/-!
# Memo — a map that is filled while a list is read

`fill key f memo xs` calls `f` on the records whose key has no entry yet, and keeps what it returns.
From an empty map, the entry of a key is what `f` returns on the first record with that key
(`Keyed.lookup`).

* `fill_entry`: the entries after the list.
* `fill_returns`: the list is read to its end exactly if `f` returns on the first record of every key.
-/

namespace Memo

open Keyed Fallible

universe u

variable {α β κ : Type u} {ε : Type*} [DecidableEq κ] {key : α → κ} {f : α → Except ε β}

/-- The entry of the record, added if there is none. -/
def remember (key : α → κ) (f : α → Except ε β) (memo : κ → Option β) (a : α) :
    Except ε (κ → Option β) :=
  match memo (key a) with
  | some _ => .ok memo
  | none => do
    let b ← f a
    return Function.update memo (key a) (some b)

def fill (key : α → κ) (f : α → Except ε β) (memo : κ → Option β) (xs : List α) :
    Except ε (κ → Option β) :=
  xs.foldlM (remember key f) memo

variable {memo memo' : κ → Option β} {a : α} {b : β} {xs : List α}

theorem fill_nil : fill key f memo [] = .ok memo := rfl

theorem fill_cons_of_some (h : memo (key a) = some b) :
    fill key f memo (a :: xs) = fill key f memo xs := by
  rw [fill, List.foldlM_cons, remember, h]
  rfl

theorem fill_cons_of_none (h : memo (key a) = none) : fill key f memo (a :: xs) = (do
    let b ← f a
    fill key f (Function.update memo (key a) (some b)) xs) := by
  rw [fill, List.foldlM_cons, remember, h]
  cases f a <;> rfl

/-- **The entry of a key**: the one that there was, or what `f` returns on the first record. -/
theorem fill_entry (h : fill key f memo xs = .ok memo') (k : κ) :
    memo' k = (memo k).or ((lookup key k xs).bind fun a => (f a).toOption) := by
  induction xs generalizing memo with
  | nil =>
    cases h
    simp
  | cons x xs ih =>
    cases hx : memo (key x) with
    | some b =>
      rw [fill_cons_of_some hx] at h
      rw [ih h, lookup_cons]
      split_ifs with hk
      · rw [← hk, hx, Option.some_or, Option.some_or]
      · rfl
    | none =>
      rw [fill_cons_of_none hx] at h
      obtain ⟨b, hb, h⟩ := bind_eq_ok.mp h
      rw [ih h, lookup_cons]
      split_ifs with hk
      · subst hk
        rw [Function.update_self, hx, Option.some_or, Option.none_or, Option.bind_some, hb]
        rfl
      · rw [Function.update_of_ne (Ne.symm hk)]

/-- **When the list is read to its end.** -/
theorem fill_returns : Returns (fill key f memo xs) ↔
    ∀ k, memo k = none → ∀ a, lookup key k xs = some a → Returns (f a) := by
  induction xs generalizing memo with
  | nil => simp [fill_nil]
  | cons x xs ih =>
    cases hx : memo (key x) with
    | some b₀ =>
      rw [fill_cons_of_some hx, ih]
      refine forall_congr' fun k => forall_congr' fun hnone => forall_congr' fun a => ?_
      have hne : key x ≠ k := fun he => by rw [he, hnone] at hx; cases hx
      rw [lookup_cons, if_neg hne]
    | none =>
      rw [fill_cons_of_none hx, returns_bind]
      constructor
      · rintro ⟨b, hb, hrest⟩ k hnone a ha
        rw [lookup_cons] at ha
        split_ifs at ha with hk
        · obtain rfl := Option.some.inj ha
          exact ⟨b, hb⟩
        · refine ih.mp hrest k ?_ a ha
          rwa [Function.update_of_ne (Ne.symm hk)]
      · intro h
        obtain ⟨b, hb⟩ := h (key x) hx x lookup_cons_self
        refine ⟨b, hb, ih.mpr fun k hnone a ha => ?_⟩
        by_cases hk : k = key x
        · rw [hk, Function.update_self] at hnone
          cases hnone
        · rw [Function.update_of_ne hk] at hnone
          refine h k hnone a ?_
          rwa [lookup_cons, if_neg (Ne.symm hk)]

end Memo
