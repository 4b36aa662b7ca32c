import Mathlib.Data.List.Basic

/-!
# BlockMode — a streaming cipher in chaining mode with padding

A block permutation used in CBC mode with PKCS7 padding, as a pair of stream transformers.  The
encrypting side outputs a block as soon as it is full; the decrypting side withholds the last full
block until more input comes or the stream is finished, since that block may hold the padding.

* `Cipher.update_append`, `Decipher.update_append`: the cut into chunks does not matter.
* `Decipher.update_length`: what goes in comes out, but for at most one withheld block.
* `mirror_update`: the decrypting side, fed with what the encrypting side has output.
* `stream_roundtrip`: what a whole stream decrypts to, before and after `final`.
-/

namespace BlockMode

/-- A block permutation on blocks of `n` symbols, the XOR of two symbols and the padding symbols,
with the laws that make decryption the inverse of encryption. -/
structure Suite (n : ℕ) (κ α : Type*) where
  enc : κ → List α → List α
  dec : κ → List α → List α
  mix : α → α → α
  padSymbol : ℕ → α
  padCount : α → ℕ
  pos : 0 < n
  enc_length : ∀ k b, b.length = n → (enc k b).length = n
  dec_enc : ∀ k b, b.length = n → dec k (enc k b) = b
  dec_length : ∀ k b, b.length = n → (dec k b).length = n
  mix_mix : ∀ a b, mix (mix a b) b = a
  padCount_padSymbol : ∀ m, 0 < m → m ≤ n → padCount (padSymbol m) = m

variable {n : ℕ} {κ α : Type*}

namespace Suite

variable (S : Suite n κ α)

/-- One block in chaining mode: the block is mixed with the previous ciphertext block. -/
def encBlock (k : κ) (chain b : List α) : List α := S.enc k (List.zipWith S.mix b chain)

def decBlock (k : κ) (chain c : List α) : List α := List.zipWith S.mix (S.dec k c) chain

/-- The padding of a last block of `m < n` symbols. -/
def padding (m : ℕ) : List α := List.replicate (n - m) (S.padSymbol (n - m))

variable {S} {k : κ} {chain b : List α}

theorem zipWith_mix_length (hb : b.length = n) (hc : chain.length = n) :
    (List.zipWith S.mix b chain).length = n := by
  rw [List.length_zipWith, hb, hc, Nat.min_self]

theorem zipWith_mix_mix (h : b.length = chain.length) :
    List.zipWith S.mix (List.zipWith S.mix b chain) chain = b := by
  induction b generalizing chain with
  | nil => simp
  | cons x b ih =>
    cases chain with
    | nil => simp at h
    | cons y chain =>
      have h' : b.length = chain.length := by simpa using h
      simp [S.mix_mix, ih h']

theorem encBlock_length (hb : b.length = n) (hc : chain.length = n) :
    (S.encBlock k chain b).length = n :=
  S.enc_length k _ (zipWith_mix_length hb hc)

theorem decBlock_encBlock (hb : b.length = n) (hc : chain.length = n) :
    S.decBlock k chain (S.encBlock k chain b) = b := by
  unfold decBlock encBlock
  rw [S.dec_enc k _ (zipWith_mix_length hb hc), zipWith_mix_mix (hb.trans hc.symm)]

theorem decBlock_length (hb : b.length = n) (hc : chain.length = n) :
    (S.decBlock k chain b).length = n := by
  rw [decBlock, List.length_zipWith, S.dec_length k b hb, hc, Nat.min_self]

theorem padding_length {m : ℕ} : (S.padding m).length = n - m := List.length_replicate

end Suite

/-! ### The encrypting side -/

/-- The state of the encrypting side: the last ciphertext block and the symbols of the next one. -/
structure Cipher (κ α : Type*) where
  key : κ
  chain : List α
  pending : List α

namespace Cipher

variable (S : Suite n κ α)

def feed (c : Cipher κ α) (a : α) : List α × Cipher κ α :=
  if c.pending.length + 1 = n then
    let block := S.encBlock c.key c.chain (c.pending ++ [a])
    (block, { c with chain := block, pending := [] })
  else ([], { c with pending := c.pending ++ [a] })

/-- The output for some input, and the state after it. -/
def update (c : Cipher κ α) : List α → List α × Cipher κ α
  | [] => ([], c)
  | a :: as => ((feed S c a).1 ++ (update (feed S c a).2 as).1, (update (feed S c a).2 as).2)

/-- The last block, padded. -/
def final (c : Cipher κ α) : List α :=
  S.encBlock c.key c.chain (c.pending ++ S.padding c.pending.length)

end Cipher

/-! ### The decrypting side -/

/-- The state of the decrypting side: the ciphertext block before the pending one, and the pending
block, full or not. -/
structure Decipher (κ α : Type*) where
  key : κ
  chain : List α
  pending : List α

namespace Decipher

variable (S : Suite n κ α)

/-- A full pending block is output only when one more symbol comes. -/
def feed (d : Decipher κ α) (a : α) : List α × Decipher κ α :=
  if d.pending.length = n then
    (S.decBlock d.key d.chain d.pending, { d with chain := d.pending, pending := [a] })
  else ([], { d with pending := d.pending ++ [a] })

def update (d : Decipher κ α) : List α → List α × Decipher κ α
  | [] => ([], d)
  | a :: as => ((feed S d a).1 ++ (update (feed S d a).2 as).1, (update (feed S d a).2 as).2)

/-- The last block without its padding; `none` when the stream was cut or the padding is wrong. -/
def final [DecidableEq α] (d : Decipher κ α) : Option (List α) :=
  if d.pending.length = n then
    let block := S.decBlock d.key d.chain d.pending
    let m := (block.getLast?.map S.padCount).getD 0
    if 0 < m ∧ m ≤ n ∧ block.drop (n - m) = List.replicate m (S.padSymbol m) then
      some (block.take (n - m))
    else none
  else none

end Decipher

/-! ### Cutting the input into chunks -/

section

variable {S : Suite n κ α}

theorem Cipher.update_append (c : Cipher κ α) (xs ys : List α) :
    update S c (xs ++ ys) = ((update S c xs).1 ++ (update S (update S c xs).2 ys).1,
      (update S (update S c xs).2 ys).2) := by
  induction xs generalizing c with
  | nil => simp [update]
  | cons a xs ih => simp only [List.cons_append, update, ih, List.append_assoc]

theorem Decipher.update_append (d : Decipher κ α) (xs ys : List α) :
    update S d (xs ++ ys) = ((update S d xs).1 ++ (update S (update S d xs).2 ys).1,
      (update S (update S d xs).2 ys).2) := by
  induction xs generalizing d with
  | nil => simp [update]
  | cons a xs ih => simp only [List.cons_append, update, ih, List.append_assoc]

/-- A decrypting side in a good state: blocks have the right length. -/
structure Decipher.Wf (n : ℕ) (d : Decipher κ α) : Prop where
  chain : d.chain.length = n
  pending : d.pending.length ≤ n

theorem Decipher.feed_length {d : Decipher κ α} (hd : d.Wf n) (a : α) :
    (feed S d a).2.Wf n ∧
      (feed S d a).1.length + (feed S d a).2.pending.length = d.pending.length + 1 := by
  unfold feed
  by_cases h : d.pending.length = n
  · rw [if_pos h]
    have hout := S.decBlock_length (k := d.key) h hd.chain
    exact ⟨⟨h, S.pos⟩, by simp [hout, h]⟩
  · rw [if_neg h]
    have hlt := hd.pending
    refine ⟨⟨hd.chain, ?_⟩, by simp⟩
    simp only [List.length_append, List.length_singleton]
    omega

/-- **What goes in comes out**, but for the pending block. -/
theorem Decipher.update_length {d : Decipher κ α} (hd : d.Wf n) (xs : List α) :
    (update S d xs).2.Wf n ∧ (update S d xs).1.length + (update S d xs).2.pending.length =
      d.pending.length + xs.length := by
  induction xs generalizing d with
  | nil => exact ⟨hd, by simp [update]⟩
  | cons a xs ih =>
    obtain ⟨hwf, hlen⟩ := feed_length (S := S) hd a
    obtain ⟨hwf', hlen'⟩ := ih hwf
    refine ⟨hwf', ?_⟩
    simp only [update, List.length_append, List.length_cons]
    omega

/-- Input that fits into the pending block gives no output. -/
theorem Decipher.update_fill {d : Decipher κ α} (xs : List α)
    (h : d.pending.length + xs.length ≤ n) :
    update S d xs = ([], { d with pending := d.pending ++ xs }) := by
  induction xs generalizing d with
  | nil => simp [update]
  | cons a xs ih =>
    rw [List.length_cons] at h
    have hne : d.pending.length ≠ n := by omega
    have hfeed : feed S d a = ([], { d with pending := d.pending ++ [a] }) := if_neg hne
    simp only [update, hfeed]
    rw [ih (by simp only [List.length_append, List.length_singleton]; omega)]
    simp

/-- A whole block pushes out a full pending block and takes its place. -/
theorem Decipher.update_block {d : Decipher κ α} {c : List α} (hd : d.pending.length = n)
    (hc : c.length = n) :
    update S d c = (S.decBlock d.key d.chain d.pending,
      { d with chain := d.pending, pending := c }) := by
  have hpos := S.pos
  obtain ⟨a, c', rfl⟩ : ∃ a c', c = a :: c' := List.exists_cons_of_length_pos (hc ▸ hpos)
  have hfeed : feed S d a = (S.decBlock d.key d.chain d.pending,
      { d with chain := d.pending, pending := [a] }) := if_pos hd
  rw [List.length_cons] at hc
  simp only [update, hfeed]
  rw [update_fill c' (by simp only [List.length_singleton]; omega)]
  simp

/-! ### Decryption of an encrypted stream -/

/-- An encrypting side in a good state: its pending block is not full. -/
structure Cipher.Wf (n : ℕ) (c : Cipher κ α) : Prop where
  chain : c.chain.length = n
  pending : c.pending.length < n

theorem Cipher.feed_length {c : Cipher κ α} (hc : c.Wf n) (a : α) :
    (feed S c a).2.Wf n ∧ n ∣ (feed S c a).1.length ∧
      (feed S c a).1.length + (feed S c a).2.pending.length = c.pending.length + 1 := by
  have hlt := hc.pending
  unfold feed
  by_cases h : c.pending.length + 1 = n
  · rw [if_pos h]
    have hout : (S.encBlock c.key c.chain (c.pending ++ [a])).length = n :=
      S.encBlock_length (by simpa using h) hc.chain
    exact ⟨⟨hout, S.pos⟩, by simp [hout], by simp [hout, h]⟩
  · rw [if_neg h]
    refine ⟨⟨hc.chain, ?_⟩, by simp, by simp⟩
    simp only [List.length_append, List.length_singleton]
    omega

/-- The output comes in whole blocks, and only the pending symbols are missing from it. -/
theorem Cipher.update_length {c : Cipher κ α} (hc : c.Wf n) (xs : List α) :
    (update S c xs).2.Wf n ∧ n ∣ (update S c xs).1.length ∧
      (update S c xs).1.length + (update S c xs).2.pending.length =
        c.pending.length + xs.length := by
  induction xs generalizing c with
  | nil => exact ⟨hc, by simp [update], by simp [update]⟩
  | cons a xs ih =>
    obtain ⟨hwf, hdvd, hlen⟩ := feed_length (S := S) hc a
    obtain ⟨hwf', hdvd', hlen'⟩ := ih hwf
    refine ⟨hwf', ?_, ?_⟩
    · simp only [update, List.length_append]
      exact Nat.dvd_add hdvd hdvd'
    · simp only [update, List.length_append, List.length_cons]
      omega

theorem Cipher.final_length {c : Cipher κ α} (hc : c.Wf n) : (final S c).length = n := by
  have hlt := hc.pending
  refine S.encBlock_length ?_ hc.chain
  rw [List.length_append, S.padding_length]
  omega

/-- The two sides in step: the decrypting side was fed with everything the encrypting side has
output, and `held` is the plaintext of the block it withholds. -/
inductive Mirror (S : Suite n κ α) (c : Cipher κ α) (d : Decipher κ α) : List α → Prop
  | start (hkey : d.key = c.key) (hchain : d.chain = c.chain) (hpending : d.pending = []) :
      Mirror S c d []
  | block (hkey : d.key = c.key) (hpending : d.pending = c.chain) (hprev : d.chain.length = n) :
      Mirror S c d (S.decBlock d.key d.chain d.pending)

/-- One block through both sides. -/
theorem mirror_block {c : Cipher κ α} {d : Decipher κ α} {held b : List α}
    (h : Mirror S c d held) (hc : c.Wf n) (hb : b.length = n) :
    ∃ d', Decipher.update S d (S.encBlock c.key c.chain b) = (held, d') ∧
      d'.pending = S.encBlock c.key c.chain b ∧ d'.key = c.key ∧ d'.chain = c.chain := by
  have hE : (S.encBlock c.key c.chain b).length = n := S.encBlock_length hb hc.chain
  cases h with
  | start hkey hchain hpending =>
    refine ⟨_, Decipher.update_fill _ ?_, ?_, hkey, hchain⟩
    · rw [hpending, hE]
      simp
    · rw [hpending, List.nil_append]
  | block hkey hpending hprev =>
    exact ⟨_, Decipher.update_block (hpending ▸ hc.chain) hE, rfl, hkey, hpending⟩

/-- **The two sides stay in step**: what was withheld and pending, with the new input, is what comes
out, is withheld and is pending. -/
theorem mirror_update {c : Cipher κ α} {d : Decipher κ α} {held : List α} (h : Mirror S c d held)
    (hc : c.Wf n) (xs : List α) :
    ∃ held', Mirror S (Cipher.update S c xs).2 (Decipher.update S d (Cipher.update S c xs).1).2 held' ∧
      held ++ c.pending ++ xs = (Decipher.update S d (Cipher.update S c xs).1).1 ++ held' ++
        (Cipher.update S c xs).2.pending := by
  induction xs generalizing c d held with
  | nil => exact ⟨held, h, by simp [Cipher.update, Decipher.update]⟩
  | cons a xs ih =>
    obtain ⟨hc', -, -⟩ := Cipher.feed_length (S := S) hc a
    simp only [Cipher.update, Decipher.update_append]
    by_cases hfull : c.pending.length + 1 = n
    · -- the symbol completes a block, which pushes the withheld one out
      have hb : (c.pending ++ [a]).length = n := by simpa using hfull
      obtain ⟨d', hupd, hpend, hkey, hchain⟩ := mirror_block h hc hb
      have hfeed : Cipher.feed S c a = (S.encBlock c.key c.chain (c.pending ++ [a]),
          { c with chain := S.encBlock c.key c.chain (c.pending ++ [a]), pending := [] }) :=
        if_pos hfull
      have hheld : S.decBlock d'.key d'.chain d'.pending = c.pending ++ [a] := by
        rw [hpend, hkey, hchain]
        exact S.decBlock_encBlock hb hc.chain
      have hmirror : Mirror S (Cipher.feed S c a).2 d' (c.pending ++ [a]) := by
        rw [← hheld, hfeed]
        exact .block hkey hpend (hchain ▸ hc.chain)
      obtain ⟨held', hm, heq⟩ := ih hmirror hc'
      have hout : (Cipher.feed S c a).1 = S.encBlock c.key c.chain (c.pending ++ [a]) := by
        rw [hfeed]
      have hpen : (Cipher.feed S c a).2.pending = [] := by rw [hfeed]
      rw [hout, hupd]
      refine ⟨held', hm, ?_⟩
      rw [hpen] at heq
      simp only [List.append_assoc, List.append_nil, List.singleton_append] at heq ⊢
      rw [heq]
    · -- the symbol joins the pending block
      have hfeed : Cipher.feed S c a = ([], { c with pending := c.pending ++ [a] }) :=
        if_neg hfull
      have hmirror : Mirror S (Cipher.feed S c a).2 d held := by
        rw [hfeed]
        cases h with
        | start hkey hchain hpending => exact .start hkey hchain hpending
        | block hkey hpending hprev => exact .block hkey hpending hprev
      obtain ⟨held', hm, heq⟩ := ih hmirror hc'
      have hout : (Cipher.feed S c a).1 = [] := by rw [hfeed]
      have hpen : (Cipher.feed S c a).2.pending = c.pending ++ [a] := by rw [hfeed]
      rw [hout]
      refine ⟨held', hm, ?_⟩
      rw [hpen] at heq
      simp only [List.append_assoc, List.singleton_append] at heq ⊢
      exact heq

/-- The last block gives back the pending symbols. -/
theorem final_padded [DecidableEq α] {d : Decipher κ α} {rest : List α} (hr : rest.length < n)
    (hd : d.pending.length = n)
    (h : S.decBlock d.key d.chain d.pending = rest ++ S.padding rest.length) :
    Decipher.final S d = some rest := by
  have hpos : 0 < n - rest.length := by omega
  have hlast : (rest ++ S.padding rest.length).getLast? = some (S.padSymbol (n - rest.length)) := by
    rw [Suite.padding, List.getLast?_append_of_ne_nil _ (by simp; omega), List.getLast?_replicate,
      if_neg (by omega)]
  have hcount : S.padCount (S.padSymbol (n - rest.length)) = n - rest.length :=
    S.padCount_padSymbol _ hpos (by omega)
  have hsub : n - (n - rest.length) = rest.length := by omega
  unfold Decipher.final
  rw [if_pos hd, h]
  simp only [hlast, Option.map_some, Option.getD_some, hcount, hsub]
  rw [if_pos ⟨hpos, by omega, by simp [Suite.padding]⟩]
  simp

/-- A stream encrypted whole. -/
def encryptAll (S : Suite n κ α) (k : κ) (iv xs : List α) : List α :=
  (Cipher.update S ⟨k, iv, []⟩ xs).1 ++ Cipher.final S (Cipher.update S ⟨k, iv, []⟩ xs).2

theorem encryptAll_length {k : κ} {iv : List α} (hiv : iv.length = n) (xs : List α) :
    (encryptAll S k iv xs).length = n * (xs.length / n) + n := by
  have hc : (⟨k, iv, []⟩ : Cipher κ α).Wf n := ⟨hiv, S.pos⟩
  obtain ⟨hwf, ⟨q, hq⟩, hlen⟩ := Cipher.update_length (S := S) hc xs
  have hpend := hwf.pending
  have hquot : xs.length / n = q := by
    rw [← Nat.zero_add xs.length, show 0 = ([] : List α).length from rfl, ← hlen, hq,
      Nat.mul_add_div S.pos, Nat.div_eq_of_lt hpend, Nat.add_zero]
  rw [encryptAll, List.length_append, Cipher.final_length hwf, hq, hquot]

/-- **Round trip.**  Before `final` the decrypting side has output the whole blocks of the clear
stream, and `final` gives the rest. -/
theorem stream_roundtrip [DecidableEq α] {k : κ} {iv : List α} (hiv : iv.length = n) (xs : List α) :
    ∃ d, Decipher.update S ⟨k, iv, []⟩ (encryptAll S k iv xs) = (xs.take (n * (xs.length / n)), d) ∧
      Decipher.final S d = some (xs.drop (n * (xs.length / n))) := by
  have hc : (⟨k, iv, []⟩ : Cipher κ α).Wf n := ⟨hiv, S.pos⟩
  have hd : (⟨k, iv, []⟩ : Decipher κ α).Wf n := ⟨hiv, Nat.zero_le _⟩
  obtain ⟨hwf, -, -⟩ := Cipher.update_length (S := S) hc xs
  obtain ⟨held, hm, heq⟩ := mirror_update (S := S) (d := ⟨k, iv, []⟩)
    (Mirror.start rfl rfl rfl) hc xs
  set c' := (Cipher.update S ⟨k, iv, []⟩ xs).2 with hc'
  set p := Decipher.update S ⟨k, iv, []⟩ (Cipher.update S ⟨k, iv, []⟩ xs).1 with hp
  have hb : (c'.pending ++ S.padding c'.pending.length).length = n := by
    have hlt := hwf.pending
    rw [List.length_append, S.padding_length]
    omega
  obtain ⟨d', hupd, hpend, hkey, hchain⟩ := mirror_block hm hwf hb
  have hwhole : Decipher.update S ⟨k, iv, []⟩ (encryptAll S k iv xs) = (p.1 ++ held, d') := by
    rw [encryptAll, Decipher.update_append, ← hc', ← hp, Cipher.final, hupd]
  have hlast : Decipher.final S d' = some c'.pending := by
    refine final_padded hwf.pending ?_ ?_
    · rw [hpend]
      exact S.encBlock_length hb hwf.chain
    · rw [hpend, hkey, hchain]
      exact S.decBlock_encBlock hb hwf.chain
  -- the lengths tell where the clear stream is cut
  have hlen := (Decipher.update_length (S := S) hd (encryptAll S k iv xs)).2
  rw [hwhole, encryptAll_length hiv, hpend, S.encBlock_length hb hwf.chain] at hlen
  have hcut : (p.1 ++ held).length = n * (xs.length / n) := by
    simp only [List.length_nil] at hlen
    omega
  have hxs : xs = (p.1 ++ held) ++ c'.pending := by simpa using heq
  refine ⟨d', ?_, ?_⟩
  · rw [hwhole, ← hcut]
    conv_rhs => rw [hxs]
    rw [List.take_left]
  · rw [hlast, ← hcut]
    conv_rhs => rw [hxs]
    rw [List.drop_left]

end

end BlockMode
