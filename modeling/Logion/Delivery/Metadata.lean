import Logion.Lib.Fallible
import Logion.Lib.Occurrences
import Logion.Model.Basic

/-!
# Metadata — the metadata block of a delivered file (`RestrictedDeliveryMetadata.ts`)

The metadata of a restricted delivery are a block of lines between a header and a footer, in a text
that is otherwise free.  The updater finds the block, decodes it, and writes another one in its place
at the offsets that it has remembered.

* `decode_encode`: the block is decoded to the metadata that it was made from.
* `Updater.new_eq`: what a new updater finds, when the two markers occur once.
* `Located.setMetadata`: one rewriting keeps what is before and after the block, and the offsets right.
* `setEach_holdsBlock`: any number of them, with the same updater or new ones.
-/

namespace Logion

open Fallible Occurrences

/-- A JavaScript string: its UTF-16 code units. -/
abbrev Text := List UInt16

abbrev Buffer := List UInt8

def utf16 (c : Char) : Text :=
  if c.val < 0x10000 then [c.val.toUInt16]
  else [((c.val - 0x10000) / 0x400 + 0xD800).toUInt16, ((c.val - 0x10000) % 0x400 + 0xDC00).toUInt16]

def text (s : String) : Text := s.toList.flatMap utf16

/-! ### String methods -/

/-- `text.indexOf(searched, position)`: -1 when it is not found. -/
def Text.indexOf (text searched : Text) (position : ℤ := 0) : ℤ :=
  match Occurrences.indexOf searched (text.drop position.toNat) with
  | some i => position.toNat + i
  | none => -1

/-- A negative position counts from the end of the text. -/
def Text.relative (text : Text) (position : ℤ) : ℕ :=
  if position < 0 then (text.length + position).toNat else position.toNat

/-- `text.slice(start, end)`. -/
def Text.slice (text : Text) (start finish : ℤ) : Text :=
  (text.take (text.relative finish)).drop (text.relative start)

/-- `text.slice(start)`. -/
def Text.sliceFrom (text : Text) (start : ℤ) : Text := text.drop (text.relative start)

theorem Text.indexOf_of_unique {text searched : Text} {i k : ℕ} {p : ℤ}
    (h : ∀ j, OccursAt searched text j ↔ j = i) (hp : p = k) (hk : k ≤ i) :
    text.indexOf searched p = i := by
  subst hp
  rw [Text.indexOf, Int.toNat_natCast, indexOf_drop_of_unique h hk]
  show (k : ℤ) + (i - k : ℕ) = i
  omega

theorem Text.indexOf_of_free {text searched : Text} (hne : searched ≠ []) (h : ¬ searched <:+: text) :
    text.indexOf searched = -1 := by
  rw [Text.indexOf, Int.toNat_zero, List.drop_zero, Occurrences.indexOf_eq_none hne h]

theorem Text.relative_of_eq (text : Text) {position : ℤ} {k : ℕ} (h : position = k) :
    text.relative position = k := by
  rw [Text.relative, if_neg (by omega), h, Int.toNat_natCast]

theorem Text.slice_append {before block after : Text} {start finish : ℤ} (hstart : start = before.length)
    (hfinish : finish = before.length + block.length) :
    (before ++ block ++ after).slice start finish = block := by
  have hlength : finish = (before ++ block).length := by simp [hfinish]
  rw [Text.slice, Text.relative_of_eq _ hstart, Text.relative_of_eq _ hlength, List.take_left,
    List.drop_left]

theorem Text.sliceFrom_append {before block after : Text} {start : ℤ}
    (hstart : start = before.length + block.length) :
    (before ++ block ++ after).sliceFrom start = after := by
  have hlength : start = (before ++ block).length := by simp [hstart]
  rw [Text.sliceFrom, Text.relative_of_eq _ hlength, List.drop_left]

def newline : UInt16 := 10

/-- `text.split("\n")`. -/
def Text.lines (text : Text) : List Text := text.splitOn newline

/-! ### The markers -/

def encodedMetadataHeader : Text := text "-----BEGIN LOGION METADATA-----"

def encodedMetadataFooter : Text := text "-----END LOGION METADATA-----"

theorem header_ne_nil : encodedMetadataHeader ≠ [] := by decide

theorem footer_ne_nil : encodedMetadataFooter ≠ [] := by decide

theorem newline_notMem_header : newline ∉ encodedMetadataHeader := by decide

theorem newline_notMem_footer : newline ∉ encodedMetadataFooter := by decide

/-- A value without a newline or a marker. -/
structure Inert (value : Text) : Prop where
  newline : newline ∉ value
  header : ¬ encodedMetadataHeader <:+: value
  footer : ¬ encodedMetadataFooter <:+: value

/-- An inert value stays inert behind the name of its property. -/
theorem Inert.append {name value : Text} (hnewline : Logion.newline ∉ name) (hdash : 45 ∉ name)
    (h : Inert value) : Inert (name ++ value) where
  newline := fun hmem => (List.mem_append.mp hmem).elim hnewline h.newline
  header := fun hinfix => h.header (isInfix_append_of_notMem (by decide) hdash hinfix)
  footer := fun hinfix => h.footer (isInfix_append_of_notMem (by decide) hdash hinfix)

/-- Nothing before and after the block makes another occurrence of its markers. -/
abbrev EnclosesBlock (before after : Text) : Prop :=
  Encloses encodedMetadataHeader encodedMetadataFooter before after

/-- The two markers occur once, around the body of a block. -/
structure OneBlock (before body after : Text) : Prop where
  header : ∀ i, OccursAt encodedMetadataHeader
    (before ++ (encodedMetadataHeader ++ body ++ encodedMetadataFooter) ++ after) i ↔ i = before.length
  footer : ∀ i, OccursAt encodedMetadataFooter
    (before ++ (encodedMetadataHeader ++ body ++ encodedMetadataFooter) ++ after) i ↔
      i = (before ++ encodedMetadataHeader ++ body).length

theorem OneBlock.encloses {before body after : Text} (h : OneBlock before body after) :
    EnclosesBlock before after :=
  .of_unique header_ne_nil footer_ne_nil (fun i => (h.header i).mp) fun i => (h.footer i).mp

/-- Lines without a marker, in place of the body. -/
theorem OneBlock.of_encloses {before middle after : Text} (h : EnclosesBlock before after)
    (hmiddle : ¬ encodedMetadataHeader <:+: middle ∧ ¬ encodedMetadataFooter <:+: middle) :
    OneBlock before (newline :: (middle ++ [newline])) after where
  header i := by
    simpa using h.header_unique header_ne_nil newline_notMem_header hmiddle.1 (i := i)
  footer i := by
    simpa using h.footer_unique footer_ne_nil newline_notMem_footer hmiddle.2 (i := i)

theorem encloses_nil : EnclosesBlock [] [] where
  header_left h := h.eq_zero header_ne_nil
  footer_left h := absurd h.isInfix (by decide)
  header_right h := absurd h.isInfix (by decide)
  footer_right h := by
    rw [List.append_nil] at h
    exact h.eq_zero footer_ne_nil

/-- What is before and after the first block of a text without markers. -/
theorem encloses_first {before : Text} (hheader : ¬ encodedMetadataHeader <:+: before)
    (hfooter : ¬ encodedMetadataFooter <:+: before) :
    EnclosesBlock (before ++ [newline, newline]) [newline] := by
  have hempty : ¬ encodedMetadataHeader <:+: [] ∧ ¬ encodedMetadataFooter <:+: [] := by decide
  have hline : ¬ encodedMetadataHeader <:+: before ++ [newline] ∧
      ¬ encodedMetadataFooter <:+: before ++ [newline] := by
    rw [isInfix_append_cons header_ne_nil newline_notMem_header,
      isInfix_append_cons footer_ne_nil newline_notMem_footer, not_or, not_or]
    exact ⟨⟨hheader, hempty.1⟩, hfooter, hempty.2⟩
  have := encloses_nil.separate header_ne_nil footer_ne_nil newline_notMem_header
    newline_notMem_footer hline hempty
  rwa [List.append_assoc] at this

/-! ### Property lines -/

namespace RestrictedDeliveryMetadataCodec

/-- `value || previous`. -/
def orKeep : Option Text → Text → Text
  | some (c :: cs), _ => c :: cs
  | _, previous => previous

def getPropertyValue (line : Text) (name : String) : Option Text :=
  if text (name ++ "=") <+: line then some (line.drop (text (name ++ "=")).length) else none

/-- The variables of `decode`. -/
structure Values where
  owner : Text := []
  generatedOn : Text := []
  nodeId : Text := []
  signature : Text := []

def readLine (values : Values) (line : Text) : Values where
  owner := orKeep (getPropertyValue line "owner") values.owner
  generatedOn := orKeep (getPropertyValue line "generatedOn") values.generatedOn
  nodeId := orKeep (getPropertyValue line "nodeId") values.nodeId
  signature := orKeep (getPropertyValue line "signature") values.signature

theorem orKeep_nil (value : Text) : orKeep (some value) [] = value := by
  cases value <;> rfl

theorem orKeep_none (previous : Text) : orKeep none previous = previous := rfl

/-- The line of a property. -/
theorem getPropertyValue_self {name : String} {label : Text} (value : Text)
    (h : text (name ++ "=") = label) : getPropertyValue (label ++ value) name = some value := by
  rw [getPropertyValue, h, if_pos (List.prefix_append _ _), List.drop_left]

/-- The line of another property. -/
theorem getPropertyValue_other {name : String} {label : Text} (value : Text)
    (h : ¬ text (name ++ "=") <+: label ∧ ¬ label <+: text (name ++ "=")) :
    getPropertyValue (label ++ value) name = none := by
  refine if_neg fun hname => ?_
  rcases List.prefix_or_prefix_of_prefix hname (List.prefix_append label value) with h' | h'
  · exact h.1 h'
  · exact h.2 h'

theorem getPropertyValue_marker {name : String} {marker : Text}
    (h : ¬ text (name ++ "=") <+: marker) : getPropertyValue marker name = none :=
  if_neg h

end RestrictedDeliveryMetadataCodec

/-! ### The codec -/

/-- `moment`, `PeerId` and `Buffer`, as far as the codec uses them. -/
class Encodings where
  PeerId : Type
  toISOString : Moment → Text
  moment : Text → Moment
  toB58String : PeerId → Text
  createFromB58String : Text → Except Err PeerId
  toHex : Buffer → Text
  fromHex : Text → Buffer

section Codec

variable [Encodings]

structure RestrictedDeliveryMetadata where
  owner : Text
  generatedOn : Moment
  nodeId : Encodings.PeerId
  signature : Buffer

namespace RestrictedDeliveryMetadataCodec

/-- The lines between the header and the footer. -/
def properties (metadata : RestrictedDeliveryMetadata) : List Text := [
  text "owner=" ++ metadata.owner,
  text "generatedOn=" ++ Encodings.toISOString metadata.generatedOn,
  text "nodeId=" ++ Encodings.toB58String metadata.nodeId,
  text "signature=" ++ Encodings.toHex metadata.signature]

def encode (metadata : RestrictedDeliveryMetadata) : Text :=
  encodedMetadataHeader ++ text "\n" ++
  text "owner=" ++ metadata.owner ++ text "\n" ++
  text "generatedOn=" ++ Encodings.toISOString metadata.generatedOn ++ text "\n" ++
  text "nodeId=" ++ Encodings.toB58String metadata.nodeId ++ text "\n" ++
  text "signature=" ++ Encodings.toHex metadata.signature ++ text "\n" ++
  encodedMetadataFooter

def decode (encodedMetadata : Text) : Except Err RestrictedDeliveryMetadata :=
  if ¬ encodedMetadataHeader <+: encodedMetadata then throw (.error "Metadata header missing")
  else if ¬ encodedMetadataFooter <:+ encodedMetadata then throw (.error "Metadata footer missing")
  else do
    let values := encodedMetadata.lines.foldl readLine {}
    let nodeId ← Encodings.createFromB58String values.nodeId
    return {
      owner := values.owner
      generatedOn := Encodings.moment values.generatedOn
      nodeId
      signature := Encodings.fromHex values.signature }

end RestrictedDeliveryMetadataCodec

open RestrictedDeliveryMetadataCodec

/-! ### The updater -/

/-- `RestrictedDeliveryMetadataUpdater`. -/
structure Updater where
  text : Text
  start : ℤ := -1
  finish : ℤ := -1
  metadata : Option RestrictedDeliveryMetadata := none

namespace Updater

def findMetadata (u : Updater) : Except Err Updater :=
  let start := u.text.indexOf encodedMetadataHeader
  if start ≠ -1 then
    let finish := u.text.indexOf encodedMetadataFooter (start + encodedMetadataHeader.length)
    if finish = -1 then throw (.error "Invalid metadata")
    else do
      let metadata ← decode (u.text.slice start (finish + encodedMetadataFooter.length))
      return { u with start, finish, metadata := some metadata }
  else return { u with start }

/-- The constructor. -/
def new (text : Text) : Except Err Updater := findMetadata { text }

def setMetadata (u : Updater) (metadata : RestrictedDeliveryMetadata) : Updater :=
  let encodedMetadata := encode metadata
  let finish (start : ℤ) : ℤ := start + encodedMetadata.length - encodedMetadataFooter.length
  match u.metadata with
  | none =>
    if 0 < u.text.length then {
      text := u.text ++ Logion.text "\n\n" ++ encodedMetadata ++ Logion.text "\n"
      start := u.text.length + 2
      finish := finish (u.text.length + 2)
      metadata := some metadata }
    else {
      text := encodedMetadata
      start := 0
      finish := finish 0
      metadata := some metadata }
  | some _ =>
    let before := u.text.slice 0 u.start
    let after := u.text.sliceFrom (u.finish + encodedMetadataFooter.length)
    { text := before ++ encodedMetadata ++ after
      start := before.length
      finish := finish before.length
      metadata := some metadata }

end Updater

/-! ### What is between the markers -/

namespace RestrictedDeliveryMetadataCodec

/-- The encodings give inert texts and can be undone. -/
structure Encodable (metadata : RestrictedDeliveryMetadata) : Prop where
  owner : Inert metadata.owner
  generatedOn : Inert (Encodings.toISOString metadata.generatedOn)
  nodeId : Inert (Encodings.toB58String metadata.nodeId)
  signature : Inert (Encodings.toHex metadata.signature)
  moment : Encodings.moment (Encodings.toISOString metadata.generatedOn) = metadata.generatedOn
  createFromB58String :
    Encodings.createFromB58String (Encodings.toB58String metadata.nodeId) = .ok metadata.nodeId
  fromHex : Encodings.fromHex (Encodings.toHex metadata.signature) = metadata.signature

variable {metadata : RestrictedDeliveryMetadata}

theorem encode_eq_intercalate : encode metadata = [newline].intercalate
    (encodedMetadataHeader :: (properties metadata ++ [encodedMetadataFooter])) := by
  have hnewline : text "\n" = [newline] := by decide
  simp [encode, properties, hnewline, List.intercalate]

theorem Encodable.properties_inert (h : Encodable metadata) :
    ∀ line ∈ properties metadata, Inert line := by
  simp only [properties, List.forall_mem_cons, List.not_mem_nil, false_imp_iff, implies_true, and_true]
  exact ⟨h.owner.append (by decide) (by decide), h.generatedOn.append (by decide) (by decide),
    h.nodeId.append (by decide) (by decide), h.signature.append (by decide) (by decide)⟩

/-- `split` gives the lines back. -/
theorem lines_encode (h : Encodable metadata) : (encode metadata).lines =
    encodedMetadataHeader :: (properties metadata ++ [encodedMetadataFooter]) := by
  rw [Text.lines, encode_eq_intercalate]
  refine List.splitOn_intercalate newline ?_ (List.cons_ne_nil _ _)
  intro line hline
  rcases List.mem_cons.mp hline with rfl | hline
  · exact newline_notMem_header
  rcases List.mem_append.mp hline with hline | hline
  · exact (h.properties_inert line hline).newline
  · rw [List.mem_singleton.mp hline]
    exact newline_notMem_footer

/-- What the loop over the lines has read. -/
theorem readLines_encode (h : Encodable metadata) : (encode metadata).lines.foldl readLine {} =
    { owner := metadata.owner
      generatedOn := Encodings.toISOString metadata.generatedOn
      nodeId := Encodings.toB58String metadata.nodeId
      signature := Encodings.toHex metadata.signature } := by
  rw [lines_encode h]
  simp (disch := decide) only [properties, List.cons_append, List.nil_append, List.foldl_cons,
    List.foldl_nil, readLine, getPropertyValue_self, getPropertyValue_other, getPropertyValue_marker,
    orKeep_nil, orKeep_none]

theorem encode_eq_block : encode metadata = encodedMetadataHeader ++
    (newline :: ([newline].intercalate (properties metadata) ++ [newline])) ++
      encodedMetadataFooter := by
  simp [encode_eq_intercalate, properties, List.intercalate]

/-- **The block is decoded to the metadata that it was made from.** -/
theorem decode_encode (h : Encodable metadata) : decode (encode metadata) = .ok metadata := by
  have hheader : encodedMetadataHeader <+: encode metadata := by
    rw [encode_eq_block, List.append_assoc]
    exact List.prefix_append _ _
  have hfooter : encodedMetadataFooter <:+ encode metadata := by
    rw [encode_eq_block]
    exact List.suffix_append _ _
  rw [decode, if_neg (not_not.mpr hheader), if_neg (not_not.mpr hfooter), readLines_encode h]
  simp only [h.createFromB58String, h.moment, h.fromHex, ok_bind, pure_eq_ok]

/-- What is between the markers has none of them. -/
theorem Encodable.marker_free (h : Encodable metadata) :
    ¬ encodedMetadataHeader <:+: [newline].intercalate (properties metadata) ∧
      ¬ encodedMetadataFooter <:+: [newline].intercalate (properties metadata) := by
  constructor
  · intro hinfix
    obtain ⟨line, hmem, hline⟩ := isInfix_intercalate header_ne_nil newline_notMem_header hinfix
    exact (h.properties_inert line hmem).header hline
  · intro hinfix
    obtain ⟨line, hmem, hline⟩ := isInfix_intercalate footer_ne_nil newline_notMem_footer hinfix
    exact (h.properties_inert line hmem).footer hline

end RestrictedDeliveryMetadataCodec

/-! ### Finding the block -/

variable {metadata : RestrictedDeliveryMetadata} {before body block after : Text}

/-- A block that is written where nothing makes another marker. -/
theorem EnclosesBlock.oneBlock (h : EnclosesBlock before after) (hm : Encodable metadata) :
    OneBlock before (newline :: ([newline].intercalate (properties metadata) ++ [newline])) after :=
  .of_encloses h hm.marker_free

/-- **What a new updater finds**, when the two markers occur once. -/
theorem Updater.new_eq (h : OneBlock before body after)
    (hdecode : decode (encodedMetadataHeader ++ body ++ encodedMetadataFooter) = .ok metadata) :
    Updater.new (before ++ (encodedMetadataHeader ++ body ++ encodedMetadataFooter) ++ after) = .ok {
      text := before ++ (encodedMetadataHeader ++ body ++ encodedMetadataFooter) ++ after
      start := before.length
      finish := (before ++ encodedMetadataHeader ++ body).length
      metadata := some metadata } := by
  have hheader := Text.indexOf_of_unique h.header Int.natCast_zero.symm (Nat.zero_le _)
  have hfooter := Text.indexOf_of_unique h.footer (p := before.length +
    encodedMetadataHeader.length) rfl (by simp only [List.length_append]; omega)
  have hslice := @Text.slice_append before (encodedMetadataHeader ++ body ++ encodedMetadataFooter)
    after _ _ rfl rfl
  have hstart : (before.length : ℤ) ≠ -1 := by omega
  have hfinish : ((before ++ encodedMetadataHeader ++ body).length : ℤ) ≠ -1 := by omega
  have hend : ((before ++ encodedMetadataHeader ++ body).length : ℤ) + encodedMetadataFooter.length =
      before.length + (encodedMetadataHeader ++ body ++ encodedMetadataFooter).length := by
    simp only [List.length_append]
    omega
  simp only [Updater.new, Updater.findMetadata, hheader, hfooter, hend, hslice, hdecode, if_pos hstart,
    if_neg hfinish, ok_bind, pure_eq_ok]

/-- The updater holds a block at the offsets that it remembers. -/
structure Located (u : Updater) (before block after : Text) : Prop where
  text : u.text = before ++ block ++ after
  start : u.start = before.length
  finish : u.finish + encodedMetadataFooter.length = before.length + block.length
  metadata : u.metadata.isSome

variable {u : Updater}

/-- **One rewriting**: another block between the same texts. -/
theorem Located.setMetadata (h : Located u before block after) :
    Located (u.setMetadata metadata) before (encode metadata) after := by
  have hbefore : u.text.slice 0 u.start = before := by
    rw [h.text, h.start, List.append_assoc]
    exact @Text.slice_append [] before _ _ _ rfl (by simp)
  have hafter : u.text.sliceFrom (u.finish + encodedMetadataFooter.length) = after := by
    rw [h.text]
    exact Text.sliceFrom_append h.finish
  obtain ⟨previous, hprevious⟩ := Option.isSome_iff_exists.mp h.metadata
  rw [Updater.setMetadata, hprevious]
  simp only [hbefore, hafter]
  exact ⟨rfl, rfl, by simp only; omega, rfl⟩

/-! ### Any number of rewritings -/

/-- A call of `setMetadata`, on the same updater or on a new one over the text. -/
structure SetMetadata where
  renewed : Bool
  metadata : RestrictedDeliveryMetadata

def Updater.call (u : Updater) (c : SetMetadata) : Except Err Updater := do
  let u ← (if c.renewed then Updater.new u.text else pure u)
  return u.setMetadata c.metadata

/-- An updater over the text, and the calls one after the other. -/
def setEach (text : Text) (calls : List SetMetadata) : Except Err Updater := do
  let u ← Updater.new text
  calls.foldlM Updater.call u

/-- What is before and after the block of a text, or before and after the first one that it gets. -/
inductive Surroundings : Text → Text → Text → Prop
  | empty : Surroundings [] [] []
  | unmarked {text : Text} (hne : text ≠ []) (hheader : ¬ encodedMetadataHeader <:+: text)
      (hfooter : ¬ encodedMetadataFooter <:+: text) :
      Surroundings text (text ++ Logion.text "\n\n") (Logion.text "\n")
  | marked {before body after : Text}
      (hheader : ∃! i, OccursAt encodedMetadataHeader
        (before ++ (encodedMetadataHeader ++ body ++ encodedMetadataFooter) ++ after) i)
      (hfooter : ∃! i, OccursAt encodedMetadataFooter
        (before ++ (encodedMetadataHeader ++ body ++ encodedMetadataFooter) ++ after) i)
      (hdecode : Returns (decode (encodedMetadataHeader ++ body ++ encodedMetadataFooter))) :
      Surroundings (before ++ (encodedMetadataHeader ++ body ++ encodedMetadataFooter) ++ after)
        before after

/-- The text holds one block, that of the metadata, in its surroundings. -/
structure HoldsBlock (before after : Text) (metadata : RestrictedDeliveryMetadata) (text : Text) :
    Prop where
  eq : text = before ++ encode metadata ++ after
  header : ∃! i, OccursAt encodedMetadataHeader text i
  footer : ∃! i, OccursAt encodedMetadataFooter text i
  decoded : decode (encode metadata) = .ok metadata
  found : ∃ u, Updater.new text = .ok u ∧ u.metadata = some metadata

variable {text : Text}

theorem setMetadata_metadata : (u.setMetadata metadata).metadata = some metadata := by
  rw [Updater.setMetadata]
  split
  · split_ifs <;> rfl
  · rfl

omit [Encodings] in
theorem OneBlock.of_unique
    (hheader : ∃! i, OccursAt encodedMetadataHeader
      (before ++ (encodedMetadataHeader ++ body ++ encodedMetadataFooter) ++ after) i)
    (hfooter : ∃! i, OccursAt encodedMetadataFooter
      (before ++ (encodedMetadataHeader ++ body ++ encodedMetadataFooter) ++ after) i) :
    OneBlock before body after where
  header i := by
    have hat : OccursAt encodedMetadataHeader
        (before ++ (encodedMetadataHeader ++ body ++ encodedMetadataFooter) ++ after) before.length := by
      simp only [List.append_assoc]
      exact occursAt_length
    exact ⟨fun h => hheader.unique h hat, fun h => h ▸ hat⟩
  footer i := by
    have hat : OccursAt encodedMetadataFooter
        (before ++ (encodedMetadataHeader ++ body ++ encodedMetadataFooter) ++ after)
        (before ++ encodedMetadataHeader ++ body).length := by
      have hsplit : before ++ (encodedMetadataHeader ++ body ++ encodedMetadataFooter) ++ after =
        (before ++ encodedMetadataHeader ++ body) ++ (encodedMetadataFooter ++ after) := by simp
      rw [hsplit]
      exact occursAt_length
    exact ⟨fun h => hfooter.unique h hat, fun h => h ▸ hat⟩

theorem Surroundings.encloses (h : Surroundings text before after) : EnclosesBlock before after := by
  cases h with
  | empty => exact encloses_nil
  | unmarked _ hheader hfooter => exact encloses_first hheader hfooter
  | marked hheader hfooter _ => exact (OneBlock.of_unique hheader hfooter).encloses

theorem new_unmarked (h : ¬ encodedMetadataHeader <:+: text) : Updater.new text = .ok { text } := by
  simp only [Updater.new, Updater.findMetadata, Text.indexOf_of_free header_ne_nil h, ne_eq,
    not_true_eq_false, if_false, pure_eq_ok]

theorem Updater.new_located (h : OneBlock before body after)
    (hdecode : decode (encodedMetadataHeader ++ body ++ encodedMetadataFooter) = .ok metadata) :
    ∃ u, Updater.new
        (before ++ (encodedMetadataHeader ++ body ++ encodedMetadataFooter) ++ after) = .ok u ∧
      Located u before (encodedMetadataHeader ++ body ++ encodedMetadataFooter) after ∧
      u.metadata = some metadata := by
  refine ⟨_, Updater.new_eq h hdecode, ⟨rfl, rfl, ?_, rfl⟩, rfl⟩
  simp only [List.length_append]
  omega

/-- The updater over a text is ready for its first block. -/
theorem Surroundings.new (h : Surroundings text before after) :
    ∃ u, Updater.new text = .ok u ∧ u.text = text ∧
      ∀ metadata, Located (u.setMetadata metadata) before (encode metadata) after := by
  cases h with
  | empty =>
    refine ⟨_, new_unmarked (by decide), rfl, fun metadata => ⟨?_, rfl, ?_, rfl⟩⟩
    · exact (List.append_nil _).symm
    · simp [Updater.setMetadata]
  | unmarked hne hheader hfooter =>
    refine ⟨_, new_unmarked hheader, rfl, fun metadata => ?_⟩
    have hpos := List.length_pos_iff.mpr hne
    have hseparator : (Logion.text "\n\n").length = 2 := by decide
    rw [Updater.setMetadata, if_pos hpos]
    refine ⟨rfl, ?_, ?_, rfl⟩
    · simp only [List.length_append, hseparator]
      omega
    · simp only [List.length_append, hseparator]
      omega
  | marked hheader hfooter hdecode =>
    obtain ⟨metadata, hdecode⟩ := hdecode
    obtain ⟨u, hu, hlocated, -⟩ :=
      Updater.new_located (OneBlock.of_unique hheader hfooter) hdecode
    exact ⟨u, hu, hlocated.text, fun _ => hlocated.setMetadata⟩

theorem Updater.new_encode (h : EnclosesBlock before after) (hm : Encodable metadata) :
    ∃ u, Updater.new (before ++ encode metadata ++ after) = .ok u ∧
      Located u before (encode metadata) after ∧ u.metadata = some metadata := by
  have hdecode := decode_encode hm
  rw [encode_eq_block] at hdecode ⊢
  exact Updater.new_located (h.oneBlock hm) hdecode

/-- The next call writes its block in the surroundings, with this updater or with a new one. -/
structure Ready (u : Updater) (before after : Text) : Prop where
  same : ∀ metadata, Located (u.setMetadata metadata) before (encode metadata) after
  renewed : ∃ u', Updater.new u.text = .ok u' ∧
    ∀ metadata, Located (u'.setMetadata metadata) before (encode metadata) after

theorem Surroundings.ready (h : Surroundings text before after) :
    ∃ u, Updater.new text = .ok u ∧ Ready u before after := by
  obtain ⟨u, hu, rfl, hset⟩ := h.new
  exact ⟨u, hu, hset, u, hu, hset⟩

theorem Located.ready (h : Located u before (encode metadata) after)
    (hb : EnclosesBlock before after) (hm : Encodable metadata) : Ready u before after := by
  obtain ⟨u', hu', hlocated, -⟩ := Updater.new_encode hb hm
  exact ⟨fun _ => h.setMetadata, u', by rw [h.text, hu'], fun _ => hlocated.setMetadata⟩

/-- **One more call.** -/
theorem Ready.call (h : Ready u before after) (c : SetMetadata) :
    ∃ u', u.call c = .ok u' ∧ Located u' before (encode c.metadata) after ∧
      u'.metadata = some c.metadata := by
  obtain ⟨v, hv, hset⟩ : ∃ v, (if c.renewed then Updater.new u.text else pure u) = .ok v ∧
      ∀ metadata, Located (v.setMetadata metadata) before (encode metadata) after := by
    cases c.renewed with
    | true => exact h.renewed
    | false => exact ⟨u, rfl, h.same⟩
  refine ⟨v.setMetadata c.metadata, ?_, hset c.metadata, setMetadata_metadata⟩
  rw [Updater.call, hv, ok_bind, pure_eq_ok]

/-- Any number of them. -/
theorem Ready.calls (h : Ready u before after) (hb : EnclosesBlock before after)
    {calls : List SetMetadata} {last : SetMetadata}
    (hcalls : ∀ c ∈ calls ++ [last], Encodable c.metadata) :
    ∃ u', (calls ++ [last]).foldlM Updater.call u = .ok u' ∧
      Located u' before (encode last.metadata) after ∧ u'.metadata = some last.metadata := by
  induction calls generalizing u with
  | nil =>
    obtain ⟨u', hu', hlast⟩ := h.call last
    exact ⟨u', bind_eq_ok.mpr ⟨u', hu', rfl⟩, hlast⟩
  | cons c calls ih =>
    rw [List.cons_append, List.forall_mem_cons] at hcalls
    obtain ⟨u', hu', hlocated, -⟩ := h.call c
    obtain ⟨v, hv, hlast⟩ := ih (hlocated.ready hb hcalls.1) hcalls.2
    exact ⟨v, bind_eq_ok.mpr ⟨u', hu', hv⟩, hlast⟩

/-- **Any number of rewritings**: the text holds one block, the last one, in its surroundings. -/
theorem setEach_holdsBlock (h : Surroundings text before after) (calls : List SetMetadata)
    (last : SetMetadata) (hcalls : ∀ c ∈ calls ++ [last], Encodable c.metadata) :
    ∃ u, setEach text (calls ++ [last]) = .ok u ∧ u.metadata = some last.metadata ∧
      HoldsBlock before after last.metadata u.text := by
  obtain ⟨u₀, hu₀, hready⟩ := h.ready
  obtain ⟨u, hu, hlocated, hmetadata⟩ := hready.calls h.encloses hcalls
  have hlast : Encodable last.metadata := hcalls last (by simp)
  have hone := h.encloses.oneBlock hlast
  obtain ⟨found, hfound, -, hfoundMetadata⟩ := Updater.new_encode h.encloses hlast
  refine ⟨u, bind_eq_ok.mpr ⟨u₀, hu₀, hu⟩, hmetadata, hlocated.text, ?_, ?_, decode_encode hlast,
    found, ?_, hfoundMetadata⟩
  · rw [hlocated.text, encode_eq_block]
    exact ⟨_, (hone.header _).mpr rfl, fun i => (hone.header i).mp⟩
  · rw [hlocated.text, encode_eq_block]
    exact ⟨_, (hone.footer _).mpr rfl, fun i => (hone.footer i).mp⟩
  · rw [hlocated.text, hfound]

end Codec

/-! ### A description that is delivered twice -/

/-- The encodings of one date, and of one signature; a peer is known by its base58 text. -/
@[reducible] def plainEncodings : Encodings where
  PeerId := Text
  toISOString _ := text "2022-08-17T10:27:00.000Z"
  moment _ := 1660732020000
  toB58String nodeId := nodeId
  createFromB58String encoded := .ok encoded
  toHex _ := text "c6c5e8dc"
  fromHex _ := [198, 197, 232, 220]

def deliveredTo (owner : String) : @RestrictedDeliveryMetadata plainEncodings :=
  @RestrictedDeliveryMetadata.mk plainEncodings (text owner) 1660732020000
    (text "12D3KooWBmAwcd4PJNJvfV89HwE48nwkRmAgo8Vy3uQEyNNHBox2") [198, 197, 232, 220]

open RestrictedDeliveryMetadataCodec

theorem deliveredTo_encodable {owner : String} (h : Inert (text owner)) :
    @Encodable plainEncodings (deliveredTo owner) := by
  have hdate : Inert (text "2022-08-17T10:27:00.000Z") := ⟨by decide, by decide, by decide⟩
  have hnode : Inert (text "12D3KooWBmAwcd4PJNJvfV89HwE48nwkRmAgo8Vy3uQEyNNHBox2") :=
    ⟨by decide, by decide, by decide⟩
  have hsignature : Inert (text "c6c5e8dc") := ⟨by decide, by decide, by decide⟩
  exact @RestrictedDeliveryMetadataCodec.Encodable.mk plainEncodings _ h hdate hnode hsignature rfl rfl
    rfl

theorem setEach_holdsBlock_two :
    ∃ u, @setEach plainEncodings (text "Some description.")
        [@SetMetadata.mk plainEncodings false (deliveredTo "0xa6db31d1"),
          @SetMetadata.mk plainEncodings true (deliveredTo "0xfbb0e166")] = .ok u ∧
      @Updater.metadata plainEncodings u = some (deliveredTo "0xfbb0e166") ∧
      @HoldsBlock plainEncodings (text "Some description." ++ text "\n\n") (text "\n")
        (deliveredTo "0xfbb0e166") (@Updater.text plainEncodings u) := by
  refine @setEach_holdsBlock plainEncodings _ _ _
    (@Surroundings.unmarked plainEncodings _ (by decide) (by decide) (by decide))
    [@SetMetadata.mk plainEncodings false (deliveredTo "0xa6db31d1")]
    (@SetMetadata.mk plainEncodings true (deliveredTo "0xfbb0e166")) ?_
  intro c hc
  rcases List.mem_cons.mp hc with rfl | hc
  · exact deliveredTo_encodable ⟨by decide, by decide, by decide⟩
  · rw [List.mem_singleton.mp hc]
    exact deliveredTo_encodable ⟨by decide, by decide, by decide⟩

end Logion
