import Logion.Lib.BlockMode
import Logion.Lib.Fallible
import Logion.Model.Basic

/-!
# EncryptedFile — encrypted files written and read back (`EncryptedFile.ts`)

An encrypted file is a salt, an initialization vector and the AES-256-CBC stream of the clear bytes.
The writer encrypts whatever chunks it is given; the reader reads chunks of 8192 bytes and calls
`final` on the first one that does not fill its buffer.  The cipher, `scrypt` and the random header
are parameters; a file is its content.

* `readAll_eq`: what the reading loop returns: everything, unless the stream is a multiple of 8192.
* `readAll_written`: what is read back from a written file.
* `roundTrips_iff`: the lengths for which the clear bytes are read back.
-/

namespace Logion

open BlockMode Fallible

/-- `node:crypto`, as far as it is used: AES-256 in CBC mode with PKCS7 padding, and `scrypt`. -/
structure NodeCrypto where
  Key : Type
  suite : Suite 16 Key UInt8
  scrypt : String → List UInt8 → Key

/-- The random salt and initialization vector of a file (`randomFill`). -/
structure Header where
  salt : List UInt8
  iv : List UInt8
  salt_length : salt.length = 16
  iv_length : iv.length = 16

/-- `WRITE_BUFFER_SIZE` and `READ_BUFFER_SIZE`. -/
def bufferSize : ℕ := 8192

variable {C : NodeCrypto}

/-! ### The writer -/

/-- The content of the file and the cipher of an open writer. -/
structure EncryptedFileWriter (C : NodeCrypto) where
  file : List UInt8
  cipher : Cipher C.Key UInt8

namespace EncryptedFileWriter

/-- `open(fileName, password)`: the header goes to the emptied file. -/
def openFile (C : NodeCrypto) (header : Header) (password : String) : EncryptedFileWriter C where
  file := header.salt ++ header.iv
  cipher := ⟨C.scrypt password header.salt, header.iv, []⟩

def write (w : EncryptedFileWriter C) (data : List UInt8) : EncryptedFileWriter C where
  file := w.file ++ (Cipher.update C.suite w.cipher data).1
  cipher := (Cipher.update C.suite w.cipher data).2

/-- `writeFromFile`: the clear file, chunk by chunk. -/
def writeFromFile (w : EncryptedFileWriter C) (clear : List UInt8) : EncryptedFileWriter C :=
  if _h : 0 < (clear.take bufferSize).length then
    (w.write (clear.take bufferSize)).writeFromFile (clear.drop bufferSize)
  else w
termination_by clear.length
decreasing_by
  simp only [List.length_take, bufferSize, List.length_drop] at _h ⊢
  omega

/-- `close()`: the content of the closed file. -/
def close (w : EncryptedFileWriter C) : List UInt8 := w.file ++ Cipher.final C.suite w.cipher

end EncryptedFileWriter

/-- What a client of an open writer does before it closes it. -/
inductive WriteOp
  | write (data : List UInt8)
  | writeFromFile (clear : List UInt8)

/-- The clear bytes given to the writer. -/
def WriteOp.bytes : WriteOp → List UInt8
  | write data => data
  | writeFromFile clear => clear

namespace EncryptedFileWriter

def run (w : EncryptedFileWriter C) (op : WriteOp) : EncryptedFileWriter C :=
  match op with
  | .write data => w.write data
  | .writeFromFile clear => w.writeFromFile clear

/-- The file written by `open`, the given writes and `close`. -/
def written (C : NodeCrypto) (header : Header) (password : String) (ops : List WriteOp) :
    List UInt8 :=
  (ops.foldl run (openFile C header password)).close

/-- `encrypt`: the file written for a clear file. -/
def encrypt (C : NodeCrypto) (header : Header) (password : String) (clear : List UInt8) :
    List UInt8 :=
  ((openFile C header password).writeFromFile clear).close

end EncryptedFileWriter

/-! ### The reader -/

/-- The bytes of the file that are still to be read, and the decipher. -/
structure EncryptedFileReader (C : NodeCrypto) where
  rest : List UInt8
  decipher : Decipher C.Key UInt8

namespace EncryptedFileReader

/-- `open(fileName, password)`. -/
def openFile (C : NodeCrypto) (file : List UInt8) (password : String) : EncryptedFileReader C where
  rest := (file.drop 16).drop 16
  decipher := ⟨C.scrypt password (file.take 16), (file.drop 16).take 16, []⟩

/-- `decipher.final()`, which throws on a stream that was cut or on a wrong padding. -/
def final (d : Decipher C.Key UInt8) : Except Err (List UInt8) :=
  match Decipher.final C.suite d with
  | some data => .ok data
  | none => .error (.error "bad decrypt")

/-- `decipher.update` on the next bytes of the file. -/
def advance (r : EncryptedFileReader C) : List UInt8 × EncryptedFileReader C :=
  ((Decipher.update C.suite r.decipher (r.rest.take bufferSize)).1,
    { rest := r.rest.drop bufferSize
      decipher := (Decipher.update C.suite r.decipher (r.rest.take bufferSize)).2 })

/-- `read()`: one chunk. -/
def read (r : EncryptedFileReader C) : Except Err (List UInt8 × EncryptedFileReader C) :=
  let bytesRead := (r.rest.take bufferSize).length
  if bytesRead = 0 then return ([], r)
  else if bytesRead < bufferSize then do
    let last ← final r.advance.2.decipher
    return (r.advance.1 ++ last, r.advance.2)
  else return r.advance

/-- A chunk that is not empty has taken bytes of the file. -/
theorem read_rest_lt {r r' : EncryptedFileReader C} {chunk : List UInt8}
    (h : r.read = .ok (chunk, r')) (hchunk : 0 < chunk.length) : r'.rest.length < r.rest.length := by
  have hadv : r.advance.2.rest.length = r.rest.length - bufferSize := List.length_drop
  simp only [read, List.length_take] at h
  split_ifs at h with h0 h1
  · obtain ⟨rfl, -⟩ := Prod.mk.inj (Except.ok.inj h)
    simp at hchunk
  · obtain ⟨last, -, h⟩ := bind_eq_ok.mp h
    obtain ⟨-, rfl⟩ := Prod.mk.inj (Except.ok.inj h)
    rw [hadv]
    simp only [bufferSize] at *
    omega
  · have hr' : r.advance.2 = r' := congrArg Prod.snd (Except.ok.inj h)
    rw [← hr', hadv]
    simp only [bufferSize] at *
    omega

/-- The loop of `readAll` and `readToFile`: the chunks up to the first empty one. -/
def readLoop (r : EncryptedFileReader C) : Except Err (List (List UInt8)) :=
  match _h : r.read with
  | .error e => .error e
  | .ok (chunk, r') =>
    if _hchunk : 0 < chunk.length then do
      let chunks ← r'.readLoop
      return chunk :: chunks
    else .ok []
termination_by r.rest.length
decreasing_by exact read_rest_lt _h _hchunk

/-- `readAll()`: the chunks concatenated. -/
def readAll (r : EncryptedFileReader C) : Except Err (List UInt8) := do
  return (← r.readLoop).flatten

/-- `readToFile(clearFile)`: the chunks appended to the emptied file one by one. -/
def readToFile (r : EncryptedFileReader C) : Except Err (List UInt8) := do
  return (← r.readLoop).foldl (fun clear chunk => clear ++ chunk) []

/-- `decrypt`: the content of the clear file. -/
def decrypt (C : NodeCrypto) (file : List UInt8) (password : String) : Except Err (List UInt8) :=
  (openFile C file password).readToFile

end EncryptedFileReader

namespace EncryptedFileReader

/-! ### The reading loop -/

variable {r : EncryptedFileReader C}

theorem readLoop_empty (h : r.rest = []) : r.readLoop = .ok [] := by
  have hread : r.read = .ok ([], r) := by simp [read, h]
  rw [readLoop]
  split
  · rename_i e he
    rw [hread] at he
    cases he
  · rename_i chunk r' hr
    rw [hread] at hr
    obtain ⟨rfl, rfl⟩ := Prod.mk.inj (Except.ok.inj hr)
    simp

theorem readLoop_of_read {r' : EncryptedFileReader C} {chunk : List UInt8}
    (h : r.read = .ok (chunk, r')) :
    r.readLoop = if 0 < chunk.length then do
      let chunks ← r'.readLoop
      return chunk :: chunks
    else .ok [] := by
  rw [readLoop]
  split
  · rename_i e he
    rw [h] at he
    cases he
  · rename_i chunk₀ r₀ hr
    rw [h] at hr
    obtain ⟨rfl, rfl⟩ := Prod.mk.inj (Except.ok.inj hr)
    simp

theorem readLoop_of_error {e : Err} (h : r.read = .error e) : r.readLoop = .error e := by
  rw [readLoop]
  split
  · rename_i e' he
    rw [h] at he
    cases he
    rfl
  · rename_i chunk₀ r₀ hr
    rw [h] at hr
    cases hr

/-- One round of the loop: what is read is a chunk and the rest, or the chunk is empty. -/
theorem readAll_ok {bytes : List UInt8} (h : r.readAll = .ok bytes) :
    ∃ chunk r', r.read = .ok (chunk, r') ∧
      ((0 < chunk.length ∧ ∃ rest, r'.readAll = .ok rest ∧ bytes = chunk ++ rest) ∨
        (chunk = [] ∧ bytes = [])) := by
  obtain ⟨chunks, hchunks, hbytes⟩ := bind_eq_ok.mp h
  obtain rfl : chunks.flatten = bytes := Except.ok.inj hbytes
  cases hread : r.read with
  | error e =>
    rw [readLoop_of_error hread] at hchunks
    cases hchunks
  | ok p =>
    obtain ⟨chunk, r'⟩ := p
    refine ⟨chunk, r', rfl, ?_⟩
    rw [readLoop_of_read hread] at hchunks
    split_ifs at hchunks with hpos
    · obtain ⟨chunks', hloop, he⟩ := bind_eq_ok.mp hchunks
      obtain rfl := Except.ok.inj he
      refine .inl ⟨hpos, chunks'.flatten, ?_, rfl⟩
      rw [readAll, hloop]
      rfl
    · obtain rfl := Except.ok.inj hchunks
      exact .inr ⟨List.eq_nil_of_length_eq_zero (Nat.eq_zero_of_not_pos hpos), rfl⟩

/-- The two readers return the same bytes. -/
theorem readToFile_eq_readAll : r.readToFile = r.readAll := by
  have hfold : ∀ (chunks : List (List UInt8)) (clear : List UInt8),
      chunks.foldl (fun clear chunk => clear ++ chunk) clear = clear ++ chunks.flatten := by
    intro chunks
    induction chunks with
    | nil => simp
    | cons chunk chunks ih => simp [ih]
  unfold readToFile readAll
  simp only [hfold, List.nil_append]

theorem readAll_empty (h : r.rest = []) : r.readAll = .ok [] := by
  rw [readAll, readLoop_empty h]
  rfl

/-- A chunk that does not fill the buffer is the last one. -/
theorem readAll_last (h0 : 0 < r.rest.length) (h : r.rest.length < bufferSize) :
    r.readAll = do
      let last ← final (Decipher.update C.suite r.decipher r.rest).2
      return (Decipher.update C.suite r.decipher r.rest).1 ++ last := by
  have htake : r.rest.take bufferSize = r.rest := List.take_of_length_le (by omega)
  have hdrop : r.advance.2.rest = [] := List.drop_of_length_le (by omega)
  have hread : r.read = do
      let last ← final (Decipher.update C.suite r.decipher r.rest).2
      return ((Decipher.update C.suite r.decipher r.rest).1 ++ last, r.advance.2) := by
    simp only [read, advance, htake]
    rw [if_neg (by omega), if_pos h]
  cases hfin : final (Decipher.update C.suite r.decipher r.rest).2 with
  | error e =>
    rw [hfin] at hread
    rw [readAll, readLoop_of_error hread]
    rfl
  | ok last =>
    rw [hfin] at hread
    rw [readAll, readLoop_of_read hread, readLoop_empty hdrop]
    split_ifs with hc
    · simp
    · simp [List.eq_nil_of_length_eq_zero (Nat.eq_zero_of_not_pos hc)]

/-- A full buffer deciphers to a chunk that is not empty, and the loop goes on. -/
theorem readAll_full (hwf : r.decipher.Wf 16) (h : bufferSize ≤ r.rest.length) :
    r.readAll = do
      let bytes ← r.advance.2.readAll
      return r.advance.1 ++ bytes := by
  have hlen : (r.rest.take bufferSize).length = bufferSize := List.length_take_of_le h
  have hread : r.read = .ok (r.advance.1, r.advance.2) := by
    simp only [read, hlen]
    rw [if_neg (by decide), if_neg (Nat.lt_irrefl _)]
    rfl
  obtain ⟨hwf', hout⟩ := Decipher.update_length (S := C.suite) hwf (r.rest.take bufferSize)
  have hpend := hwf'.pending
  have hchunk : 0 < r.advance.1.length := by
    rw [hlen] at hout
    simp only [advance, bufferSize] at *
    omega
  rw [readAll, readLoop_of_read hread, if_pos hchunk, readAll]
  cases r.advance.2.readLoop with
  | error e => rfl
  | ok chunks => simp

/-- **The reading loop.**  It returns what the whole rest of the file deciphers to, but calls `final`
only when the last chunk does not fill the buffer. -/
theorem readAll_eq (hwf : r.decipher.Wf 16) :
    r.readAll =
      if r.rest.length % bufferSize = 0 then .ok (Decipher.update C.suite r.decipher r.rest).1
      else do
        let last ← final (Decipher.update C.suite r.decipher r.rest).2
        return (Decipher.update C.suite r.decipher r.rest).1 ++ last := by
  induction hn : r.rest.length using Nat.strongRecOn generalizing r with
  | ind m ih =>
    rcases Nat.eq_zero_or_pos m with rfl | hm
    · have hrest : r.rest = [] := List.length_eq_zero_iff.mp hn
      rw [readAll_empty hrest, hrest]
      rfl
    · by_cases hfull : m < bufferSize
      · rw [readAll_last (hn ▸ hm) (hn ▸ hfull), if_neg (by rw [Nat.mod_eq_of_lt hfull]; omega)]
      · have hpos : 0 < bufferSize := by decide
        have hrest : r.advance.2.rest.length = m - bufferSize := hn ▸ List.length_drop
        have hwf' : r.advance.2.decipher.Wf 16 :=
          (Decipher.update_length (S := C.suite) hwf (r.rest.take bufferSize)).1
        have hsplit : Decipher.update C.suite r.decipher r.rest =
            (r.advance.1 ++ (Decipher.update C.suite r.advance.2.decipher r.advance.2.rest).1,
              (Decipher.update C.suite r.advance.2.decipher r.advance.2.rest).2) := by
          conv_lhs => rw [← List.take_append_drop bufferSize r.rest]
          exact Decipher.update_append _ _ _
        have hmod : m % bufferSize = (m - bufferSize) % bufferSize :=
          Nat.mod_eq_sub_mod (by omega)
        rw [readAll_full hwf (by omega), ih (m - bufferSize) (by omega) hwf' hrest, hsplit, hmod]
        split_ifs
        · rfl
        · cases final (Decipher.update C.suite r.advance.2.decipher r.advance.2.rest).2 with
          | error e => rfl
          | ok last => simp

end EncryptedFileReader

/-! ### A file written and read back -/

namespace EncryptedFileWriter

variable (w : EncryptedFileWriter C)

theorem write_nil : w.write [] = w := by
  simp [write, Cipher.update]

theorem write_write (xs ys : List UInt8) : (w.write xs).write ys = w.write (xs ++ ys) := by
  simp only [write, Cipher.update_append, List.append_assoc]

/-- Writing a file chunk by chunk is writing it at once. -/
theorem writeFromFile_eq (clear : List UInt8) : w.writeFromFile clear = w.write clear := by
  induction hn : clear.length using Nat.strongRecOn generalizing w clear with
  | ind n ih =>
    have hpos : 0 < bufferSize := by decide
    rw [writeFromFile]
    by_cases hc : 0 < (clear.take bufferSize).length
    · have hlen : (clear.drop bufferSize).length = n - bufferSize := hn ▸ List.length_drop
      have hn0 : 0 < n := by
        rw [List.length_take] at hc
        omega
      rw [dif_pos hc, ih (n - bufferSize) (by omega) _ _ hlen, write_write,
        List.take_append_drop]
    · have hnil : clear = [] := by
        rw [List.length_take] at hc
        exact List.eq_nil_of_length_eq_zero (by omega)
      rw [dif_neg hc, hnil, write_nil]

theorem encrypt_eq_close (header : Header) (password : String) (clear : List UInt8) :
    encrypt C header password clear = ((openFile C header password).write clear).close := by
  rw [encrypt, writeFromFile_eq]

/-- However the bytes are given to the writer, they are written as one stream. -/
theorem foldl_run (ops : List WriteOp) :
    ops.foldl run w = w.write (ops.flatMap WriteOp.bytes) := by
  induction ops generalizing w with
  | nil => exact (write_nil w).symm
  | cons op ops ih =>
    have hop : w.run op = w.write op.bytes := by
      cases op with
      | write data => rfl
      | writeFromFile clear => exact writeFromFile_eq w clear
    rw [List.foldl_cons, ih, hop, write_write, List.flatMap_cons]

theorem written_eq (header : Header) (password : String) (ops : List WriteOp) :
    written C header password ops = header.salt ++ header.iv ++
      encryptAll C.suite (C.scrypt password header.salt) header.iv (ops.flatMap WriteOp.bytes) := by
  unfold written
  rw [foldl_run]
  simp only [close, write, openFile, encryptAll, List.append_assoc]

end EncryptedFileWriter

open EncryptedFileReader EncryptedFileWriter

/-- Opening a written file: the header is read back and the whole stream is left. -/
theorem openFile_written (header : Header) (password : String) (body : List UInt8) :
    EncryptedFileReader.openFile C (header.salt ++ header.iv ++ body) password =
      ⟨body, ⟨C.scrypt password header.salt, header.iv, []⟩⟩ := by
  have htake : (header.salt ++ header.iv ++ body).take 16 = header.salt := by
    rw [List.append_assoc, ← header.salt_length, List.take_left]
  have hdrop : (header.salt ++ header.iv ++ body).drop 16 = header.iv ++ body := by
    rw [List.append_assoc, ← header.salt_length, List.drop_left]
  have htake' : (header.iv ++ body).take 16 = header.iv := by
    rw [← header.iv_length, List.take_left]
  have hdrop' : (header.iv ++ body).drop 16 = body := by
    rw [← header.iv_length, List.drop_left]
  simp only [EncryptedFileReader.openFile, htake, hdrop, htake', hdrop']

/-- **What is read back.**  The reader never fails; it loses the bytes of an incomplete last block
when the stream is a multiple of its buffer. -/
theorem readAll_written (header : Header) (password : String) (ops : List WriteOp) :
    (EncryptedFileReader.openFile C (written C header password ops) password).readAll =
      .ok (if (ops.flatMap WriteOp.bytes).length % bufferSize ≤ 8176 then
        ops.flatMap WriteOp.bytes
      else (ops.flatMap WriteOp.bytes).take (16 * ((ops.flatMap WriteOp.bytes).length / 16))) := by
  set data := ops.flatMap WriteOp.bytes with hdata
  set key := C.scrypt password header.salt with hkey
  have hwf : (⟨key, header.iv, []⟩ : Decipher C.Key UInt8).Wf 16 :=
    ⟨header.iv_length, Nat.zero_le _⟩
  obtain ⟨d, hupd, hfin⟩ := stream_roundtrip (S := C.suite) (k := key) header.iv_length data
  have hlen := encryptAll_length (S := C.suite) (k := key) header.iv_length data
  rw [written_eq, openFile_written, readAll_eq hwf]
  simp only [hlen, hupd, ← hdata, ← hkey]
  by_cases hmult : (16 * (data.length / 16) + 16) % bufferSize = 0
  · rw [if_pos hmult]
    congr 1
    split_ifs with hgood
    · -- the last block held padding only
      refine List.take_of_length_le ?_
      simp only [bufferSize] at *
      omega
    · rfl
  · rw [if_neg hmult, if_pos (by simp only [bufferSize] at *; omega)]
    simp only [EncryptedFileReader.final, hfin]
    change Except.ok _ = _
    rw [List.take_append_drop]

/-- The clear bytes are read back by each of the three ways of reading the file. -/
def RoundTrips (C : NodeCrypto) (header : Header) (password : String) (ops : List WriteOp) : Prop :=
  let file := written C header password ops
  let clear := ops.flatMap WriteOp.bytes
  (EncryptedFileReader.openFile C file password).readAll = .ok clear ∧
    (EncryptedFileReader.openFile C file password).readToFile = .ok clear ∧
    decrypt C file password = .ok clear

/-- **The round trip.**  The clear bytes are read back exactly when their number is not one of the
fifteen last ones modulo the buffer size. -/
theorem roundTrips_iff (C : NodeCrypto) (header : Header) (password : String) (ops : List WriteOp) :
    RoundTrips C header password ops ↔
      (ops.flatMap WriteOp.bytes).length % bufferSize ≤ 8176 := by
  unfold RoundTrips decrypt
  simp only [readToFile_eq_readAll, and_self, readAll_written]
  split_ifs with hgood
  · exact iff_of_true rfl hgood
  · refine iff_of_false (fun h => ?_) hgood
    have hlen := congrArg List.length (Except.ok.inj h)
    rw [List.length_take] at hlen
    simp only [bufferSize] at *
    omega

/-- `encrypt` is one of these ways of writing. -/
theorem encrypt_eq_written (header : Header) (password : String) (clear : List UInt8) :
    encrypt C header password clear = written C header password [.writeFromFile clear] := rfl

theorem decrypt_encrypt {header : Header} {password : String} {clear : List UInt8}
    (h : clear.length % bufferSize ≤ 8176) :
    decrypt C (encrypt C header password clear) password = .ok clear := by
  rw [decrypt, readToFile_eq_readAll, encrypt_eq_written, readAll_written]
  simp only [List.flatMap_singleton, WriteOp.bytes, if_pos h]

theorem encrypt_length (header : Header) (password : String) (clear : List UInt8) :
    (encrypt C header password clear).length = 32 + (16 * (clear.length / 16) + 16) := by
  have hstream := encryptAll_length (S := C.suite) (k := C.scrypt password header.salt)
    header.iv_length clear
  rw [encrypt_eq_written, written_eq]
  simp only [List.flatMap_singleton, WriteOp.bytes, List.length_append, header.salt_length,
    header.iv_length, hstream]

theorem header_le_encrypt (header : Header) (password : String) (clear : List UInt8) :
    32 ≤ (encrypt C header password clear).length := by
  rw [encrypt_length]
  omega

theorem xor_xor (a b : UInt8) : a ^^^ b ^^^ b = a := by
  rw [UInt8.xor_assoc, UInt8.xor_self, UInt8.xor_zero]

/-- A concrete instance: blocks are mixed with one byte of key. -/
def xorCrypto : NodeCrypto where
  Key := UInt8
  suite := {
    enc := fun key block => block.map fun b => b ^^^ key
    dec := fun key block => block.map fun b => b ^^^ key
    mix := fun a b => a ^^^ b
    padSymbol := UInt8.ofNat
    padCount := UInt8.toNat
    pos := by decide
    enc_length := fun _ _ h => by rw [List.length_map, h]
    dec_enc := fun key block _ => by
      simp only [List.map_map, Function.comp_def, xor_xor, List.map_id']
    dec_length := fun _ _ h => by rw [List.length_map, h]
    mix_mix := xor_xor
    padCount_padSymbol := fun m _ h => by
      rw [UInt8.toNat_ofNat']
      omega }
  scrypt := fun password salt => UInt8.ofNat (password.length + salt.length)

def zeroHeader : Header where
  salt := List.replicate 16 0
  iv := List.replicate 16 0
  salt_length := List.length_replicate
  iv_length := List.length_replicate

/-- A file of 8191 bytes: its stream fills the buffer exactly and the last 15 bytes are lost. -/
theorem not_roundTrips_8191 :
    ¬ RoundTrips xorCrypto zeroHeader "secret" [.write (List.replicate 8191 0)] := by
  have hn : (List.replicate 8191 (0 : UInt8)).length = 8191 := List.length_replicate
  generalize List.replicate 8191 (0 : UInt8) = data at hn ⊢
  intro h
  have hread := h.1
  rw [readAll_written] at hread
  have hlen := congrArg List.length (Except.ok.inj hread)
  simp [WriteOp.bytes, bufferSize, hn] at hlen

end Logion
