import Logion.Crypto.FileStorage

/-!
# IpfsDownload — the loops of `downloadFromIpfs` (`FileManager.ts`)

`cat` yields a window of the content in chunks, which are written one by one; the loop over the
windows ends at the first one that is short.

* `exec_writeChunks`: however a window is split, the whole of it is appended.
* `exec_downloadLoop`: what the file holds after a number of rounds, and whether they were enough.
* `exec_downloadFromIpfs`: one round more than there are full windows downloads the content.
-/

namespace Logion

open Effect

/-- `ipfs.cat(cid, { offset, length })`: the chunks that it yields. -/
structure IpfsClient where
  cat : String → ℕ → ℕ → List (List UInt8)

/-- The chunks are, together, the bytes of the window; there are none past the end. -/
def IpfsClient.Serves (ipfs : IpfsClient) (cid : String) (content : List UInt8) : Prop :=
  ∀ offset length, (ipfs.cat cid offset length).flatten = (content.drop offset).take length

variable {C : NodeCrypto} {I : Ipfs} {ι : Type}

/-- The `for await` loop over the chunks, with `bufferLength`. -/
def writeChunks (file : String) : List (List UInt8) → ℕ → Segment C ι ℕ
  | [], bufferLength => return bufferLength
  | chunk :: chunks, bufferLength => do
    appendTo file chunk
    writeChunks file chunks (bufferLength + chunk.length)

/-- The `while` loop from `offset` on, at most `fuel` times round; whether it has ended. -/
def downloadLoop (ipfs : IpfsClient) (cid file : String) : ℕ → ℕ → Segment C ι Bool
  | 0, _ => return false
  | fuel + 1, offset => do
    let bufferLength ← writeChunks file (ipfs.cat cid offset maxDownloadBufferSize) 0
    if bufferLength < maxDownloadBufferSize then return true
    else downloadLoop ipfs cid file fuel (offset + maxDownloadBufferSize)

def downloadFromIpfs (ipfs : IpfsClient) (cid file : String) (fuel : ℕ) : Segment C ι Bool := do
  createFile file
  downloadLoop ipfs cid file fuel 0

variable {ipfs : IpfsClient} {cid file : String} {content : List UInt8}

/-! ### One window -/

/-- The world in which a file holds the content. -/
def World.holding (w : World C ι) (file : String) (content : List UInt8) : World C ι :=
  { w with files := Function.update w.files file (some content) }

theorem holding_files (w : World C ι) : (w.holding file content).files file = some content :=
  Function.update_self _ _ _

theorem holding_holding (w : World C ι) (first : List UInt8) :
    (w.holding file first).holding file content = w.holding file content := by
  simp [World.holding]

/-- **The chunks of a window**: each is appended, and their lengths are counted. -/
theorem exec_writeChunks (file : String) (chunks : List (List UInt8)) (bufferLength : ℕ) (w : World C ι)
    (written : List UInt8) :
    exec (writeChunks file chunks bufferLength) (w.holding file written) =
      (.ok (bufferLength + chunks.flatten.length),
        w.holding file (written ++ chunks.flatten)) := by
  induction chunks generalizing bufferLength written with
  | nil => simp [writeChunks]
  | cons chunk chunks ih =>
    have happend : exec (appendTo file chunk : Segment C ι Unit) (w.holding file written) =
        (.ok (), w.holding file (written ++ chunk)) := by
      rw [exec_appendTo, holding_files, Option.getD_some]
      exact congrArg _ (holding_holding w written)
    rw [writeChunks, exec_bind_ok happend, ih, List.flatten_cons, List.length_append,
      List.append_assoc, Nat.add_assoc]

/-- A window after the first ones. -/
theorem take_append_window (content : List UInt8) (offset length : ℕ) :
    content.take offset ++ (content.drop offset).take length = content.take (offset + length) :=
  List.take_add.symm

theorem length_window (content : List UInt8) (offset length : ℕ) :
    ((content.drop offset).take length).length = min length (content.length - offset) := by
  rw [List.length_take, List.length_drop]

/-! ### The loop -/

/-- A round that is not the last one leaves one full window less. -/
theorem windows_succ {length offset fuel : ℕ} (h : maxDownloadBufferSize ≤ length - offset) :
    (length - (offset + maxDownloadBufferSize)) / maxDownloadBufferSize < fuel ↔
      (length - offset) / maxDownloadBufferSize < fuel + 1 := by
  have hpos : 0 < maxDownloadBufferSize := by decide
  rw [← Nat.sub_sub, Nat.div_eq_sub_div hpos h]
  omega

/-- **The loop**, by induction on the number of rounds: each appends its window, and they are enough
when there are more of them than full windows left. -/
theorem exec_downloadLoop (hserves : ipfs.Serves cid content) (file : String) (fuel offset : ℕ)
    (w : World C ι) :
    exec (downloadLoop ipfs cid file fuel offset) (w.holding file (content.take offset)) =
      (.ok (decide ((content.length - offset) / maxDownloadBufferSize < fuel)),
        w.holding file (content.take (offset + fuel * maxDownloadBufferSize))) := by
  induction fuel generalizing offset with
  | zero => simp [downloadLoop]
  | succ fuel ih =>
    have hwindow := exec_writeChunks file (ipfs.cat cid offset maxDownloadBufferSize) 0 w
      (content.take offset)
    rw [hserves offset maxDownloadBufferSize, take_append_window, length_window,
      Nat.zero_add] at hwindow
    rw [downloadLoop, exec_bind_ok hwindow]
    by_cases hshort : min maxDownloadBufferSize (content.length - offset) < maxDownloadBufferSize
    · -- A short window is the end of the content.
      have hleft : content.length - offset < maxDownloadBufferSize := by omega
      have hend : content.take (offset + maxDownloadBufferSize) =
          content.take (offset + (fuel + 1) * maxDownloadBufferSize) := by
        rw [List.take_of_length_le (by omega), List.take_of_length_le]
        rw [Nat.succ_mul]
        omega
      rw [if_pos hshort, exec_pure, hend, Nat.div_eq_of_lt hleft]
      simp
    · have hfull : maxDownloadBufferSize ≤ content.length - offset := by omega
      rw [if_neg hshort, ih (offset + maxDownloadBufferSize), decide_eq_decide.mpr (windows_succ hfull),
        Nat.succ_mul, Nat.add_assoc, Nat.add_comm maxDownloadBufferSize]

/-- **The download is complete and terminates**: as soon as there are more rounds than full windows, it
has ended and the file holds the content, whatever it held before. -/
theorem exec_downloadFromIpfs (hserves : ipfs.Serves cid content) {fuel : ℕ}
    (hfuel : content.length / maxDownloadBufferSize < fuel) (file : String) (w : World C ι) :
    exec (downloadFromIpfs ipfs cid file fuel) w = (.ok true, w.holding file content) := by
  have hpos : 0 < maxDownloadBufferSize := by decide
  have hcreate : exec (createFile file : Segment C ι Unit) w = (.ok (), w.holding file []) := rfl
  have hloop := exec_downloadLoop hserves file fuel 0 w
  have hall : content.length ≤ 0 + fuel * maxDownloadBufferSize := by
    have hlt := (Nat.div_lt_iff_lt_mul hpos).mp hfuel
    omega
  rw [List.take_of_length_le hall, Nat.sub_zero, decide_eq_true hfuel] at hloop
  rw [downloadFromIpfs, exec_bind_ok hcreate]
  exact hloop

/-- A client that yields a window byte by byte. -/
def bytewise (content : List UInt8) : IpfsClient where
  cat _ offset length := ((content.drop offset).take length).map fun byte => [byte]

/-- The service before the first call, with an older file. -/
def beforeDownload : World xorCrypto Unit where
  files path := if path = "a.enc" then some [1] else none
  stored := []
  largeObjects _ := none
  handles _ := none
  ciphers _ := none
  deciphers _ := none
  writer := ⟨none, none⟩
  reader := ⟨none, none, ⟨List.replicate bufferSize 1, List.length_replicate⟩⟩

/-- A content of exactly one window: the second round gets nothing. -/
theorem exec_downloadFromIpfs_oneWindow :
    exec (downloadFromIpfs (bytewise (List.replicate maxDownloadBufferSize 7)) "cid" "a.enc" 2)
        beforeDownload =
      (.ok true, beforeDownload.holding "a.enc" (List.replicate maxDownloadBufferSize 7)) := by
  refine exec_downloadFromIpfs (fun offset length => ?_) ?_ "a.enc" beforeDownload
  · rw [bytewise, ← List.flatMap_def, List.flatMap_singleton']
  · rw [List.length_replicate, Nat.div_self (by decide)]
    exact Nat.one_lt_two

end Logion
