import Logion.Crypto.StorageFrames

/-!
# ConcurrentExport — an export among other calls

What an export relies on, point by point, and what its next segment does.  A segment that finds its
own handle and decipher in the fields of the reader goes on as if the export were alone.

* `DownloadInv`, `download_step`: the segments of `downloadFromIpfs`.
* `DecryptingInv`, `decrypt_step`: the segments of `EncryptedFileReader.decrypt`.
* `ExportInv`, `export_step`: the segments of `exportFile`; each lowers `exportRank`, once IPFS has
  the content.
-/

namespace Logion

open BlockMode Effect Fallible

variable {C : NodeCrypto} {I : Ipfs} {ι : Type} {call : FileCall I} {t : ι}
  {w w' : World C ι}

/-! ### The download -/

section

variable (call : FileCall I) (content : List UInt8)

/-- What the call relies on while it downloads. -/
def DownloadInv (point : DownloadPoint) (w : World C ι) : Prop :=
  match point with
  | .opening => w.files call.encryptedFile = some []
  | .fetching offset bufferLength =>
    bufferLength = min maxDownloadBufferSize (content.length - offset) ∧
      w.files call.encryptedFile = some (content.take (offset + bufferLength))
  | .closing => w.files call.encryptedFile = some content

/-- The number of steps that the download still takes at most. -/
def downloadRank (length : ℕ) : DownloadPoint → ℕ
  | .opening => length + 3
  | .fetching offset _ => length - offset + 2
  | .closing => 1

end

variable {content : List UInt8}

theorem cat_eq {found : List UInt8} (h : w.cat (I.cid content) = some found) :
    found = content := by
  have hcid := List.find?_some h
  exact I.cid_injective (of_decide_eq_true hcid)

theorem cat_of_mem (h : content ∈ w.stored) : w.cat (I.cid content) = some content := by
  cases hc : w.cat (I.cid content) with
  | none =>
    have hnot := List.find?_eq_none.mp hc content h
    simp at hnot
  | some found => rw [cat_eq hc]

/-- A chunk is fetched, or IPFS does not answer yet. -/
theorem fetch_cases {encryptedFile : String} {offset : ℕ} (waiting : DownloadPoint)
    (hfile : w.files encryptedFile = some (content.take offset)) :
    (content ∉ w.stored ∧
      exec (fetch encryptedFile (I.cid content) offset waiting) w = (.ok waiting, w)) ∨
    (exec (fetch encryptedFile (I.cid content) offset waiting) w =
      (.ok (.fetching offset (min maxDownloadBufferSize (content.length - offset))),
        { w with
          files := Function.update w.files encryptedFile
            (some (content.take
              (offset + min maxDownloadBufferSize (content.length - offset)))) })) := by
  cases hc : w.cat (I.cid content) with
  | none =>
    left
    refine ⟨fun hmem => ?_, ?_⟩
    · rw [cat_of_mem hmem] at hc
      cases hc
    · simp only [fetch, exec_bind, exec_get, hc, exec_pure]
  | some found =>
    right
    obtain rfl := cat_eq hc
    have htake : found.take (offset + min maxDownloadBufferSize (found.length - offset)) =
        found.take offset ++ (found.drop offset).take maxDownloadBufferSize := by
      rw [List.take_add, ← List.length_drop, List.take_eq_take_min (i := maxDownloadBufferSize)]
    simp only [fetch, exec_bind, exec_get, hc, exec_appendTo, exec_pure, hfile, Option.getD_some,
      htake, List.length_take, List.length_drop]

theorem DownloadInv.sameView {point : DownloadPoint} (h : DownloadInv call content point w)
    (hv : SameView call t w w') : DownloadInv call content point w' := by
  cases point with
  | opening => exact hv.encryptedFile.trans h
  | fetching offset bufferLength => exact ⟨h.1, hv.encryptedFile.trans h.2⟩
  | closing => exact hv.encryptedFile.trans h

/-- One segment of `downloadFromIpfs`. -/
theorem download_step {point : DownloadPoint} (h : DownloadInv call content point w) :
    (∃ point' w', exec (resumeDownload call.encryptedFile (I.cid content) point) w =
        (.ok (some point'), w') ∧ DownloadInv call content point' w' ∧
        (content ∈ w.stored →
          downloadRank content.length point' < downloadRank content.length point)) ∨
      (exec (resumeDownload call.encryptedFile (I.cid content) point) w = (.ok none, w) ∧
        w.files call.encryptedFile = some content) := by
  cases point with
  | opening =>
    left
    have hfile : w.files call.encryptedFile = some (content.take 0) := h
    rcases fetch_cases .opening hfile with ⟨hnot, he⟩ | he
    · exact ⟨.opening, w, (exec_bind_ok he).trans rfl, h, fun hmem => absurd hmem hnot⟩
    · refine ⟨.fetching 0 _, _, (exec_bind_ok he).trans rfl, ⟨rfl, Function.update_self _ _ _⟩, ?_⟩
      intro _
      simp [downloadRank]
  | fetching offset bufferLength =>
    left
    obtain ⟨hlen, hfile⟩ := h
    by_cases hlast : bufferLength < maxDownloadBufferSize
    · have hall : content.take (offset + bufferLength) = content :=
        List.take_of_length_le (by omega)
      refine ⟨.closing, w, ?_, hall ▸ hfile, fun _ => ?_⟩
      · rw [resumeDownload, if_pos hlast]
        rfl
      · simp only [downloadRank]
        omega
    · have hnext : bufferLength = maxDownloadBufferSize := by omega
      rw [hnext] at hfile
      have hresume : resumeDownload call.encryptedFile (I.cid content)
          (.fetching offset bufferLength) = (do
            return some (← fetch call.encryptedFile (I.cid content)
              (offset + maxDownloadBufferSize) (.fetching offset bufferLength)) :
            Segment C ι (Option DownloadPoint)) := by
        rw [resumeDownload, if_neg hlast]
      rw [hresume]
      rcases fetch_cases (.fetching offset bufferLength) hfile with ⟨hnot, he⟩ | he
      · exact ⟨.fetching offset bufferLength, w, (exec_bind_ok he).trans rfl,
          ⟨hlen, hnext ▸ hfile⟩, fun hmem => absurd hmem hnot⟩
      · refine ⟨.fetching (offset + maxDownloadBufferSize) _, _, (exec_bind_ok he).trans rfl,
          ⟨rfl, Function.update_self _ _ _⟩, fun _ => ?_⟩
        have hpos : 0 < maxDownloadBufferSize := by decide
        simp only [downloadRank]
        omega
  | closing => exact .inr ⟨rfl, h⟩

/-! ### The decryption -/

section

variable (call : FileCall I) (t : ι) (content : List UInt8) (password : String) (clear : List UInt8)

/-- The clear file, the handle and the decipher are those of the reader of a call that is alone;
`left` are the bytes after the position of the handle. -/
structure Reading (r : EncryptedFileReader C) (left : List UInt8) (w : World C ι) : Prop where
  encrypted : w.files call.encryptedFile = some content
  clearFile : ∃ written rest, w.files call.path = some written ∧ r.readAll = .ok rest ∧
    written ++ rest = clear
  handle : ∃ position, w.handles t = some ⟨call.encryptedFile, position, true⟩ ∧
    content.drop position = left
  decipher : r.rest ≠ [] → w.deciphers t = some r.decipher

/-- What the call relies on while it decrypts.  What was read into the buffer is still there as long
as the field `file` is that of the call. -/
def DecryptingInv (point : DecryptPoint) (w : World C ι) : Prop :=
  match point with
  | .opening => w.files call.encryptedFile = some content ∧
      w.handles t = some ⟨call.encryptedFile, 0, true⟩
  | .readingSalt salt => w.files call.encryptedFile = some content ∧
      w.handles t = some ⟨call.encryptedFile, 16, true⟩ ∧ salt = content.take 16
  | .readingIv salt iv | .scrypt salt iv => w.files call.encryptedFile = some content ∧
      w.handles t = some ⟨call.encryptedFile, 32, true⟩ ∧ salt = content.take 16 ∧
        iv = (content.drop 16).take 16
  | .openingClear | .appending =>
    ∃ r : EncryptedFileReader C, Reading call t content clear r r.rest w
  | .reading bytesRead =>
    ∃ r : EncryptedFileReader C, Reading call t content clear r (r.rest.drop bufferSize) w ∧
      bytesRead = (r.rest.take bufferSize).length ∧
      (w.reader.file = some t →
        w.reader.buffer.bytes.take bytesRead = r.rest.take bufferSize)
  | .closingClear => w.files call.encryptedFile = some content ∧ w.files call.path = some clear ∧
      ∃ position, w.handles t = some ⟨call.encryptedFile, position, true⟩
  | .closing => w.files call.encryptedFile = some content ∧ w.files call.path = some clear
  | .removing => w.files call.path = some clear

/-- The number of bytes of the encrypted file that are still to be read. -/
def World.left (w : World C ι) (t : ι) (length : ℕ) : ℕ :=
  length - ((w.handles t).map FileHandle.position).getD 0

/-- The number of steps that `decrypt` still takes at most. -/
def decryptRank (length left : ℕ) : DecryptPoint → ℕ
  | .opening => 2 * length + 10
  | .readingSalt _ => 2 * length + 9
  | .readingIv _ _ => 2 * length + 8
  | .scrypt _ _ => 2 * length + 7
  | .openingClear | .appending => 2 * left + 5
  | .reading bytesRead => if 0 < bytesRead then 2 * left + 6 else 4
  | .closingClear => 3
  | .closing => 2
  | .removing => 1

end

variable {password : String} {clear left : List UInt8} {r r' : EncryptedFileReader C}

theorem Reading.sameView (h : Reading call t content clear r left w) (hv : SameView call t w w') :
    Reading call t content clear r left w' where
  encrypted := hv.encryptedFile.trans h.encrypted
  clearFile := by
    rw [hv.path]
    exact h.clearFile
  handle := by
    rw [hv.handle]
    exact h.handle
  decipher hr := hv.decipher.trans (h.decipher hr)

theorem DecryptingInv.sameView {point : DecryptPoint}
    (h : DecryptingInv call t content clear point w) (hv : SameView call t w w') :
    DecryptingInv call t content clear point w' := by
  have henc := hv.encryptedFile
  have hpath := hv.path
  cases point with
  | opening => exact ⟨henc.trans h.1, hv.handle.trans h.2⟩
  | readingSalt salt => exact ⟨henc.trans h.1, hv.handle.trans h.2.1, h.2.2⟩
  | readingIv salt iv => exact ⟨henc.trans h.1, hv.handle.trans h.2.1, h.2.2⟩
  | scrypt salt iv => exact ⟨henc.trans h.1, hv.handle.trans h.2.1, h.2.2⟩
  | openingClear =>
    obtain ⟨r, hr⟩ := h
    exact ⟨r, hr.sameView hv⟩
  | appending =>
    obtain ⟨r, hr⟩ := h
    exact ⟨r, hr.sameView hv⟩
  | reading bytesRead =>
    obtain ⟨r, hr, hn, hbuffer⟩ := h
    refine ⟨r, hr.sameView hv, hn, fun ht => ?_⟩
    obtain ⟨hfile, hsame⟩ := hv.buffer ht
    rw [hsame]
    exact hbuffer hfile
  | closingClear =>
    obtain ⟨he, hp, position, hh⟩ := h
    exact ⟨henc.trans he, hpath.trans hp, position, hv.handle.trans hh⟩
  | closing => exact ⟨henc.trans h.1, hpath.trans h.2⟩
  | removing => exact hpath.trans h

/-! ### The buffer -/

theorem padded_of_length {data : List UInt8} (h : data.length = 16) : padded data = data := by
  rw [padded, h]
  exact List.append_nil data

theorem drop_length_take {α : Type} (n : ℕ) (xs : List α) :
    xs.drop (xs.take n).length = xs.drop n := by
  rw [List.length_take]
  rcases Nat.le_total n xs.length with h | h
  · rw [Nat.min_eq_left h]
  · rw [Nat.min_eq_right h, List.drop_length, List.drop_of_length_le h]

theorem World.left_of_handle {handle : FileHandle} {length : ℕ} (h : w.handles t = some handle) :
    w.left t length = length - handle.position := by
  rw [World.left, h]
  rfl

theorem ReadBuffer.fill_take {b : ReadBuffer} {data : List UInt8} (h : data.length ≤ bufferSize) :
    (b.fill data).bytes.take data.length = data := by
  rw [ReadBuffer.fill, List.take_take, Nat.min_eq_left h, List.take_left]

theorem ReadBuffer.take_bufferSize (b : ReadBuffer) : b.bytes.take bufferSize = b.bytes :=
  List.take_of_length_le (Nat.le_of_eq b.length_eq)

variable [DecidableEq ι]

/-- The chunk of the reader of a call that is alone. -/
theorem exec_decipherChunk {chunk : List UInt8} {bytesRead : ℕ}
    (hread : r.read = .ok (chunk, r')) (hlen : bytesRead = (r.rest.take bufferSize).length)
    (hbuffer : 0 < bytesRead → w.reader.buffer.bytes.take bytesRead = r.rest.take bufferSize)
    (hfield : 0 < bytesRead → w.reader.decipher = some t)
    (hdecipher : r.rest ≠ [] → w.deciphers t = some r.decipher) :
    ∃ decipher, exec (decipherChunk bytesRead) w =
        (.ok chunk, { w with deciphers := Function.update w.deciphers t decipher }) ∧
      (r'.rest ≠ [] → decipher = some r'.decipher) ∧ r'.rest = r.rest.drop bufferSize := by
  have hrest : bytesRead ≠ 0 → r.rest ≠ [] := by
    rintro h0 hnil
    rw [hnil] at hlen
    exact h0 hlen
  simp only [EncryptedFileReader.read, ← hlen] at hread
  split_ifs at hread with h0 hlast
  · -- the end of the file
    obtain ⟨rfl, rfl⟩ := Prod.mk.inj (Except.ok.inj hread)
    have hnil : r.rest = [] := by
      rw [h0, List.length_take] at hlen
      refine List.eq_nil_of_length_eq_zero ?_
      simp only [bufferSize] at hlen
      omega
    refine ⟨w.deciphers t, ?_, fun h => absurd hnil h, by rw [hnil, List.drop_nil]⟩
    rw [Function.update_eq_self, h0]
    rfl
  · -- the last chunk, which finishes the decipher
    obtain ⟨last, hfinal, hread⟩ := bind_eq_ok.mp hread
    obtain ⟨rfl, rfl⟩ := Prod.mk.inj (Except.ok.inj hread)
    have hpos := Nat.pos_of_ne_zero h0
    have hnil : r.rest.drop bufferSize = [] := by
      rw [hlen, List.length_take] at hlast
      exact List.drop_of_length_le (by omega)
    have hupdate : exec (decipherUpdate (r.rest.take bufferSize)) w = _ :=
      exec_decipherUpdate (hfield hpos) (hdecipher (hrest h0))
    have hfinish : exec decipherFinal
        { w with deciphers := Function.update w.deciphers t (some r.advance.2.decipher) } = _ :=
      exec_decipherFinal (hfield hpos) (Function.update_self _ _ _)
    rw [hfinal, Function.update_idem] at hfinish
    have hboth : exec (do
        let data ← decipherUpdate (r.rest.take bufferSize)
        let last ← decipherFinal
        return data ++ last : Segment C ι (List UInt8)) w =
        (.ok (r.advance.1 ++ last), { w with deciphers := Function.update w.deciphers t none }) :=
      (exec_bind_ok hupdate).trans ((exec_bind_ok hfinish).trans rfl)
    refine ⟨none, ?_, fun h => absurd hnil h, rfl⟩
    rw [decipherChunk, exec_bind_ok (exec_get w), if_neg h0, if_pos hlast, hbuffer hpos]
    exact hboth
  · obtain ⟨rfl, rfl⟩ := Prod.mk.inj (Except.ok.inj hread)
    have hpos := Nat.pos_of_ne_zero h0
    have hfull : bytesRead = bufferSize := by
      rw [List.length_take] at hlen
      omega
    have hbytes : w.reader.buffer.bytes = r.rest.take bufferSize := by
      rw [← hbuffer hpos, hfull, ReadBuffer.take_bufferSize]
    refine ⟨_, ?_, fun _ => rfl, rfl⟩
    rw [decipherChunk, exec_bind_ok (exec_get w), if_neg h0, if_neg hlast, hbytes]
    exact exec_decipherUpdate (hfield hpos) (hdecipher (hrest h0))

/-! ### The segments of `decrypt` -/

/-- The next bytes are read into the buffer. -/
theorem Reading.readBuffer (h : Reading call t content clear r r.rest w)
    (hfile : w.reader.file = some t) :
    ∃ point w', exec readBuffer w = (.ok point, w') ∧ DecryptingInv call t content clear point w' ∧
      decryptRank content.length (w'.left t content.length) point <
        2 * w.left t content.length + 5 := by
  obtain ⟨position, hh, hleft⟩ := h.handle
  have hread : exec (readFile w.reader.file bufferSize : Segment C ι (List UInt8)) w = _ :=
    exec_readFile hfile hh h.encrypted
  rw [hleft] at hread
  refine ⟨.reading (r.rest.take bufferSize).length, _,
    (exec_bind_ok rfl).trans ((exec_bind_ok hread).trans rfl), ?_, ?_⟩
  · refine ⟨r, ⟨h.encrypted, h.clearFile, ⟨_, Function.update_self _ _ _, ?_⟩, h.decipher⟩, rfl,
      fun _ => ReadBuffer.fill_take (List.length_take_le _ _)⟩
    rw [← List.drop_drop, hleft, drop_length_take]
  · rw [World.left_of_handle (Function.update_self _ _ _), World.left_of_handle hh]
    have hlen : r.rest.length = content.length - position := by rw [← hleft, List.length_drop]
    simp only [decryptRank, List.length_take, hlen]
    split_ifs <;> omega

/-- One segment of `decrypt`: the call goes on as if it were alone. -/
theorem decrypt_step {point : DecryptPoint} (hlength : 32 ≤ content.length)
    (hdecrypt : EncryptedFileReader.decrypt C content password = .ok clear)
    (h : DecryptingInv call t content clear point w)
    (hfile : point.usesFile → w.reader.file = some t)
    (hdecipher : point.usesDecipher → w.reader.decipher = some t) :
    (∃ point' w', exec (resumeDecrypt t call.encryptedFile call.path password point) w =
        (.ok (some point'), w') ∧ DecryptingInv call t content clear point' w' ∧
        decryptRank content.length (w'.left t content.length) point' <
          decryptRank content.length (w.left t content.length) point) ∨
      (exec (resumeDecrypt t call.encryptedFile call.path password point) w = (.ok none, w) ∧
        w.files call.path = some clear) := by
  cases point with
  | opening =>
    have hread : exec (readFile (some t) 16 : Segment C ι (List UInt8))
        { w with reader.file := some t } = _ := exec_readFile rfl h.2 h.1
    have hsalt : (content.take 16).length = 16 := List.length_take_of_le (by omega)
    rw [List.drop_zero, hsalt] at hread
    refine .inl ⟨.readingSalt (padded (content.take 16)), _,
      (exec_bind_ok rfl).trans ((exec_bind_ok rfl).trans ((exec_bind_ok hread).trans rfl)),
      ⟨h.1, Function.update_self _ _ _, padded_of_length hsalt⟩, ?_⟩
    simp only [decryptRank]
    omega
  | readingSalt salt =>
    obtain ⟨henc, hh, rfl⟩ := h
    have hread : exec (readFile w.reader.file 16 : Segment C ι (List UInt8)) w = _ :=
      exec_readFile (hfile rfl) hh henc
    have hiv : ((content.drop 16).take 16).length = 16 := by
      rw [List.length_take, List.length_drop]
      omega
    rw [hiv] at hread
    refine .inl ⟨.readingIv (content.take 16) (padded ((content.drop 16).take 16)), _,
      (exec_bind_ok rfl).trans ((exec_bind_ok hread).trans rfl),
      ⟨henc, Function.update_self _ _ _, rfl, padded_of_length hiv⟩, ?_⟩
    simp only [decryptRank]
    omega
  | readingIv salt iv =>
    refine .inl ⟨.scrypt salt iv, w, rfl, h, ?_⟩
    simp only [decryptRank]
    omega
  | scrypt salt iv =>
    obtain ⟨henc, hh, rfl, rfl⟩ := h
    have hall : (EncryptedFileReader.openFile C content password).readAll = .ok clear := by
      rw [← EncryptedFileReader.readToFile_eq_readAll]
      exact hdecrypt
    refine .inl ⟨.openingClear, _, (exec_bind_ok rfl).trans ((exec_bind_ok rfl).trans rfl),
      ⟨EncryptedFileReader.openFile C content password, ?_, ⟨[], clear, ?_, hall, rfl⟩,
        ⟨32, hh, ?_⟩, fun _ => Function.update_self _ _ _⟩, ?_⟩
    · exact (Function.update_of_ne call.path_ne.symm _ _).trans henc
    · exact Function.update_self _ _ _
    · rw [EncryptedFileReader.openFile, List.drop_drop]
    · simp only [decryptRank, World.left]
      omega
  | openingClear =>
    obtain ⟨r, hr⟩ := h
    obtain ⟨point, w', he, hinv, hrank⟩ := hr.readBuffer (hfile rfl)
    exact .inl ⟨point, w', (exec_bind_ok he).trans rfl, hinv, hrank⟩
  | appending =>
    obtain ⟨r, hr⟩ := h
    obtain ⟨point, w', he, hinv, hrank⟩ := hr.readBuffer (hfile rfl)
    exact .inl ⟨point, w', (exec_bind_ok he).trans rfl, hinv, hrank⟩
  | reading bytesRead =>
    obtain ⟨r, hr, hlen, hbuffer⟩ := h
    obtain ⟨written, rest, hpath, hall, hclear⟩ := hr.clearFile
    obtain ⟨chunk, r', hread, hnext⟩ := EncryptedFileReader.readAll_ok hall
    obtain ⟨decipher, hchunk, hd, hrest⟩ := exec_decipherChunk hread hlen
      (fun hpos => hbuffer (hfile (decide_eq_true hpos)))
      (fun hpos => hdecipher (decide_eq_true hpos)) hr.decipher
    rw [resumeDecrypt, exec_bind_ok hchunk]
    rcases hnext with ⟨hpos, rest', hall', rfl⟩ | ⟨rfl, rfl⟩
    · have hbytes : 0 < bytesRead := by
        have hlt := EncryptedFileReader.read_rest_lt hread hpos
        rw [hlen, List.length_take]
        simp only [bufferSize]
        omega
      rw [if_pos hpos]
      refine .inl ⟨.appending, _, (exec_bind_ok rfl).trans rfl,
        ⟨r', ?_, ⟨written ++ chunk, rest', ?_, hall', ?_⟩, ?_, ?_⟩, ?_⟩
      · exact (Function.update_of_ne call.path_ne.symm _ _).trans hr.encrypted
      · exact (Function.update_self _ _ _).trans (by rw [hpath, Option.getD_some])
      · rw [List.append_assoc, hclear]
      · rw [hrest]
        exact hr.handle
      · exact fun hne => (Function.update_self _ _ _).trans (hd hne)
      · simp only [decryptRank, if_pos hbytes, World.left]
        omega
    · obtain ⟨position, hh, -⟩ := hr.handle
      rw [List.append_nil] at hclear
      refine .inl ⟨.closingClear, _, rfl, ⟨hr.encrypted, hclear ▸ hpath, position, hh⟩, ?_⟩
      simp only [decryptRank]
      split_ifs <;> omega
  | closingClear =>
    obtain ⟨henc, hpath, position, hh⟩ := h
    have hclose := exec_closeFile (hfile rfl) hh
    refine .inl ⟨.closing, _, (exec_bind_ok rfl).trans ((exec_bind_ok hclose).trans rfl),
      ⟨henc, hpath⟩, ?_⟩
    simp only [decryptRank]
    omega
  | closing =>
    refine .inl ⟨.removing, _, (exec_bind_ok (exec_rm h.1)).trans rfl, ?_, ?_⟩
    · exact (Function.update_of_ne call.path_ne _ _).trans h.2
    · simp only [decryptRank]
      omega
  | removing => exact .inr ⟨rfl, h⟩

/-! ### The segments of `exportFile` -/

section

variable (call : FileCall I) (t : ι) (legalOfficer : AccountId) (content : List UInt8)
  (password : String) (clear : List UInt8)

/-- What an export of a file stored in IPFS relies on. -/
def ExportInv (task : Task I) (w : World C ι) : Prop :=
  match task with
  | .called => True
  | .downloading cid legalOfficer' point =>
    cid = I.cid content ∧ legalOfficer' = legalOfficer ∧ DownloadInv call content point w
  | .decrypting password' point =>
    password' = password ∧ DecryptingInv call t content clear point w
  | .resolved _ => w.files call.path = some clear
  | _ => False

/-- The number of steps that the export still takes at most, once IPFS has the content. -/
def exportRank (length : ℕ) (task : Task I) (w : World C ι) : ℕ :=
  match task with
  | .called => 3 * length + 14
  | .downloading _ _ point => downloadRank length point + 2 * length + 10
  | .decrypting _ point => decryptRank length (w.left t length) point
  | _ => 0

/-- What an export of a large object relies on. -/
def LargeObjectInv (task : Task I) (w : World C ι) : Prop :=
  match task with
  | .called => True
  | .exportingLargeObject | .resolved _ => w.files call.path = some content
  | _ => False

def largeObjectRank : Task I → ℕ
  | .called => 2
  | .exportingLargeObject => 1
  | _ => 0

end

variable {legalOfficer : AccountId}

omit [DecidableEq ι] in
theorem ExportInv.sameView {task : Task I}
    (h : ExportInv call t legalOfficer content password clear task w) (hv : SameView call t w w') :
    ExportInv call t legalOfficer content password clear task w' := by
  cases task with
  | called => trivial
  | encrypting password' point => exact h
  | adding cid => exact h
  | removing cid => exact h
  | exportingLargeObject => exact h
  | downloading cid legalOfficer' point => exact ⟨h.1, h.2.1, h.2.2.sameView hv⟩
  | decrypting password' point => exact ⟨h.1, h.2.sameView hv⟩
  | resolved cid => exact hv.path.trans h
  | rejected e => exact h

omit [DecidableEq ι] in
theorem LargeObjectInv.sameView {task : Task I} (h : LargeObjectInv call content task w)
    (hv : SameView call t w w') : LargeObjectInv call content task w' := by
  cases task with
  | called => trivial
  | encrypting password' point => exact h
  | adding cid => exact h
  | removing cid => exact h
  | exportingLargeObject => exact hv.path.trans h
  | downloading cid legalOfficer' point => exact h
  | decrypting password' point => exact h
  | resolved cid => exact hv.path.trans h
  | rejected e => exact h

omit [DecidableEq ι] in
theorem exportRank_sameView {length : ℕ} {task : Task I} (hv : SameView call t w w') :
    exportRank t length task w' = exportRank t length task w := by
  cases task <;> simp only [exportRank, World.left, hv.handle]

theorem decryptRank_pos (length left : ℕ) (point : DecryptPoint) :
    0 < decryptRank length left point := by
  cases point with
  | reading bytesRead =>
    simp only [decryptRank]
    split_ifs <;> omega
  | _ => simp [decryptRank]

omit [DecidableEq ι] in
/-- An export that has no step left has returned. -/
theorem ExportInv.resolved_of_rank {task : Task I}
    (h : ExportInv call t legalOfficer content password clear task w)
    (hrank : exportRank t content.length task w = 0) : ∃ result, task = .resolved result := by
  cases task with
  | resolved cid => exact ⟨cid, rfl⟩
  | called => simp [exportRank] at hrank
  | downloading cid legalOfficer' point => simp [exportRank] at hrank
  | decrypting password' point =>
    have hpos := decryptRank_pos content.length (w.left t content.length) point
    simp only [exportRank] at hrank
    omega
  | encrypting password' point => exact h.elim
  | adding cid => exact h.elim
  | removing cid => exact h.elim
  | exportingLargeObject => exact h.elim
  | rejected e => exact h.elim

omit [DecidableEq ι] in
theorem LargeObjectInv.resolved_of_rank {task : Task I} (h : LargeObjectInv call content task w)
    (hrank : largeObjectRank task = 0) : ∃ result, task = .resolved result := by
  cases task with
  | resolved cid => exact ⟨cid, rfl⟩
  | called => simp [largeObjectRank] at hrank
  | exportingLargeObject => simp [largeObjectRank] at hrank
  | encrypting password' point => exact h.elim
  | adding cid => exact h.elim
  | removing cid => exact h.elim
  | downloading cid legalOfficer' point => exact h.elim
  | decrypting password' point => exact h.elim
  | rejected e => exact h.elim

theorem exec_startDecrypt (clear : List UInt8) (h : w.files call.encryptedFile = some content) :
    ∃ w', exec (startDecrypt t call.encryptedFile) w = (.ok .opening, w') ∧
      DecryptingInv call t content clear .opening w' :=
  ⟨_, (exec_bind_ok (exec_mustExist h)).trans rfl, h, Function.update_self _ _ _⟩

/-- **One segment of an export.**  It does not fail, whatever the other calls have done. -/
theorem export_step {env : Env} {headers : ι → Header} {calls : ι → FileCall I} {id : FileId I}
    {path : String} {task : Task I} (hcall : calls t = .exportFile id path legalOfficer)
    (hoid : id.oid.getD 0 = 0) (hcid : id.cid = some (I.cid content))
    (hpassword : getPassword env legalOfficer = .ok password) (hlength : 32 ≤ content.length)
    (hdecrypt : EncryptedFileReader.decrypt C content password = .ok clear)
    (h : ExportInv (calls t) t legalOfficer content password clear task w)
    (howned : OwnedAt t task w) :
    ∃ task' w', exec (resume env headers calls t task) w = (.ok task', w') ∧
      ExportInv (calls t) t legalOfficer content password clear task' w' ∧
      (content ∈ w.stored →
        exportRank t content.length task' w' ≤ exportRank t content.length task w - 1) := by
  cases task with
  | called =>
    refine ⟨.downloading (I.cid content) legalOfficer .opening,
      { w with files := Function.update w.files (calls t).encryptedFile (some []) }, ?_,
      ⟨rfl, rfl, Function.update_self _ _ _⟩, fun _ => ?_⟩
    · rw [resume, hcall, start, if_neg (not_not_intro hoid), hcid]
      rfl
    · simp only [exportRank, downloadRank]
      omega
  | downloading cid legalOfficer' point =>
    obtain ⟨rfl, rfl, h⟩ := h
    rcases download_step h with ⟨point', w', he, hinv, hrank⟩ | ⟨he, henc⟩
    · refine ⟨.downloading (I.cid content) legalOfficer' point', w', (exec_bind_ok he).trans rfl,
        ⟨rfl, rfl, hinv⟩, fun hmem => ?_⟩
      have hlt := hrank hmem
      simp only [exportRank]
      omega
    · obtain ⟨w', hstart, hinv⟩ := exec_startDecrypt (t := t) clear henc
      have hpw : exec (liftM (getPassword env legalOfficer') : Segment C ι String) w =
          (.ok password, w) := by rw [exec_lift, hpassword]
      refine ⟨.decrypting password .opening, w', (exec_bind_ok he).trans
        ((exec_bind_ok hpw).trans ((exec_bind_ok hstart).trans rfl)), ⟨rfl, hinv⟩, fun _ => ?_⟩
      cases point <;> simp only [exportRank, decryptRank, downloadRank] <;> omega
  | decrypting password' point =>
    obtain ⟨rfl, h⟩ := h
    rcases decrypt_step hlength hdecrypt h howned.1 howned.2 with
      ⟨point', w', he, hinv, hrank⟩ | ⟨he, hpath⟩
    · refine ⟨.decrypting password' point', w', (exec_bind_ok he).trans rfl, ⟨rfl, hinv⟩,
        fun _ => ?_⟩
      simp only [exportRank]
      omega
    · exact ⟨.resolved none, w, (exec_bind_ok he).trans rfl, hpath, fun _ => Nat.zero_le _⟩
  | resolved cid => exact ⟨.resolved cid, w, rfl, h, fun _ => Nat.zero_le _⟩
  | encrypting password' point => exact h.elim
  | adding cid => exact h.elim
  | removing cid => exact h.elim
  | exportingLargeObject => exact h.elim
  | rejected e => exact h.elim

/-- One segment of an export of a large object. -/
theorem largeObject_step {env : Env} {headers : ι → Header} {calls : ι → FileCall I}
    {id : FileId I} {path : String} {task : Task I}
    (hcall : calls t = .exportFile id path legalOfficer) (hoid : id.oid.getD 0 ≠ 0)
    (hcontent : w.largeObjects (id.oid.getD 0) = some content)
    (h : LargeObjectInv (calls t) content task w) :
    ∃ task' w', exec (resume env headers calls t task) w = (.ok task', w') ∧
      LargeObjectInv (calls t) content task' w' ∧
      largeObjectRank task' ≤ largeObjectRank task - 1 := by
  cases task with
  | called =>
    refine ⟨.exportingLargeObject,
      { w with files := Function.update w.files path (some content) }, ?_, ?_, Nat.le_refl _⟩
    · rw [resume, hcall, start, if_pos hoid]
      simp only [exportLargeObject, exec_bind, exec_modify, hcontent, exec_pure]
    · rw [hcall]
      exact Function.update_self _ _ _
  | exportingLargeObject => exact ⟨.resolved none, w, rfl, h, Nat.le_refl _⟩
  | resolved cid => exact ⟨.resolved cid, w, rfl, h, Nat.le_refl _⟩
  | encrypting password' point => exact h.elim
  | adding cid => exact h.elim
  | removing cid => exact h.elim
  | downloading cid legalOfficer' point => exact h.elim
  | decrypting password' point => exact h.elim
  | rejected e => exact h.elim

end Logion
