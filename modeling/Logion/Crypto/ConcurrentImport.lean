import Logion.Crypto.StorageFrames

/-!
# ConcurrentImport — an import among other calls

What an import relies on, point by point, and what its next segment does.  A segment that finds its
own handle and cipher in the fields of the writer goes on as if the import were alone.

* `EncryptingInv`, `encrypt_step`: the segments of `EncryptedFileWriter.encrypt`.
* `ImportInv`, `import_step`: the segments of `importFile`; each lowers `importRank`.
-/

namespace Logion

open BlockMode Effect

variable {C : NodeCrypto} {I : Ipfs} {ι : Type} {call : FileCall I} {t : ι}
  {w w' : World C ι}

/-! ### What the import relies on -/

section

variable (call : FileCall I) (t : ι) (header : Header) (password : String) (clear : List UInt8)

/-- The clear file is there, and the file written so far is open. -/
structure Opened (written : List UInt8) (w : World C ι) : Prop where
  source : w.files call.path = some clear
  encrypted : w.files call.encryptedFile = some written
  handle : w.handles t = some ⟨call.encryptedFile, 0, true⟩

/-- The file and the cipher are those of the writer of a call that is alone. -/
structure Writing (writer : EncryptedFileWriter C) (w : World C ι) : Prop extends
    Opened call t clear writer.file w where
  cipher : w.ciphers t = some writer.cipher

open EncryptedFileWriter in
/-- What the call relies on while it encrypts. -/
def EncryptingInv (point : EncryptPoint) (w : World C ι) : Prop :=
  match point with
  | .opening | .randomSalt | .scrypt | .randomIv => Opened call t clear [] w
  | .appendingSalt =>
    Writing call t clear ⟨header.salt, (openFile C header password).cipher⟩ w
  | .appendingIv | .openingClear => Writing call t clear (openFile C header password) w
  | .reading position data =>
    data = (clear.drop position).take bufferSize ∧
      Writing call t clear ((openFile C header password).write (clear.take position)) w
  | .appending position =>
    Writing call t clear ((openFile C header password).write (clear.take position)) w
  | .closingClear => Writing call t clear ((openFile C header password).write clear) w
  | .appendingFinal => Opened call t clear (encrypt C header password clear) w
  | .closing => w.files call.path = some clear ∧
      w.files call.encryptedFile = some (encrypt C header password clear)
  | .removingClear => w.files call.encryptedFile = some (encrypt C header password clear)

/-- The number of steps that `encrypt` still takes at most, for a clear file of some length. -/
def encryptRank (length : ℕ) : EncryptPoint → ℕ
  | .opening => 2 * length + 12
  | .randomSalt => 2 * length + 11
  | .scrypt => 2 * length + 10
  | .randomIv => 2 * length + 9
  | .appendingSalt => 2 * length + 8
  | .appendingIv => 2 * length + 7
  | .openingClear => 2 * length + 6
  | .reading position _ => 2 * (length - position) + 5
  | .appending position => 2 * (length - position) + 6
  | .closingClear => 4
  | .appendingFinal => 3
  | .closing => 2
  | .removingClear => 1

end

variable {header : Header} {password : String} {clear written data : List UInt8}

theorem Opened.sameView (h : Opened call t clear written w) (hv : SameView call t w w') :
    Opened call t clear written w' :=
  ⟨hv.path.trans h.source, hv.encryptedFile.trans h.encrypted, hv.handle.trans h.handle⟩

theorem Writing.sameView {writer : EncryptedFileWriter C} (h : Writing call t clear writer w)
    (hv : SameView call t w w') : Writing call t clear writer w' :=
  ⟨h.toOpened.sameView hv, hv.cipher.trans h.cipher⟩

theorem EncryptingInv.sameView {point : EncryptPoint}
    (h : EncryptingInv call t header password clear point w) (hv : SameView call t w w') :
    EncryptingInv call t header password clear point w' := by
  cases point with
  | opening => exact Opened.sameView h hv
  | randomSalt => exact Opened.sameView h hv
  | scrypt => exact Opened.sameView h hv
  | randomIv => exact Opened.sameView h hv
  | appendingSalt => exact Writing.sameView h hv
  | appendingIv => exact Writing.sameView h hv
  | openingClear => exact Writing.sameView h hv
  | reading position data => exact ⟨h.1, h.2.sameView hv⟩
  | appending position => exact Writing.sameView h hv
  | closingClear => exact Writing.sameView h hv
  | appendingFinal => exact Opened.sameView h hv
  | closing => exact ⟨hv.path.trans h.1, hv.encryptedFile.trans h.2⟩
  | removingClear => exact hv.encryptedFile.trans h

/-- More is appended to the encrypted file. -/
theorem Opened.append (h : Opened call t clear written w) (data : List UInt8) :
    Opened call t clear (written ++ data)
      { w with files := Function.update w.files call.encryptedFile (some (written ++ data)) } where
  source := (Function.update_of_ne call.path_ne _ _).trans h.source
  encrypted := Function.update_self _ _ _
  handle := h.handle

section

variable (call : FileCall I) (t : ι) (header : Header) (password : String) (clear : List UInt8)

theorem encryptRank_pos (length : ℕ) (point : EncryptPoint) : 0 < encryptRank length point := by
  cases point <;> simp [encryptRank]

/-- What an import relies on. -/
def ImportInv (task : Task I) (w : World C ι) : Prop :=
  let encrypted := EncryptedFileWriter.encrypt C header password clear
  match task with
  | .called => w.files call.path = some clear
  | .encrypting password' point =>
    password' = password ∧ EncryptingInv call t header password clear point w
  | .adding cid =>
    w.files call.encryptedFile = some encrypted ∧ cid = I.cid encrypted ∧ encrypted ∈ w.stored
  | .removing cid => cid = I.cid encrypted ∧ encrypted ∈ w.stored
  | .resolved cid => cid = some (I.cid encrypted) ∧ encrypted ∈ w.stored
  | _ => False

/-- The number of steps that an import still takes at most. -/
def importRank (length : ℕ) : Task I → ℕ
  | .called => 2 * length + 15
  | .encrypting _ point => encryptRank length point + 2
  | .adding _ => 2
  | .removing _ => 1
  | _ => 0

end

theorem ImportInv.sameView {task : Task I}
    (h : ImportInv call t header password clear task w) (hv : SameView call t w w') :
    ImportInv call t header password clear task w' := by
  cases task with
  | called => exact hv.path.trans h
  | encrypting password' point => exact ⟨h.1, h.2.sameView hv⟩
  | adding cid => exact ⟨hv.encryptedFile.trans h.1, h.2.1, hv.stored _ h.2.2⟩
  | removing cid => exact ⟨h.1, hv.stored _ h.2⟩
  | resolved cid => exact ⟨h.1, hv.stored _ h.2⟩
  | exportingLargeObject => exact h
  | downloading cid legalOfficer point => exact h
  | decrypting password' point => exact h
  | rejected e => exact h

/-- An import that has no step left has returned. -/
theorem ImportInv.resolved_of_rank {task : Task I}
    (h : ImportInv call t header password clear task w) (hrank : importRank clear.length task = 0) :
    ∃ result, task = .resolved result := by
  cases task with
  | resolved cid => exact ⟨cid, rfl⟩
  | called => simp [importRank] at hrank
  | encrypting password' point => simp [importRank] at hrank
  | adding cid => simp [importRank] at hrank
  | removing cid => simp [importRank] at hrank
  | exportingLargeObject => exact h.elim
  | downloading cid legalOfficer point => exact h.elim
  | decrypting password' point => exact h.elim
  | rejected e => exact h.elim

/-! ### The segments of `encrypt` -/

variable [DecidableEq ι]

theorem exec_startEncrypt (h : w.files call.path = some clear) :
    ∃ w', exec (startEncrypt t call.encryptedFile) w = (.ok .opening, w') ∧
      Opened call t clear [] w' := by
  refine ⟨_, rfl, ?_, ?_, ?_⟩
  · exact (Function.update_of_ne call.path_ne _ _).trans h
  · exact Function.update_self _ _ _
  · exact Function.update_self _ _ _

/-- The writer of the call writes as if it were alone. -/
theorem Writing.write {writer : EncryptedFileWriter C} (h : Writing call t clear writer w)
    (hfile : w.writer.file = some t) (hcipher : w.writer.cipher = some t) (data : List UInt8) :
    ∃ w', exec (startWrite data) w = (.ok (), w') ∧
      Writing call t clear (writer.write data) w' := by
  refine ⟨_, (exec_bind_ok (exec_cipherUpdate hcipher h.cipher)).trans ((exec_bind_ok rfl).trans
    (exec_appendFile hfile h.handle h.encrypted)), ⟨⟨?_, ?_, h.handle⟩, ?_⟩⟩
  · exact (Function.update_of_ne call.path_ne _ _).trans h.source
  · exact Function.update_self _ _ _
  · exact Function.update_self _ _ _

theorem Writing.close {writer : EncryptedFileWriter C} (h : Writing call t clear writer w)
    (hfile : w.writer.file = some t) (hcipher : w.writer.cipher = some t) :
    ∃ w', exec startClose w = (.ok (), w') ∧ Opened call t clear writer.close w' := by
  refine ⟨_, (exec_bind_ok (exec_cipherFinal hcipher h.cipher)).trans ((exec_bind_ok rfl).trans
    (exec_appendFile hfile h.handle h.encrypted)), ⟨?_, ?_, h.handle⟩⟩
  · exact (Function.update_of_ne call.path_ne _ _).trans h.source
  · exact Function.update_self _ _ _

open EncryptedFileWriter in
/-- One segment of `encrypt`: the call goes on as if it were alone. -/
theorem encrypt_step {point : EncryptPoint}
    (h : EncryptingInv call t header password clear point w)
    (hfile : point.usesFile → w.writer.file = some t)
    (hcipher : point.usesCipher → w.writer.cipher = some t) :
    (∃ point' w', exec (resumeEncrypt t header call.path password point) w =
        (.ok (some point'), w') ∧ EncryptingInv call t header password clear point' w' ∧
        encryptRank clear.length point' < encryptRank clear.length point) ∨
      (exec (resumeEncrypt t header call.path password point) w = (.ok none, w) ∧
        w.files call.encryptedFile = some (encrypt C header password clear)) := by
  cases point with
  | opening =>
    refine .inl ⟨_, _, rfl, ⟨h.source, h.encrypted, h.handle⟩, ?_⟩
    simp [encryptRank]
  | randomSalt => exact .inl ⟨_, _, rfl, h, by simp [encryptRank]⟩
  | scrypt => exact .inl ⟨_, _, rfl, h, by simp [encryptRank]⟩
  | randomIv =>
    have happend : exec (appendFile w.writer.file header.salt : Segment C ι Unit)
        { w with
          ciphers := Function.update w.ciphers t
            (some (openFile C header password).cipher)
          writer.cipher := some t } = _ :=
      exec_appendFile (hfile rfl) h.handle h.encrypted
    refine .inl ⟨.appendingSalt, _, (exec_bind_ok rfl).trans ((exec_bind_ok happend).trans rfl),
      ⟨⟨?_, ?_, h.handle⟩, Function.update_self _ _ _⟩, by simp [encryptRank]⟩
    · exact (Function.update_of_ne call.path_ne _ _).trans h.source
    · exact Function.update_self _ _ _
  | appendingSalt =>
    have happend : exec (appendFile w.writer.file header.iv : Segment C ι Unit) w = _ :=
      exec_appendFile (hfile rfl) h.handle h.encrypted
    refine .inl ⟨.appendingIv, _, (exec_bind_ok rfl).trans ((exec_bind_ok happend).trans rfl),
      ⟨h.toOpened.append _, h.cipher⟩, by simp [encryptRank]⟩
  | appendingIv =>
    refine .inl ⟨.openingClear, w, ?_, h, by simp [encryptRank]⟩
    rw [resumeEncrypt, exec_bind_ok (exec_mustExist h.source)]
    rfl
  | openingClear =>
    have hbytes : w.bytesAt call.path 0 bufferSize = (clear.drop 0).take bufferSize := by
      rw [World.bytesAt, h.source, Option.getD_some]
    refine .inl ⟨.reading 0 _, w, rfl, ⟨hbytes, ?_⟩, by simp [encryptRank]⟩
    rw [List.take_zero, write_nil]
    exact h
  | reading position data =>
    obtain ⟨hdata, hw⟩ := h
    by_cases hpos : 0 < data.length
    · have huses := decide_eq_true hpos
      obtain ⟨w', hwrite, hw'⟩ := hw.write (hfile huses) (hcipher huses) data
      refine .inl ⟨.appending (position + data.length), w', ?_, ?_, ?_⟩
      · rw [resumeEncrypt, if_pos hpos, exec_bind_ok hwrite]
        rfl
      · have htake : clear.take (position + data.length) = clear.take position ++ data := by
          have hprefix : data <+: clear.drop position := hdata ▸ List.take_prefix _ _
          rw [List.take_add, ← List.prefix_iff_eq_take.mp hprefix]
        rw [write_write, ← htake] at hw'
        exact hw'
      · rw [hdata, List.length_take, List.length_drop] at hpos ⊢
        simp only [encryptRank]
        omega
    · have hlength : clear.length ≤ position := by
        rw [hdata, List.length_take, List.length_drop] at hpos
        simp only [bufferSize] at hpos
        omega
      rw [List.take_of_length_le hlength] at hw
      refine .inl ⟨.closingClear, w, ?_, hw, ?_⟩
      · rw [resumeEncrypt, if_neg hpos]
        rfl
      · simp only [encryptRank]
        omega
  | appending position =>
    have hbytes : w.bytesAt call.path position bufferSize =
        (clear.drop position).take bufferSize := by
      rw [World.bytesAt, h.source, Option.getD_some]
    exact .inl ⟨.reading position _, w, rfl, ⟨hbytes, h⟩, by simp [encryptRank]⟩
  | closingClear =>
    obtain ⟨w', hclose, hw'⟩ := h.close (hfile rfl) (hcipher rfl)
    rw [← encrypt_eq_close] at hw'
    exact .inl ⟨.appendingFinal, w', (exec_bind_ok hclose).trans rfl, hw', by simp [encryptRank]⟩
  | appendingFinal =>
    have hclose := exec_closeFile (hfile rfl) h.handle
    exact .inl ⟨.closing, _, (exec_bind_ok rfl).trans ((exec_bind_ok hclose).trans rfl),
      ⟨h.source, h.encrypted⟩, by simp [encryptRank]⟩
  | closing =>
    refine .inl ⟨.removingClear, _, (exec_bind_ok (exec_rm h.1)).trans rfl, ?_,
      by simp [encryptRank]⟩
    exact (Function.update_of_ne call.path_ne.symm _ _).trans h.2
  | removingClear => exact .inr ⟨rfl, h⟩

/-! ### The segments of `importFile` -/

/-- **One segment of an import.**  It does not fail, whatever the other calls have done. -/
theorem import_step {env : Env} {headers : ι → Header} {calls : ι → FileCall I} {path : String}
    {legalOfficer : AccountId} {task : Task I} (hcall : calls t = .importFile path legalOfficer)
    (hpassword : getPassword env legalOfficer = .ok password)
    (h : ImportInv (calls t) t (headers t) password clear task w) (howned : OwnedAt t task w) :
    ∃ task' w', exec (resume env headers calls t task) w = (.ok task', w') ∧
      ImportInv (calls t) t (headers t) password clear task' w' ∧
      importRank clear.length task' ≤ importRank clear.length task - 1 := by
  cases task with
  | called =>
    obtain ⟨w', hstart, hopened⟩ := exec_startEncrypt (t := t) h
    have hpw : exec (liftM (getPassword env legalOfficer) : Segment C ι String) w =
        (.ok password, w) := by rw [exec_lift, hpassword]
    refine ⟨.encrypting password .opening, w', ?_, ⟨rfl, hopened⟩, by simp [importRank, encryptRank]⟩
    rw [hcall] at hstart
    rw [resume, hcall]
    exact (exec_bind_ok hpw).trans ((exec_bind_ok hstart).trans rfl)
  | encrypting password' point =>
    obtain ⟨rfl, h⟩ := h
    rcases encrypt_step h howned.1 howned.2 with ⟨point', w', he, hinv, hrank⟩ | ⟨he, henc⟩
    · refine ⟨.encrypting password' point', w', (exec_bind_ok he).trans rfl, ⟨rfl, hinv⟩, ?_⟩
      simp only [importRank]
      omega
    · refine ⟨.adding _, _, (exec_bind_ok he).trans ((exec_bind_ok (exec_addToIpfs henc)).trans rfl),
        ⟨henc, rfl, List.mem_cons_self⟩, ?_⟩
      have hpos := encryptRank_pos clear.length point
      simp only [importRank]
      omega
  | adding cid =>
    refine ⟨.removing cid, _, (exec_bind_ok (exec_rm h.1)).trans rfl, ⟨h.2.1, h.2.2⟩, ?_⟩
    simp [importRank]
  | removing cid =>
    refine ⟨.resolved (some cid), w, rfl, ⟨congrArg some h.1, h.2⟩, ?_⟩
    simp [importRank]
  | resolved cid => exact ⟨.resolved cid, w, rfl, h, by simp [importRank]⟩
  | exportingLargeObject => exact h.elim
  | downloading cid legalOfficer point => exact h.elim
  | decrypting password' point => exact h.elim
  | rejected e => exact h.elim

end Logion
