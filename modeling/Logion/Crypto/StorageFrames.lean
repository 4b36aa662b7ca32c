import Logion.Crypto.FileStorage

/-!
# StorageFrames — what a step of an import or export changes

A step that finds its own handle, cipher and decipher in the fields of the writer and the reader
changes nothing that belongs to another call, whatever becomes of it.

* `Touches`: what a step of a call may change, `Safe`: a segment that changes no more.
* `Owned`: the fields that a step uses hold what the same call put there.
* `safe_resume`: the segments of every call, at every point.
-/

namespace Logion

open BlockMode Effect Interleaving

variable {C : NodeCrypto} {I : Ipfs} {ι : Type} {call : FileCall I} {t u : ι}
  {w w' w'' : World C ι} {α β : Type}

/-- The handle of a call is one of its encrypted file. -/
def OwnHandle (call : FileCall I) (t : ι) (w : World C ι) : Prop :=
  ∀ handle, w.handles t = some handle → handle.path = call.encryptedFile

/-- What a step of call `t` may change: its two files, its handle and ciphers, what is stored in IPFS
(which only grows) and the fields of the writer and the reader.  The buffer changes only when the
reader is then `t`'s. -/
structure Touches (call : FileCall I) (t : ι) (w w' : World C ι) : Prop where
  files : ∀ p, p ≠ call.path → p ≠ call.encryptedFile → w'.files p = w.files p
  largeObjects : w'.largeObjects = w.largeObjects
  stored : ∀ content ∈ w.stored, content ∈ w'.stored
  handles : ∀ u, u ≠ t → w'.handles u = w.handles u
  ciphers : ∀ u, u ≠ t → w'.ciphers u = w.ciphers u
  deciphers : ∀ u, u ≠ t → w'.deciphers u = w.deciphers u
  readerFile : w'.reader.file = w.reader.file ∨ w'.reader.file = some t
  buffer : w'.reader.buffer = w.reader.buffer ∨ w'.reader.file = some t
  ownHandle : OwnHandle call t w → OwnHandle call t w'

namespace Touches

theorem refl (call : FileCall I) (t : ι) (w : World C ι) : Touches call t w w :=
  ⟨fun _ _ _ => rfl, rfl, fun _ h => h, fun _ _ => rfl, fun _ _ => rfl, fun _ _ => rfl, .inl rfl,
    .inl rfl, fun h => h⟩

theorem trans (h : Touches call t w w') (h' : Touches call t w' w'') : Touches call t w w'' where
  files p hp hp' := (h'.files p hp hp').trans (h.files p hp hp')
  largeObjects := h'.largeObjects.trans h.largeObjects
  stored content hc := h'.stored content (h.stored content hc)
  handles u hu := (h'.handles u hu).trans (h.handles u hu)
  ciphers u hu := (h'.ciphers u hu).trans (h.ciphers u hu)
  deciphers u hu := (h'.deciphers u hu).trans (h.deciphers u hu)
  readerFile := by
    rcases h'.readerFile with he | ht
    · rw [he]
      exact h.readerFile
    · exact .inr ht
  buffer := by
    rcases h'.buffer with he | ht
    · rcases h.buffer with hb | ht
      · exact .inl (he.trans hb)
      · right
        rcases h'.readerFile with hf | hf
        · exact hf.trans ht
        · exact hf
    · exact .inr ht
  ownHandle hown := h'.ownHandle (h.ownHandle hown)

/-- The fields of the writer are no concern of the others. -/
theorem setWriter (fields : WriterFields ι) : Touches call t w { w with writer := fields } :=
  { refl call t w with }

theorem setReaderFile : Touches call t w { w with reader.file := some t } :=
  { refl call t w with
    readerFile := .inr rfl
    buffer := .inr rfl }

theorem setReaderDecipher (decipher : Option ι) :
    Touches call t w { w with reader.decipher := decipher } :=
  { refl call t w with }

theorem setBuffer (h : w.reader.file = some t) (b : ReadBuffer) :
    Touches call t w { w with reader.buffer := b } :=
  { refl call t w with buffer := .inr h }

theorem store (content : List UInt8) :
    Touches call t w { w with stored := content :: w.stored } :=
  { refl call t w with stored := fun _ h => List.mem_cons_of_mem _ h }

/-- One of the two files of the call is rewritten. -/
theorem setFile {p : String} (hp : p = call.path ∨ p = call.encryptedFile)
    (content : Option (List UInt8)) :
    Touches call t w { w with files := Function.update w.files p content } := by
  refine { refl call t w with files := fun q hq hq' => Function.update_of_ne ?_ _ _ }
  rcases hp with rfl | rfl
  · exact hq
  · exact hq'

variable [DecidableEq ι]

theorem setHandle {handle : FileHandle}
    (h : OwnHandle call t w → handle.path = call.encryptedFile) :
    Touches call t w { w with handles := Function.update w.handles t (some handle) } := by
  refine { refl call t w with
    handles := fun u hu => Function.update_of_ne hu _ _
    ownHandle := fun hown handle' he => ?_ }
  have hself : some handle = some handle' := (Function.update_self t _ w.handles).symm.trans he
  obtain rfl := Option.some.inj hself
  exact h hown

theorem setCipher (cipher : Option (Cipher C.Key UInt8)) :
    Touches call t w { w with ciphers := Function.update w.ciphers t cipher } :=
  { refl call t w with ciphers := fun _ hu => Function.update_of_ne hu _ _ }

theorem setDecipher (decipher : Option (Decipher C.Key UInt8)) :
    Touches call t w { w with deciphers := Function.update w.deciphers t decipher } :=
  { refl call t w with deciphers := fun _ hu => Function.update_of_ne hu _ _ }

end Touches

/-! ### Segments that change no more -/

/-- The segment, run from `w`, changes no more than a step of `t` may. -/
def Safe (call : FileCall I) (t : ι) (x : Segment C ι α) (w : World C ι) : Prop :=
  OwnHandle call t w → Touches call t w (exec x w).2

theorem safe_pure (a : α) : Safe call t (pure a : Segment C ι α) w := fun _ => .refl call t w

theorem safe_throw (e : Err) : Safe call t (throw e : Segment C ι α) w := fun _ => .refl call t w

theorem safe_modify {g : World C ι → World C ι} (h : Touches call t w (g w)) :
    Safe call t (modify g : Segment C ι PUnit) w := fun _ => h

/-- One segment after the other. -/
theorem Safe.bind {x : Segment C ι α} {f : α → Segment C ι β} (hx : Safe call t x w)
    (hf : ∀ a w', exec x w = (.ok a, w') → Safe call t (f a) w') : Safe call t (x >>= f) w := by
  intro hown
  have hx' := hx hown
  rcases h : exec x w with ⟨r, w'⟩
  rw [h] at hx'
  cases r with
  | ok a =>
    rw [exec_bind_ok h]
    exact hx'.trans (hf a w' h (hx'.ownHandle hown))
  | error e =>
    rw [exec_bind_error h]
    exact hx'

theorem safe_get_bind {f : World C ι → Segment C ι α} (h : Safe call t (f w) w) :
    Safe call t (get >>= f) w :=
  Safe.bind (fun _ => .refl call t w) fun a w' he => by
    cases he
    exact h

/-- What follows a change of the world. -/
theorem safe_modify_bind {g : World C ι → World C ι} {f : PUnit → Segment C ι α}
    (h : Touches call t w (g w)) (hf : Safe call t (f ⟨⟩) (g w)) :
    Safe call t (modify g >>= f) w :=
  Safe.bind (safe_modify h) fun a w' he => by
    cases he
    exact hf

/-- An object is reached through a field, and then it is the one of `t`. -/
theorem safe_deref_bind {objects : ι → Option β} {field : Option ι}
    {f : ι × β → Segment C ι α} (hfield : field = some t)
    (hf : ∀ object, objects t = some object → Safe call t (f (t, object)) w) :
    Safe call t (deref field objects >>= f) w := by
  subst hfield
  unfold deref
  cases ho : objects t with
  | none =>
    simp only [Option.bind_some, ho, Option.map_none]
    exact safe_throw _
  | some object =>
    simp only [Option.bind_some, ho, Option.map_some]
    exact hf object ho

theorem safe_lift (x : Except Err α) : Safe call t (liftM x : Segment C ι α) w :=
  fun _ => .refl call t w

section

variable {p : String} {data : List UInt8} {file : Option ι}

theorem safe_createFile (hp : p = call.path ∨ p = call.encryptedFile) :
    Safe call t (createFile p : Segment C ι Unit) w := safe_modify (.setFile hp _)

theorem safe_appendTo (hp : p = call.path ∨ p = call.encryptedFile) :
    Safe call t (appendTo p data : Segment C ι Unit) w := safe_modify (.setFile hp _)

theorem safe_mustExist : Safe call t (mustExist p : Segment C ι Unit) w := by
  refine safe_get_bind ?_
  split_ifs
  · exact safe_throw _
  · exact safe_pure _

theorem safe_rm (hp : p = call.path ∨ p = call.encryptedFile) :
    Safe call t (rm p : Segment C ι Unit) w :=
  safe_mustExist.bind fun _ _ _ => safe_modify (.setFile hp _)

theorem safe_appendFile (hfile : file = some t) :
    Safe call t (appendFile file data : Segment C ι Unit) w := by
  intro hown
  refine safe_get_bind (safe_deref_bind hfile fun handle hh => ?_) hown
  dsimp only
  split_ifs
  · exact safe_appendTo (.inr (hown handle hh))
  · exact safe_throw _

variable [DecidableEq ι]

theorem safe_newHandle (hp : p = call.encryptedFile) :
    Safe call t (newHandle t p : Segment C ι Unit) w := safe_modify (.setHandle fun _ => hp)

theorem safe_readFile {length : ℕ} (hfile : file = some t) :
    Safe call t (readFile file length : Segment C ι (List UInt8)) w := by
  refine safe_get_bind (safe_deref_bind hfile fun handle hh => ?_)
  dsimp only
  split_ifs
  · refine safe_get_bind (safe_modify_bind (.setHandle fun hown => ?_) (safe_pure _))
    exact hown handle hh
  · exact safe_throw _

theorem safe_closeFile (hfile : file = some t) :
    Safe call t (closeFile file : Segment C ι Unit) w := by
  refine safe_get_bind (safe_deref_bind hfile fun handle hh => ?_)
  exact safe_modify (.setHandle fun hown => hown handle hh)

theorem safe_cipherUpdate (h : w.writer.cipher = some t) :
    Safe call t (cipherUpdate data : Segment C ι (List UInt8)) w :=
  safe_get_bind (safe_deref_bind h fun _ _ =>
    safe_modify_bind (.setCipher _) (safe_pure _))

theorem safe_cipherFinal (h : w.writer.cipher = some t) :
    Safe call t (cipherFinal : Segment C ι (List UInt8)) w :=
  safe_get_bind (safe_deref_bind h fun _ _ =>
    safe_modify_bind (.setCipher _) (safe_pure _))

theorem safe_decipherUpdate (h : w.reader.decipher = some t) :
    Safe call t (decipherUpdate data : Segment C ι (List UInt8)) w :=
  safe_get_bind (safe_deref_bind h fun _ _ =>
    safe_modify_bind (.setDecipher _) (safe_pure _))

theorem safe_decipherFinal (h : w.reader.decipher = some t) :
    Safe call t (decipherFinal : Segment C ι (List UInt8)) w :=
  safe_get_bind (safe_deref_bind h fun _ _ =>
    safe_modify_bind (.setDecipher _) (safe_lift _))

end

/-! ### What the ciphers leave alone -/

section

variable {γ : Type} {R : World C ι → γ}

theorem keeps_deref {objects : ι → Option β} {field : Option ι} :
    Keeps R (deref field objects : Segment C ι (ι × β)) := by
  unfold deref
  split
  · exact keeps_pure _
  · exact keeps_throw _

variable [DecidableEq ι] {data : List UInt8}

theorem keeps_cipherUpdate (h : ∀ w ciphers, R { w with ciphers := ciphers } = R w) :
    Keeps R (cipherUpdate data : Segment C ι (List UInt8)) :=
  keeps_get.bind fun _ => keeps_deref.bind fun _ =>
    Keeps.bind (fun _ => h _ _) fun _ => keeps_pure _

theorem keeps_cipherFinal (h : ∀ w ciphers, R { w with ciphers := ciphers } = R w) :
    Keeps R (cipherFinal : Segment C ι (List UInt8)) :=
  keeps_get.bind fun _ => keeps_deref.bind fun _ =>
    Keeps.bind (fun _ => h _ _) fun _ => keeps_pure _

theorem keeps_readFile {file : Option ι} {length : ℕ}
    (h : ∀ w handles, R { w with handles := handles } = R w) :
    Keeps R (readFile file length : Segment C ι (List UInt8)) :=
  keeps_get.bind fun _ => keeps_deref.bind fun _ =>
    Keeps.ite (keeps_get.bind fun _ => Keeps.bind (fun _ => h _ _) fun _ => keeps_pure _)
      (keeps_throw _)

theorem keeps_decipherUpdate (h : ∀ w deciphers, R { w with deciphers := deciphers } = R w) :
    Keeps R (decipherUpdate data : Segment C ι (List UInt8)) :=
  keeps_get.bind fun _ => keeps_deref.bind fun _ =>
    Keeps.bind (fun _ => h _ _) fun _ => keeps_pure _

end

/-! ### The segments of a call -/

/-- The next segment uses `this.file` of the writer. -/
def EncryptPoint.usesFile : EncryptPoint → Bool
  | .randomIv | .appendingSalt | .closingClear | .appendingFinal => true
  | .reading _ data => decide (0 < data.length)
  | _ => false

/-- The next segment uses `this.cipher`. -/
def EncryptPoint.usesCipher : EncryptPoint → Bool
  | .closingClear => true
  | .reading _ data => decide (0 < data.length)
  | _ => false

/-- The next segment uses `this.file` of the reader, or what was read from it into `this.buffer`. -/
def DecryptPoint.usesFile : DecryptPoint → Bool
  | .readingSalt _ | .openingClear | .appending | .closingClear => true
  | .reading bytesRead => decide (0 < bytesRead)
  | _ => false

/-- The next segment uses `this.decipher`. -/
def DecryptPoint.usesDecipher : DecryptPoint → Bool
  | .reading bytesRead => decide (0 < bytesRead)
  | _ => false

/-- The fields that the next segment of call `t` uses hold what `t` put there. -/
def OwnedAt (t : ι) (task : Task I) (w : World C ι) : Prop :=
  match task with
  | .encrypting _ point =>
    (point.usesFile → w.writer.file = some t) ∧ (point.usesCipher → w.writer.cipher = some t)
  | .decrypting _ point =>
    (point.usesFile → w.reader.file = some t) ∧ (point.usesDecipher → w.reader.decipher = some t)
  | _ => True

instance [DecidableEq ι] (t : ι) (task : Task I) (w : World C ι) :
    Decidable (OwnedAt t task w) := by
  unfold OwnedAt
  split <;> infer_instance

theorem safe_fetch {cid : I.Cid} {offset : ℕ} {waiting : DownloadPoint} :
    Safe call t (fetch call.encryptedFile cid offset waiting : Segment C ι DownloadPoint) w := by
  refine safe_get_bind ?_
  split
  · exact safe_pure _
  · exact (safe_appendTo (.inr rfl)).bind fun _ _ _ => safe_pure _

theorem safe_addToIpfs {file : String} : Safe call t (addToIpfs file : Segment C ι I.Cid) w := by
  refine safe_get_bind ?_
  split
  · exact safe_throw _
  · exact Safe.bind (fun _ => .store _) fun _ _ _ => safe_pure _

theorem safe_resumeDownload {cid : I.Cid} {point : DownloadPoint} :
    Safe call t (resumeDownload call.encryptedFile cid point : Segment C ι _) w := by
  cases point with
  | opening => exact safe_fetch.bind fun _ _ _ => safe_pure _
  | fetching offset bufferLength =>
    rw [resumeDownload]
    split_ifs
    · exact safe_pure _
    · exact safe_fetch.bind fun _ _ _ => safe_pure _
  | closing => exact safe_pure _

section

variable [DecidableEq ι]

theorem safe_startEncrypt : Safe call t (startEncrypt t call.encryptedFile : Segment C ι _) w :=
  (safe_createFile (.inr rfl)).bind fun _ _ _ =>
    (safe_newHandle rfl).bind fun _ _ _ => safe_pure _

theorem safe_startDecrypt : Safe call t (startDecrypt t call.encryptedFile : Segment C ι _) w :=
  safe_mustExist.bind fun _ _ _ => (safe_newHandle rfl).bind fun _ _ _ => safe_pure _

theorem safe_startWrite {data : List UInt8} (hfile : w.writer.file = some t)
    (hcipher : w.writer.cipher = some t) : Safe call t (startWrite data : Segment C ι Unit) w := by
  refine (safe_cipherUpdate hcipher).bind fun encrypted w' he => ?_
  have hwriter : w'.writer = w.writer := (keeps_cipherUpdate fun _ _ => rfl).eq he
  refine safe_get_bind (safe_appendFile ?_)
  rw [hwriter]
  exact hfile

theorem safe_startClose (hfile : w.writer.file = some t) (hcipher : w.writer.cipher = some t) :
    Safe call t (startClose : Segment C ι Unit) w := by
  refine (safe_cipherFinal hcipher).bind fun encrypted w' he => ?_
  have hwriter : w'.writer = w.writer := (keeps_cipherFinal fun _ _ => rfl).eq he
  refine safe_get_bind (safe_appendFile ?_)
  rw [hwriter]
  exact hfile

theorem safe_resumeEncrypt {header : Header} {password : String} {point : EncryptPoint}
    (hfile : point.usesFile → w.writer.file = some t)
    (hcipher : point.usesCipher → w.writer.cipher = some t) :
    Safe call t (resumeEncrypt t header call.path password point : Segment C ι _) w := by
  cases point with
  | opening => exact safe_modify_bind (.setWriter _) (safe_pure _)
  | randomSalt => exact safe_pure _
  | scrypt => exact safe_pure _
  | randomIv =>
    refine safe_modify_bind ((Touches.setCipher _).trans (.setWriter _)) ?_
    exact safe_get_bind ((safe_appendFile (hfile rfl)).bind fun _ _ _ => safe_pure _)
  | appendingSalt =>
    exact safe_get_bind ((safe_appendFile (hfile rfl)).bind fun _ _ _ => safe_pure _)
  | appendingIv => exact safe_mustExist.bind fun _ _ _ => safe_pure _
  | openingClear => exact safe_get_bind (safe_pure _)
  | reading position data =>
    rw [resumeEncrypt]
    split_ifs with hdata
    · have hpos := decide_eq_true hdata
      exact (safe_startWrite (hfile hpos) (hcipher hpos)).bind fun _ _ _ => safe_pure _
    · exact safe_pure _
  | appending position => exact safe_get_bind (safe_pure _)
  | closingClear =>
    exact (safe_startClose (hfile rfl) (hcipher rfl)).bind fun _ _ _ => safe_pure _
  | appendingFinal =>
    exact safe_get_bind ((safe_closeFile (hfile rfl)).bind fun _ _ _ => safe_pure _)
  | closing => exact (safe_rm (.inl rfl)).bind fun _ _ _ => safe_pure _
  | removingClear => exact safe_pure _

theorem safe_readBuffer (h : w.reader.file = some t) :
    Safe call t (readBuffer : Segment C ι DecryptPoint) w := by
  refine safe_get_bind ((safe_readFile h).bind fun data w' he => ?_)
  have hreader : w'.reader = w.reader := (keeps_readFile fun _ _ => rfl).eq he
  refine safe_modify_bind (.setBuffer ?_ _) (safe_pure _)
  rw [hreader]
  exact h

theorem safe_decipherChunk {bytesRead : ℕ} (h : 0 < bytesRead → w.reader.decipher = some t) :
    Safe call t (decipherChunk bytesRead : Segment C ι (List UInt8)) w := by
  refine safe_get_bind ?_
  dsimp only
  split_ifs with h0 hlt
  · exact safe_pure _
  · have hself := h (Nat.pos_of_ne_zero h0)
    refine (safe_decipherUpdate hself).bind fun data w' he => ?_
    have hreader : w'.reader = w.reader := (keeps_decipherUpdate fun _ _ => rfl).eq he
    exact (safe_decipherFinal (by rw [hreader]; exact hself)).bind fun _ _ _ => safe_pure _
  · exact safe_decipherUpdate (h (Nat.pos_of_ne_zero h0))

theorem safe_resumeDecrypt {password : String} {point : DecryptPoint}
    (hfile : point.usesFile → w.reader.file = some t)
    (hdecipher : point.usesDecipher → w.reader.decipher = some t) :
    Safe call t
      (resumeDecrypt t call.encryptedFile call.path password point : Segment C ι _) w := by
  cases point with
  | opening =>
    refine safe_modify_bind .setReaderFile (safe_get_bind ?_)
    exact (safe_readFile rfl).bind fun _ _ _ => safe_pure _
  | readingSalt salt =>
    exact safe_get_bind ((safe_readFile (hfile rfl)).bind fun _ _ _ => safe_pure _)
  | readingIv salt iv => exact safe_pure _
  | scrypt salt iv =>
    refine safe_modify_bind ((Touches.setDecipher _).trans (.setReaderDecipher _)) ?_
    exact (safe_createFile (.inl rfl)).bind fun _ _ _ => safe_pure _
  | openingClear => exact (safe_readBuffer (hfile rfl)).bind fun _ _ _ => safe_pure _
  | reading bytesRead =>
    refine (safe_decipherChunk fun h => hdecipher (decide_eq_true h)).bind fun chunk w' _ => ?_
    split_ifs
    · exact (safe_appendTo (.inl rfl)).bind fun _ _ _ => safe_pure _
    · exact safe_pure _
  | appending => exact (safe_readBuffer (hfile rfl)).bind fun _ _ _ => safe_pure _
  | closingClear =>
    exact safe_get_bind ((safe_closeFile (hfile rfl)).bind fun _ _ _ => safe_pure _)
  | closing => exact (safe_rm (.inr rfl)).bind fun _ _ _ => safe_pure _
  | removing => exact safe_pure _

theorem safe_start {env : Env} : Safe call t (start env t call : Segment C ι (Task I)) w := by
  cases call with
  | importFile path legalOfficer =>
    exact (safe_lift _).bind fun _ _ _ => safe_startEncrypt.bind fun _ _ _ => safe_pure _
  | exportFile id path legalOfficer =>
    rw [start]
    split_ifs
    · refine safe_modify_bind ?_ (safe_pure _)
      split
      · exact .setFile (.inl rfl) _
      · exact .refl _ _ _
    · split
      · exact (safe_createFile (.inr rfl)).bind fun _ _ _ => safe_pure _
      · exact safe_throw _

/-- **What a step of a call changes.**  At every point, whether the step fails or not. -/
theorem safe_resume {env : Env} {headers : ι → Header} {calls : ι → FileCall I} {task : Task I}
    (h : OwnedAt t task w) :
    Safe (calls t) t (resume env headers calls t task : Segment C ι (Task I)) w := by
  cases task with
  | called => exact safe_start
  | encrypting password point =>
    refine (safe_resumeEncrypt h.1 h.2).bind fun point' w' _ => ?_
    cases point' with
    | some point' => exact safe_pure _
    | none => exact safe_addToIpfs.bind fun _ _ _ => safe_pure _
  | adding cid => exact (safe_rm (.inr rfl)).bind fun _ _ _ => safe_pure _
  | removing cid => exact safe_pure _
  | exportingLargeObject => exact safe_pure _
  | downloading cid legalOfficer point =>
    refine safe_resumeDownload.bind fun point' w' _ => ?_
    cases point' with
    | some point' => exact safe_pure _
    | none =>
      exact (safe_lift _).bind fun _ _ _ => safe_startDecrypt.bind fun _ _ _ => safe_pure _
  | decrypting password point =>
    refine (safe_resumeDecrypt h.1 h.2).bind fun point' w' _ => ?_
    cases point' with
    | some point' => exact safe_pure _
    | none => exact safe_pure _
  | resolved cid => exact safe_pure _
  | rejected e => exact safe_pure _

end

/-! ### What another call leaves alone -/

/-- What call `t` sees of the world has not changed; IPFS may have grown. -/
structure SameView (call : FileCall I) (t : ι) (w w' : World C ι) : Prop where
  path : w'.files call.path = w.files call.path
  encryptedFile : w'.files call.encryptedFile = w.files call.encryptedFile
  largeObjects : w'.largeObjects = w.largeObjects
  stored : ∀ content ∈ w.stored, content ∈ w'.stored
  handle : w'.handles t = w.handles t
  cipher : w'.ciphers t = w.ciphers t
  decipher : w'.deciphers t = w.deciphers t
  buffer : w'.reader.file = some t →
    w.reader.file = some t ∧ w'.reader.buffer = w.reader.buffer

/-- No call works on the file of another one, clear or encrypted. -/
structure PathsApart (calls : ι → FileCall I) : Prop where
  distinct : ∀ t u, t ≠ u → (calls t).path ≠ (calls u).path
  notEncrypted : ∀ t u, t ≠ u → (calls t).path ≠ (calls u).encryptedFile

theorem SameView.of_touches {calls : ι → FileCall I} (hpaths : PathsApart calls) (hne : u ≠ t)
    (h : Touches (calls u) u w w') : SameView (calls t) t w w' where
  path := h.files _ (hpaths.distinct t u hne.symm) (hpaths.notEncrypted t u hne.symm)
  encryptedFile := by
    refine h.files _ (hpaths.notEncrypted u t hne).symm fun he => ?_
    exact hpaths.distinct t u hne.symm ((String.append_left_inj _).mp he)
  largeObjects := h.largeObjects
  stored := h.stored
  handle := h.handles t hne.symm
  cipher := h.ciphers t hne.symm
  decipher := h.deciphers t hne.symm
  buffer ht := by
    have hnot : w'.reader.file ≠ some u := fun hu => hne (Option.some.inj (hu.symm.trans ht))
    have hfile := h.readerFile.resolve_right hnot
    exact ⟨hfile ▸ ht, h.buffer.resolve_right hnot⟩

end Logion
