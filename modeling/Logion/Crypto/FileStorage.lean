import Logion.Crypto.EncryptedFile
import Logion.Lib.Interleaving

/-!
# FileStorage — concurrent imports and exports (`file.storage.service.ts`, `EncryptedFile.ts`)

The service is a singleton that owns one `EncryptedFileWriter` and one `EncryptedFileReader`.  Both
keep the open file and the cipher in fields, which all the calls share.  A call is a sequence of
segments between two `await`s; a segment starts its awaited operation, whose effect is part of it.

The file handle, the cipher and the decipher that a call creates are named by the call: a field holds
the name of the call that assigned it last.  A handle for writing stands at the end of its file.  A
local handle, which no other call can reach, is a position.

* `EncryptPoint`, `resumeEncrypt`: `EncryptedFileWriter.encrypt`.
* `DecryptPoint`, `resumeDecrypt`: `EncryptedFileReader.decrypt`.
* `DownloadPoint`, `resumeDownload`: `downloadFromIpfs`.
* `Task`, `resume`, `service`: `importFile` and `exportFile`.
-/

namespace Logion

open BlockMode Effect Interleaving

/-- IPFS addresses a content by its CID. -/
structure Ipfs where
  Cid : Type
  decEq : DecidableEq Cid
  cid : List UInt8 → Cid
  cid_injective : Function.Injective cid

instance (I : Ipfs) : DecidableEq I.Cid := I.decEq

/-- A `FileHandle`. -/
structure FileHandle where
  path : String
  position : ℕ
  isOpen : Bool

/-- The `buffer` of a reader. -/
structure ReadBuffer where
  bytes : List UInt8
  length_eq : bytes.length = bufferSize

/-- A read overwrites the first bytes of the buffer. -/
def ReadBuffer.fill (b : ReadBuffer) (data : List UInt8) : ReadBuffer where
  bytes := (data ++ b.bytes.drop data.length).take bufferSize
  length_eq := by
    rw [List.length_take, List.length_append, List.length_drop, b.length_eq]
    omega

/-- The fields of the `EncryptedFileWriter`. -/
structure WriterFields (ι : Type) where
  file : Option ι
  cipher : Option ι

/-- The fields of the `EncryptedFileReader`. -/
structure ReaderFields (ι : Type) where
  file : Option ι
  decipher : Option ι
  buffer : ReadBuffer

/-- What the calls share.  A cipher that was finished is gone. -/
structure World (C : NodeCrypto) (ι : Type) where
  files : String → Option (List UInt8)
  stored : List (List UInt8)
  largeObjects : ℕ → Option (List UInt8)
  handles : ι → Option FileHandle
  ciphers : ι → Option (Cipher C.Key UInt8)
  deciphers : ι → Option (Decipher C.Key UInt8)
  writer : WriterFields ι
  reader : ReaderFields ι

/-- A segment of a call. -/
abbrev Segment (C : NodeCrypto) (ι : Type) := Eff (World C ι) Err

variable {C : NodeCrypto} {I : Ipfs} {ι : Type}

/-! ### Files -/

/-- `open(path, 'w')`: the file is created, or emptied. -/
def createFile (path : String) : Segment C ι Unit :=
  modify fun w => { w with files := Function.update w.files path (some []) }

/-- `open(path, 'r')` of a file that does not exist, and `rm` of one, throw. -/
def mustExist (path : String) : Segment C ι Unit := do
  let w ← get
  if (w.files path).isNone then throw (.error "ENOENT: no such file or directory")

def rm (path : String) : Segment C ι Unit := do
  mustExist path
  modify fun w => { w with files := Function.update w.files path none }

/-- The bytes of the file `path` from `position` on, at most `length` of them. -/
def World.bytesAt (w : World C ι) (path : String) (position length : ℕ) : List UInt8 :=
  (((w.files path).getD []).drop position).take length

/-- `appendFile` or `write` on a handle of its own. -/
def appendTo (path : String) (data : List UInt8) : Segment C ι Unit :=
  modify fun w =>
    { w with files := Function.update w.files path (some ((w.files path).getD [] ++ data)) }

/-! ### Objects that a field refers to -/

/-- The object that a field refers to, and the call that created it. -/
def deref {β : Type} (field : Option ι) (objects : ι → Option β) : Segment C ι (ι × β) :=
  match field.bind fun k => (objects k).map fun object => (k, object) with
  | some object => pure object
  | none => throw (.error "Unsupported state")

section

variable [DecidableEq ι]

def newHandle (t : ι) (path : String) : Segment C ι Unit :=
  modify fun w => { w with handles := Function.update w.handles t (some ⟨path, 0, true⟩) }

/-- `file.appendFile(data)`. -/
def appendFile (file : Option ι) (data : List UInt8) : Segment C ι Unit := do
  let (_, handle) ← deref file (← get).handles
  if handle.isOpen then appendTo handle.path data
  else throw (.error "EBADF: bad file descriptor")

/-- `file.read(buffer, 0, length)`: the bytes read. -/
def readFile (file : Option ι) (length : ℕ) : Segment C ι (List UInt8) := do
  let (k, handle) ← deref file (← get).handles
  if handle.isOpen then
    let data := (← get).bytesAt handle.path handle.position length
    modify fun w =>
      { w with
        handles := Function.update w.handles k
          (some { handle with position := handle.position + data.length }) }
    return data
  else throw (.error "EBADF: bad file descriptor")

/-- `file.close()`, which does nothing on a closed handle. -/
def closeFile (file : Option ι) : Segment C ι Unit := do
  let (k, handle) ← deref file (← get).handles
  modify fun w =>
    { w with handles := Function.update w.handles k (some { handle with isOpen := false }) }

/-- `this.cipher!.update(data)`. -/
def cipherUpdate (data : List UInt8) : Segment C ι (List UInt8) := do
  let w ← get
  let (k, cipher) ← deref w.writer.cipher w.ciphers
  modify fun w =>
    { w with ciphers := Function.update w.ciphers k (some (Cipher.update C.suite cipher data).2) }
  return (Cipher.update C.suite cipher data).1

/-- `this.cipher!.final()`. -/
def cipherFinal : Segment C ι (List UInt8) := do
  let w ← get
  let (k, cipher) ← deref w.writer.cipher w.ciphers
  modify fun w => { w with ciphers := Function.update w.ciphers k none }
  return Cipher.final C.suite cipher

/-- `this.decipher!.update(data)`. -/
def decipherUpdate (data : List UInt8) : Segment C ι (List UInt8) := do
  let w ← get
  let (k, decipher) ← deref w.reader.decipher w.deciphers
  modify fun w =>
    { w with
      deciphers := Function.update w.deciphers k (some (Decipher.update C.suite decipher data).2) }
  return (Decipher.update C.suite decipher data).1

/-- `this.decipher!.final()`. -/
def decipherFinal : Segment C ι (List UInt8) := do
  let w ← get
  let (k, decipher) ← deref w.reader.decipher w.deciphers
  modify fun w => { w with deciphers := Function.update w.deciphers k none }
  let data ← EncryptedFileReader.final decipher
  return data

/-! ### `EncryptedFileWriter.encrypt` -/

/-- What `encrypt` awaits.  `reading` and `appending` are in the loop of `writeFromFile`, with the
position in the clear file. -/
inductive EncryptPoint
  | opening
  | randomSalt
  | scrypt
  | randomIv
  | appendingSalt
  | appendingIv
  | openingClear
  | reading (position : ℕ) (data : List UInt8)
  | appending (position : ℕ)
  | closingClear
  | appendingFinal
  | closing
  | removingClear

/-- `fd.read` of `writeFromFile`. -/
def readClear (clearFile : String) (position : ℕ) : Segment C ι EncryptPoint := do
  return .reading position ((← get).bytesAt clearFile position bufferSize)

/-- `write(data)` up to its `await`. -/
def startWrite (data : List UInt8) : Segment C ι Unit := do
  let encrypted ← cipherUpdate data
  appendFile (← get).writer.file encrypted

/-- `close()` of the writer up to its first `await`. -/
def startClose : Segment C ι Unit := do
  let encrypted ← cipherFinal
  appendFile (← get).writer.file encrypted

/-- `encrypt` up to its first `await`. -/
def startEncrypt (t : ι) (encryptedFile : String) : Segment C ι EncryptPoint := do
  createFile encryptedFile
  newHandle t encryptedFile
  return .opening

/-- From one `await` of `encrypt` to the next one; `none` when it returns.  An exception in the
callbacks of `open` is caught by nobody: the call is counted as rejected. -/
def resumeEncrypt (t : ι) (header : Header) (clearFile password : String) :
    EncryptPoint → Segment C ι (Option EncryptPoint)
  | .opening => do
    modify fun w => { w with writer.file := some t }
    return some .randomSalt
  | .randomSalt => return some .scrypt
  | .scrypt => return some .randomIv
  | .randomIv => do
    modify fun w =>
      { w with
        ciphers := Function.update w.ciphers t
          (some ⟨C.scrypt password header.salt, header.iv, []⟩)
        writer.cipher := some t }
    appendFile (← get).writer.file header.salt
    return some .appendingSalt
  | .appendingSalt => do
    appendFile (← get).writer.file header.iv
    return some .appendingIv
  | .appendingIv => do
    mustExist clearFile
    return some .openingClear
  | .openingClear => do
    return some (← readClear clearFile 0)
  | .reading position data =>
    if 0 < data.length then do
      startWrite data
      return some (.appending (position + data.length))
    else return some .closingClear
  | .appending position => do
    return some (← readClear clearFile position)
  | .closingClear => do
    startClose
    return some .appendingFinal
  | .appendingFinal => do
    closeFile (← get).writer.file
    return some .closing
  | .closing => do
    rm clearFile
    return some .removingClear
  | .removingClear => return none

/-! ### `EncryptedFileReader.decrypt` -/

/-- What `decrypt` awaits.  `reading` and `appending` are in the loop of `readToFile`. -/
inductive DecryptPoint
  | opening
  | readingSalt (salt : List UInt8)
  | readingIv (salt iv : List UInt8)
  | scrypt (salt iv : List UInt8)
  | openingClear
  | reading (bytesRead : ℕ)
  | appending
  | closingClear
  | closing
  | removing

/-- The array of 16 bytes that was read into. -/
def padded (data : List UInt8) : List UInt8 := data ++ List.replicate (16 - data.length) 0

/-- `decrypt` up to its first `await`. -/
def startDecrypt (t : ι) (encryptedFile : String) : Segment C ι DecryptPoint := do
  mustExist encryptedFile
  newHandle t encryptedFile
  return .opening

/-- `this.file!.read(this.buffer, 0, this.buffer.length)`. -/
def readBuffer : Segment C ι DecryptPoint := do
  let data ← readFile (← get).reader.file bufferSize
  modify fun w => { w with reader.buffer := w.reader.buffer.fill data }
  return .reading data.length

/-- The chunk that `read()` returns. -/
def decipherChunk (bytesRead : ℕ) : Segment C ι (List UInt8) := do
  let buffer := (← get).reader.buffer.bytes
  if bytesRead = 0 then return []
  else if bytesRead < bufferSize then
    let data ← decipherUpdate (buffer.take bytesRead)
    let last ← decipherFinal
    return data ++ last
  else decipherUpdate buffer

/-- From one `await` of `decrypt` to the next one; `none` when it returns. -/
def resumeDecrypt (t : ι) (encryptedFile clearFile password : String) :
    DecryptPoint → Segment C ι (Option DecryptPoint)
  | .opening => do
    modify fun w => { w with reader.file := some t }
    let salt ← readFile (← get).reader.file 16
    return some (.readingSalt (padded salt))
  | .readingSalt salt => do
    let iv ← readFile (← get).reader.file 16
    return some (.readingIv salt (padded iv))
  | .readingIv salt iv => return some (.scrypt salt iv)
  | .scrypt salt iv => do
    modify fun w =>
      { w with
        deciphers := Function.update w.deciphers t (some ⟨C.scrypt password salt, iv, []⟩)
        reader.decipher := some t }
    createFile clearFile
    return some .openingClear
  | .openingClear => do
    return some (← readBuffer)
  | .reading bytesRead => do
    let chunk ← decipherChunk bytesRead
    if 0 < chunk.length then
      appendTo clearFile chunk
      return some .appending
    else return some .closingClear
  | .appending => do
    return some (← readBuffer)
  | .closingClear => do
    closeFile (← get).reader.file
    return some .closing
  | .closing => do
    rm encryptedFile
    return some .removing
  | .removing => return none

/-! ### `downloadFromIpfs` and `moveToIpfs` -/

/-- `MAX_DOWNLOAD_BUFFER_SIZE`. -/
def maxDownloadBufferSize : ℕ := 4096 * 1024

/-- What `downloadFromIpfs` awaits; `fetching` is in its loop. -/
inductive DownloadPoint
  | opening
  | fetching (offset bufferLength : ℕ)
  | closing

/-- The content stored under a CID. -/
def World.cat (w : World C ι) (cid : I.Cid) : Option (List UInt8) :=
  w.stored.find? fun content => decide (I.cid content = cid)

/-- The chunks from `offset` on, written to the file.  IPFS does not answer before it has the
content. -/
def fetch (encryptedFile : String) (cid : I.Cid) (offset : ℕ) (waiting : DownloadPoint) :
    Segment C ι DownloadPoint := do
  match (← get).cat cid with
  | none => return waiting
  | some content =>
    let data := (content.drop offset).take maxDownloadBufferSize
    appendTo encryptedFile data
    return .fetching offset data.length

/-- From one `await` of `downloadFromIpfs` to the next one; `none` when it returns. -/
def resumeDownload (encryptedFile : String) (cid : I.Cid) :
    DownloadPoint → Segment C ι (Option DownloadPoint)
  | .opening => do
    return some (← fetch encryptedFile cid 0 .opening)
  | .fetching offset bufferLength =>
    if bufferLength < maxDownloadBufferSize then return some .closing
    else do
      return some (← fetch encryptedFile cid (offset + maxDownloadBufferSize)
        (.fetching offset bufferLength))
  | .closing => return none

/-- The `add` command of `moveToIpfs`. -/
def addToIpfs (file : String) : Segment C ι I.Cid := do
  let w ← get
  match w.files file with
  | none => throw (.error "Command failed")
  | some content =>
    set { w with stored := content :: w.stored }
    return I.cid content

/-! ### The service -/

structure FileId (I : Ipfs) where
  oid : Option ℕ
  cid : Option I.Cid

/-- A call of `FileStorageService`. -/
inductive FileCall (I : Ipfs)
  | importFile (path : String) (legalOfficer : AccountId)
  | exportFile (id : FileId I) (path : String) (legalOfficer : AccountId)

namespace FileCall

def path : FileCall I → String
  | importFile path _ => path
  | exportFile _ path _ => path

/-- The name of the encrypted file. -/
def encryptedFile (call : FileCall I) : String := call.path ++ ".enc"

theorem path_ne (call : FileCall I) : call.path ≠ call.encryptedFile := by
  intro h
  have hlen := congrArg String.length h
  rw [encryptedFile, String.length_append] at hlen
  have henc : ".enc".length = 4 := by decide
  omega

end FileCall

/-- The environment variables. -/
abbrev Env := String → Option String

def getPassword (env : Env) (legalOfficer : AccountId) : Except Err String :=
  let propertyName := "ENC_PASSWORD_" ++ legalOfficer.address
  match env propertyName with
  | some password => .ok password
  | none => .error
    (.error ("Cannot encrypt/decrypt file. Property " ++ propertyName ++ " not found."))

/-- Where a call is: not made yet, at an `await`, or settled.  `adding` and `removing` are the two
`await`s of `moveToIpfs`. -/
inductive Task (I : Ipfs)
  | called
  | encrypting (password : String) (point : EncryptPoint)
  | adding (cid : I.Cid)
  | removing (cid : I.Cid)
  | exportingLargeObject
  | downloading (cid : I.Cid) (legalOfficer : AccountId) (point : DownloadPoint)
  | decrypting (password : String) (point : DecryptPoint)
  | resolved (cid : Option I.Cid)
  | rejected (e : Err)

/-- `psql` writes the file when the large object exists; its exit status is not looked at. -/
def exportLargeObject (oid : ℕ) (path : String) : Segment C ι Unit :=
  modify fun w =>
    match w.largeObjects oid with
    | some content => { w with files := Function.update w.files path (some content) }
    | none => w

/-- The call is made. -/
def start (env : Env) (t : ι) : FileCall I → Segment C ι (Task I)
  | call@(.importFile _ legalOfficer) => do
    let password ← getPassword env legalOfficer
    return .encrypting password (← startEncrypt t call.encryptedFile)
  | call@(.exportFile id path legalOfficer) =>
    if id.oid.getD 0 ≠ 0 then do
      exportLargeObject (id.oid.getD 0) path
      return .exportingLargeObject
    else
      match id.cid with
      | some cid => do
        createFile call.encryptedFile
        return .downloading cid legalOfficer .opening
      | none => throw (.error "File to download has no id")

/-- From one `await` of a call to the next one. -/
def resume (env : Env) (headers : ι → Header) (calls : ι → FileCall I) (t : ι) :
    Task I → Segment C ι (Task I)
  | .called => start env t (calls t)
  | .encrypting password point => do
    match ← resumeEncrypt t (headers t) (calls t).path password point with
    | some point' => return .encrypting password point'
    | none => return .adding (← addToIpfs (calls t).encryptedFile)
  | .adding cid => do
    rm (calls t).encryptedFile
    return .removing cid
  | .removing cid => return .resolved (some cid)
  | .exportingLargeObject => return .resolved none
  | .downloading cid legalOfficer point => do
    match ← resumeDownload (calls t).encryptedFile cid point with
    | some point' => return .downloading cid legalOfficer point'
    | none =>
      let password ← getPassword env legalOfficer
      return .decrypting password (← startDecrypt t (calls t).encryptedFile)
  | .decrypting password point => do
    match ← resumeDecrypt t (calls t).encryptedFile (calls t).path password point with
    | some point' => return .decrypting password point'
    | none => return .resolved none
  | .resolved cid => return .resolved cid
  | .rejected e => return .rejected e

/-- The running service. -/
def service (C : NodeCrypto) (env : Env) (headers : ι → Header) (calls : ι → FileCall I) :
    Code (World C ι) ι (Task I) Err where
  resume := resume env headers calls
  rejected := .rejected

end

/-! ### Segments that succeed -/

section

variable {α : Type} {t : ι} {w : World C ι} {p : String} {position : ℕ} {field : Option ι}
  {data : List UInt8}

theorem exec_deref {objects : ι → Option α} {object : α} (hfield : field = some t)
    (ho : objects t = some object) :
    exec (deref field objects : Segment C ι (ι × α)) w = (.ok (t, object), w) := by
  subst hfield
  simp [deref, ho]

theorem exec_appendTo : exec (appendTo p data : Segment C ι Unit) w =
    (.ok (), { w with files := Function.update w.files p (some ((w.files p).getD [] ++ data)) }) :=
  rfl

theorem exec_mustExist {content : List UInt8} (h : w.files p = some content) :
    exec (mustExist p : Segment C ι Unit) w = (.ok (), w) := by
  simp [mustExist, exec_bind, h]

theorem exec_rm {content : List UInt8} (h : w.files p = some content) :
    exec (rm p : Segment C ι Unit) w =
      (.ok (), { w with files := Function.update w.files p none }) := by
  rw [rm, exec_bind_ok (exec_mustExist h)]
  rfl

theorem exec_appendFile {content : List UInt8} (hfield : field = some t)
    (hh : w.handles t = some ⟨p, position, true⟩) (hp : w.files p = some content) :
    exec (appendFile field data : Segment C ι Unit) w =
      (.ok (), { w with files := Function.update w.files p (some (content ++ data)) }) := by
  simp [appendFile, exec_bind, exec_deref hfield hh, exec_appendTo, hp]

theorem exec_addToIpfs {content : List UInt8} (h : w.files p = some content) :
    exec (addToIpfs p : Segment C ι I.Cid) w =
      (.ok (I.cid content), { w with stored := content :: w.stored }) := by
  simp only [addToIpfs, exec_bind, exec_get, h]
  rfl

variable [DecidableEq ι]

theorem exec_readFile {content : List UInt8} {length : ℕ} (hfield : field = some t)
    (hh : w.handles t = some ⟨p, position, true⟩) (hp : w.files p = some content) :
    exec (readFile field length : Segment C ι (List UInt8)) w =
      (.ok ((content.drop position).take length),
        { w with
          handles := Function.update w.handles t
            (some ⟨p, position + ((content.drop position).take length).length, true⟩) }) := by
  have hdata : w.bytesAt p position length = (content.drop position).take length := by
    rw [World.bytesAt, hp, Option.getD_some]
  simp only [readFile, exec_bind, exec_get, exec_deref hfield hh, if_true, exec_modify, hdata]
  rfl

theorem exec_closeFile {isOpen : Bool} (hfield : field = some t)
    (hh : w.handles t = some ⟨p, position, isOpen⟩) :
    exec (closeFile field : Segment C ι Unit) w =
      (.ok (), { w with handles := Function.update w.handles t (some ⟨p, position, false⟩) }) := by
  simp [closeFile, exec_bind, exec_deref hfield hh]

theorem exec_cipherUpdate {cipher : Cipher C.Key UInt8} (h : w.writer.cipher = some t)
    (hc : w.ciphers t = some cipher) :
    exec (cipherUpdate data : Segment C ι (List UInt8)) w =
      (.ok (Cipher.update C.suite cipher data).1,
        { w with ciphers :=
          Function.update w.ciphers t (some (Cipher.update C.suite cipher data).2) }) := by
  simp only [cipherUpdate, exec_bind, exec_get, exec_deref h hc, exec_modify]
  rfl

theorem exec_cipherFinal {cipher : Cipher C.Key UInt8} (h : w.writer.cipher = some t)
    (hc : w.ciphers t = some cipher) :
    exec (cipherFinal : Segment C ι (List UInt8)) w =
      (.ok (Cipher.final C.suite cipher),
        { w with ciphers := Function.update w.ciphers t none }) := by
  simp only [cipherFinal, exec_bind, exec_get, exec_deref h hc, exec_modify]
  rfl

theorem exec_decipherUpdate {decipher : Decipher C.Key UInt8} (h : w.reader.decipher = some t)
    (hd : w.deciphers t = some decipher) :
    exec (decipherUpdate data : Segment C ι (List UInt8)) w =
      (.ok (Decipher.update C.suite decipher data).1,
        { w with deciphers :=
          Function.update w.deciphers t (some (Decipher.update C.suite decipher data).2) }) := by
  simp only [decipherUpdate, exec_bind, exec_get, exec_deref h hd, exec_modify]
  rfl

theorem exec_decipherFinal {decipher : Decipher C.Key UInt8} (h : w.reader.decipher = some t)
    (hd : w.deciphers t = some decipher) :
    exec (decipherFinal : Segment C ι (List UInt8)) w =
      (EncryptedFileReader.final decipher,
        { w with deciphers := Function.update w.deciphers t none }) := by
  simp only [decipherFinal, exec_bind, exec_get, exec_deref h hd, exec_modify]
  rfl

end

end Logion
