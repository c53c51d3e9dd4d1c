import LamBoot.Fs.Path
import LamBoot.Library.Stateful

/-!
# Files on a FAT volume

The file operations of the firmware, and what `fs_backend_fat.rs` makes of them. The firmware may
refuse any operation, after any part of its effect, and may stop for good during one; one that
succeeds does what it is for. A driver tells names apart up to a folding of their characters, as FAT
does with the case of letters.
-/

namespace LamBoot

open Text Stateful Function

/-! ### The firmware -/

inductive FileNode where
  | file (content : Bytes)
  | directory
deriving DecidableEq, Repr

abbrev Disk := Text → Option FileNode

def Disk.content (d : Disk) (name : Text) : Option Bytes :=
  match d name with
  | some (.file content) => some content
  | _ => none

section Content

variable {d : Disk} {name name' : Text} {node : Option FileNode} {content : Bytes}

lemma Disk.content_eq_some_iff : d.content name = some content ↔ d name = some (.file content) := by
  unfold Disk.content
  split <;> simp_all

@[simp] lemma Disk.content_update_self :
    Disk.content (update d name (some (.file content))) name = some content := by
  simp [Disk.content_eq_some_iff]

@[simp] lemma Disk.content_update_none : Disk.content (update d name none) name = none := by
  simp [Disk.content]

lemma Disk.content_update_of_ne (h : name' ≠ name) :
    Disk.content (update d name node) name' = d.content name' := by
  simp [Disk.content, h]

end Content

inductive FileMode where
  | read
  | readWrite
  | createReadWrite
deriving DecidableEq, Repr

/-- The operations of the firmware. -/
inductive FileOp where
  | openProtocol
  | openVolume
  | openFile (path : Text) (mode : FileMode)
  | getPosition
  | setPosition
  | getInfo
  | read
  | write
  | delete
deriving DecidableEq, Repr

/-- How an operation goes. Where it does not succeed, a write has written the first `progress`
bytes, and a file is created or deleted all the same if `progress` is not zero. -/
inductive Answer where
  | succeeds
  | fails (status : Status) (progress : Nat)
  | halts (progress : Nat)
deriving DecidableEq, Repr

/-- A driver: how names are folded, and how the operation at each moment goes. -/
structure FatDriver where
  fold : Char → Char
  answer : Nat → FileOp → Answer

/-- The volume as the firmware has it, and the number of operations so far. -/
structure Media where
  disk : Disk
  clock : Nat

/-- Why a computation does not go on: with an error, or because nothing runs any more. -/
inductive Stop where
  | failed (e : FsError)
  | halted
deriving DecidableEq, Repr

def Stop.error? : Stop → Option FsError
  | .failed e => some e
  | .halted => none

abbrev FatM := EStateM Stop Media

def fsResult {σ α : Type} (r : Except FsError α) : EStateM Stop σ α :=
  ofExcept (r.mapError Stop.failed)

lemma fsResult_ok_bind {σ α β ε : Type} {a : α} {g : ε → FsError} {f : α → EStateM Stop σ β} :
    fsResult ((.ok a : Except ε α).mapError g) >>= f = f a := rfl

/-- An open file. -/
structure FileHandle where
  name : Text
  position : Nat
deriving DecidableEq, Repr

/-- The bytes of a file after `data` is written over it at a position. -/
def writeAt (content : Bytes) (position : Nat) (data : Bytes) : Bytes :=
  content.take position ++ data ++ content.drop (position + data.length)

def endOfFile : Nat := 2 ^ 64 - 1

def seek (content : Bytes) (position : Nat) : Nat :=
  if position = endOfFile then content.length else position

namespace FatDriver

variable {α : Type} (driver : FatDriver)

/-- One operation: what it comes to, and what of its effect remains where it does not succeed. -/
def perform (op : FileOp) (partly : Nat → Disk → Disk)
    (result : Disk → Except Status (α × Disk)) : FatM α := fun m =>
  match driver.answer m.clock op with
  | .succeeds =>
    match result m.disk with
    | .ok (a, disk) => .ok a ⟨disk, m.clock + 1⟩
    | .error status => .error (.failed (.io status)) ⟨m.disk, m.clock + 1⟩
  | .fails status progress =>
    .error (.failed (.io status)) ⟨partly progress m.disk, m.clock + 1⟩
  | .halts progress => .error .halted ⟨partly progress m.disk, m.clock + 1⟩

section Perform

variable {driver} {op : FileOp} {partly : Nat → Disk → Disk}
  {result : Disk → Except Status (α × Disk)} {m : Media}

lemma perform_of_ok {a : α} {disk : Disk} (ha : driver.answer m.clock op = .succeeds)
    (hr : result m.disk = .ok (a, disk)) :
    driver.perform op partly result m = .ok a ⟨disk, m.clock + 1⟩ := by
  simp only [perform, ha, hr]

lemma perform_of_error {status : Status} (ha : driver.answer m.clock op = .succeeds)
    (hr : result m.disk = .error status) :
    driver.perform op partly result m = .error (.failed (.io status)) ⟨m.disk, m.clock + 1⟩ := by
  simp only [perform, ha, hr]

lemma perform_of_fails {status : Status} {progress : Nat}
    (ha : driver.answer m.clock op = .fails status progress) :
    driver.perform op partly result m =
      .error (.failed (.io status)) ⟨partly progress m.disk, m.clock + 1⟩ := by
  simp only [perform, ha]

lemma perform_of_halts {progress : Nat} (ha : driver.answer m.clock op = .halts progress) :
    driver.perform op partly result m = .error .halted ⟨partly progress m.disk, m.clock + 1⟩ := by
  simp only [perform, ha]

end Perform

lemma map_eq_ok_iff {β ε : Type} {r : Except ε α} {f : α → β} {b : β} :
    r.map f = .ok b ↔ ∃ a, r = .ok a ∧ f a = b := by
  cases r <;> simp [Except.map]

def query (op : FileOp) (result : Disk → Except Status α) : FatM α :=
  driver.perform op (fun _ disk => disk) fun disk => (result disk).map fun a => (a, disk)

def onContent (file : FileHandle) (result : Bytes → Except Status α) (disk : Disk) :
    Except Status α :=
  match disk.content file.name with
  | some content => result content
  | none => .error .deviceError

variable {file : FileHandle}

lemma onContent_eq_ok_iff {result : Bytes → Except Status α} {disk : Disk}
    {a : α} : onContent file result disk = .ok a ↔
      ∃ content, disk.content file.name = some content ∧ result content = .ok a := by
  unfold onContent
  cases disk.content file.name <;> simp

def queryFile (op : FileOp) (file : FileHandle) (result : Bytes → Except Status α) : FatM α :=
  driver.query op (onContent file result)

def openVolume : FatM Unit :=
  driver.query .openVolume fun _ => .ok ()

def stored (path : Text) : Text :=
  path.map driver.fold

def opened (name : Text) (disk : Disk) : Except Status FileHandle :=
  match disk name with
  | some _ => .ok ⟨name, 0⟩
  | none => .error .notFound

lemma opened_eq_ok_iff {name : Text} {disk : Disk} :
    opened name disk = .ok file ↔ disk name ≠ none ∧ file = ⟨name, 0⟩ := by
  unfold opened
  cases disk name <;> simp [eq_comm]

def created (name : Text) (node : FileNode) (disk : Disk) : Disk :=
  match disk name with
  | some _ => disk
  | none => update disk name (some node)

section Created

variable {name : Text} {d : Disk}

lemma created_of_none {node : FileNode} (h : d name = none) :
    created name node d = update d name (some node) := by
  simp [created, h]

lemma created_of_some {node node' : FileNode} (h : d name = some node) :
    created name node' d = d := by
  simp [created, h]

end Created

/-- Open a path. `node` is what is created where the mode asks for that. -/
def openFile (path : Text) (mode : FileMode) (node : FileNode) : FatM FileHandle :=
  match mode with
  | .read | .readWrite => driver.query (.openFile path mode) (opened (driver.stored path))
  | .createReadWrite =>
    driver.perform (.openFile path mode)
      (fun progress disk => if progress = 0 then disk else created (driver.stored path) node disk)
      fun disk => .ok (⟨driver.stored path, 0⟩, created (driver.stored path) node disk)

def positionIn (file : FileHandle) (disk : Disk) : Except Status Nat :=
  match disk file.name with
  | some (.file _) => .ok file.position
  | some .directory => .error .unsupported
  | none => .error .deviceError

lemma positionIn_eq_ok_iff {disk : Disk} {n : Nat} :
    positionIn file disk = .ok n ↔
      (∃ content, disk.content file.name = some content) ∧ n = file.position := by
  unfold positionIn Disk.content
  split <;> simp_all [eq_comm]

def getPosition (file : FileHandle) : FatM Nat :=
  driver.query .getPosition (positionIn file)

/-- `into_regular_file`: a file is regular when the firmware gives its position. -/
def intoRegularFile (file : FileHandle) : FatM (Option FileHandle) := do
  match ← attempt Stop.error? (driver.getPosition file) with
  | .ok _ => return some file
  | .error _ => return none

def setPosition (file : FileHandle) (position : Nat) : FatM FileHandle :=
  driver.queryFile .setPosition file fun content =>
    .ok { file with position := seek content position }

/-- The size of a file, from its `FileInfo`. -/
def fileSize (file : FileHandle) : FatM Nat :=
  driver.queryFile .getInfo file fun content => .ok content.length

/-- Read up to `len` bytes. -/
def read (file : FileHandle) (len : Nat) : FatM Bytes :=
  driver.queryFile .read file fun content =>
    if content.length < file.position then .error .deviceError
    else .ok ((content.drop file.position).take len)

/-- The disk after `data` is written to an open file. -/
def written (file : FileHandle) (data : Bytes) (disk : Disk) : Disk :=
  match disk.content file.name with
  | some content =>
    update disk file.name (some (.file (writeAt content file.position data)))
  | none => disk

lemma written_new {name : Text} {d : Disk} {data : Bytes} :
    written ⟨name, 0⟩ data (update d name (some (.file []))) =
      update d name (some (.file data)) := by
  simp [written, Disk.content, writeAt]

def write (file : FileHandle) (data : Bytes) : FatM Unit :=
  driver.perform .write (fun progress => written file (data.take progress))
    fun disk => .ok ((), written file data disk)

def deleted (file : FileHandle) (disk : Disk) : Disk :=
  update disk file.name none

def delete (file : FileHandle) : FatM Unit :=
  driver.perform .delete (fun progress disk => if progress = 0 then disk else deleted file disk)
    fun disk => .ok ((), deleted file disk)

end FatDriver

/-! ### The backend -/

def toUefiPath (path : PathBuf) : Except FsError Text :=
  let s := path.asStr
  let translated := if s = "/".toList then "\\".toList else replaceChar '/' '\\' s
  match cstring16 translated with
  | some _ => .ok translated
  | none => .error (.invalidPath "non-BMP codepoint")

def maxBootFileBytes : Nat := 512 * 1024 * 1024

def checkedFullReadLen (size : Nat) : Except FsError Nat :=
  if maxBootFileBytes < size then .error (.fileTooLarge size maxBootFileBytes) else .ok size

section Backend

variable (driver : FatDriver)

def regularOrErr (handle : FileHandle) : FatM FileHandle := do
  match ← driver.intoRegularFile handle with
  | some file => return file
  | none => throw (.failed .isDirectory)

def openFileRead (path : PathBuf) : FatM FileHandle := do
  let cstr ← fsResult (toUefiPath path)
  let handle ← driver.openFile cstr .read (.file [])
  regularOrErr driver handle

/-- Read a file whole, as `read`, `fat_append` and `fat_rename` do. -/
def readThroughSfs (path : PathBuf) : FatM Bytes := do
  driver.openVolume
  let file ← openFileRead driver path
  let size ← fsResult (checkedFullReadLen (← driver.fileSize file))
  driver.read file size

def fatReadAt (path : PathBuf) (offset len : Nat) : FatM Bytes := do
  driver.openVolume
  let file ← openFileRead driver path
  let file ← driver.setPosition file offset
  driver.read file len

def removeExisting (cstr : Text) : FatM Unit := do
  match ← attempt Stop.error? (driver.openFile cstr .readWrite (.file [])) with
  | .ok existing =>
    match ← driver.intoRegularFile existing with
    | some file =>
      let _ ← attempt Stop.error? (driver.delete file)
    | none => return ()
  | .error _ => return ()

def fatWrite (path : PathBuf) (data : Bytes) : FatM Unit := do
  driver.openVolume
  let cstr ← fsResult (toUefiPath path)
  -- Deleted first, since opening a file to write does not truncate it.
  removeExisting driver cstr
  let handle ← driver.openFile cstr .createReadWrite (.file [])
  let file ← regularOrErr driver handle
  driver.write file data

def deleteOrErr (file : FileHandle) : FatM Unit := do
  match ← attempt Stop.error? (driver.delete file) with
  | .ok () => return ()
  | .error _ => throw (.failed (.io .deviceError))

def deleteOld (oldCstr : Text) : FatM Unit := do
  let handleOld ← driver.openFile oldCstr .readWrite (.file [])
  match ← driver.intoRegularFile handleOld with
  | some file => deleteOrErr driver file
  | none => return ()

def fatRename (dirPath : PathBuf) (oldName newName : Text) : FatM Unit := do
  let oldFull ← fsResult ((dirPath.join oldName).mapError FsError.ofPathError)
  let newFull ← fsResult ((dirPath.join newName).mapError FsError.ofPathError)
  let content ← readThroughSfs driver oldFull
  fatWrite driver newFull content
  driver.openVolume
  let oldCstr ← fsResult (toUefiPath oldFull)
  deleteOld driver oldCstr

/-- Append by reading the file and writing it again. A file that is missing is reported as a
firmware status, not as `NotFound`. -/
def fatAppend (path : PathBuf) (data : Bytes) : FatM Unit := do
  let existing ←
    match ← attempt Stop.error? (readThroughSfs driver path) with
    | .ok bytes => pure bytes
    | .error .notFound => pure []
    | .error e => throw (.failed e)
  fatWrite driver path (existing ++ data)

def fatTrueAppend (path : PathBuf) (data : Bytes) : FatM Unit := do
  driver.openVolume
  let cstr ← fsResult (toUefiPath path)
  let handle ← driver.openFile cstr .createReadWrite (.file [])
  let file ← regularOrErr driver handle
  let file ← driver.setPosition file endOfFile
  driver.write file data

def fatEnsureDir (path : PathBuf) : FatM Unit := do
  driver.openVolume
  let cstr ← fsResult (toUefiPath path)
  let _ ← driver.openFile cstr .createReadWrite .directory

def fatDelete (path : PathBuf) : FatM Unit := do
  driver.openVolume
  let cstr ← fsResult (toUefiPath path)
  let handle ← driver.openFile cstr .readWrite (.file [])
  match ← driver.intoRegularFile handle with
  | some file => deleteOrErr driver file
  | none => throw (.failed .isDirectory)

end Backend

def Disk.ofFiles (files : List (Text × Bytes)) : Disk := fun name =>
  (files.find? fun file => file.1 = name).map fun file => .file file.2

def FatDriver.failsOnce (moment : Nat) : FatDriver where
  fold := Char.toLower
  answer clock _ := if clock = moment then .fails .deviceError 0 else .succeeds

end LamBoot
