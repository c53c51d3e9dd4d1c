import LamBoot.Bls.Entry
import LamBoot.Fs.Path
import LamBoot.Library.Utf8

/-!
# Volumes

A mounted volume of `fs.rs`, as what its backend answers. The read surface takes strings with
either slash, and `glob` lists one directory with a prefix, suffix or infix pattern.
-/

namespace LamBoot

open Text

inductive FileKind where
  | regular
  | directory
  | symlink
  | other
deriving DecidableEq, Repr

structure DirEntry where
  name : Text
  kind : FileKind

/-- A mounted filesystem. Its contents are the answers of its backend. -/
structure Volume where
  backendTag : BackendTag
  label : Option Text := none
  read : PathBuf → Except FsError Bytes
  fileExists : PathBuf → Except FsError Bool
  readDir : PathBuf → Except FsError (List DirEntry)

def Volume.empty (backendTag : BackendTag) : Volume where
  backendTag
  read _ := .error .notFound
  fileExists _ := .ok false
  readDir _ := .error .notFound

def Volume.ofFiles (backendTag : BackendTag) (files : List (List Text × Text)) : Volume where
  backendTag
  read path :=
    match files.find? fun file => file.1 = path.segments with
    | some file => .ok (utf8 file.2)
    | none => .error .notFound
  fileExists path := .ok (files.any fun file => file.1 = path.segments)
  readDir path :=
    .ok ((files.filter fun file => file.1.dropLast = path.segments).filterMap fun file =>
      file.1.getLast?.map fun name => ⟨name, .regular⟩)

def canonicalPath (path : Text) : Except FsError PathBuf :=
  (PathBuf.fromStr (normalizePathString path)).mapError FsError.ofPathError

namespace Volume

def readStr (v : Volume) (path : Text) : Except FsError Bytes := do
  v.read (← canonicalPath path)

def readToStringStr (v : Volume) (path : Text) : Except FsError Text := do
  match ofUtf8 (← v.readStr path) with
  | some s => .ok s
  | none => .error (.invalidPath "non-UTF-8 file content")

def existsStr (v : Volume) (path : Text) : Bool :=
  match canonicalPath path with
  | .ok pb => (v.fileExists pb).toOption.getD false
  | .error _ => false

def readDirStr (v : Volume) (path : Text) : Except FsError (List Text) := do
  return (← v.readDir (← canonicalPath path)).map (·.name)

end Volume

def matchesGlob (name pattern : Text) : Bool :=
  if pattern = "*" ∨ pattern = "*.*" then true
  else if pattern.head? = some '*' ∧ pattern.getLast? = some '*' ∧ 2 ≤ pattern.length then
    decide (pattern.tail.dropLast <:+: name)
  else if pattern.head? = some '*' then decide (pattern.tail <:+ name)
  else if pattern.getLast? = some '*' then decide (pattern.dropLast <+: name)
  else name = pattern

def Volume.glob (v : Volume) (pattern : Text) : List Text :=
  match rsplitOnce '/' (normalizePathString pattern) with
  | none => []
  | some (before, filePattern) =>
    let dir := if before = [] then "/".toList else before
    match PathBuf.fromStr dir with
    | .error _ => []
    | .ok dirPb =>
      match v.readDir dirPb with
      | .error _ => []
      | .ok entries =>
        (entries.filter fun e => matchesGlob e.name filePattern).map fun e =>
          if dir = "/" then '/' :: e.name else dir ++ '/' :: e.name

end LamBoot
