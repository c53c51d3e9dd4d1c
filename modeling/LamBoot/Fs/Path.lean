import LamBoot.Uefi

/-!
# Paths and filesystem errors

`PathBuf` of `fs_types.rs`: absolute paths without empty, `.` or `..` segments. Call sites write
paths with either slash and go through `normalize_path_string` first.
-/

namespace LamBoot

open List Text

inductive PathError where
  | empty
  | notAbsolute
  | aboveRoot
deriving DecidableEq, Repr

def ProperSegment (s : Text) : Prop :=
  s ≠ [] ∧ s ≠ "." ∧ s ≠ ".." ∧ '/' ∉ s
deriving Decidable

/-- A canonical, absolute path, as the list of its segments. -/
structure PathBuf where
  segments : List Text
  proper : ∀ s ∈ segments, ProperSegment s

instance : DecidableEq PathBuf := fun p q =>
  decidable_of_iff (p.segments = q.segments) (by cases p; cases q; simp)

/-- The loop of `from_str`: the segments read so far, from the last one back. -/
def resolveSegments : List Text → List Text → Except PathError (List Text)
  | stack, [] => .ok stack.reverse
  | stack, s :: rest =>
    if s = [] ∨ s = "." then resolveSegments stack rest
    else if s = ".." then
      match stack with
      | [] => .error .aboveRoot
      | _ :: stack => resolveSegments stack rest
    else resolveSegments (s :: stack) rest

lemma resolveSegments_proper {stack input out : List Text}
    (hstack : ∀ s ∈ stack, ProperSegment s) (hinput : ∀ s ∈ input, '/' ∉ s)
    (h : resolveSegments stack input = .ok out) : ∀ s ∈ out, ProperSegment s := by
  induction input generalizing stack with
  | nil =>
    cases h
    simpa using hstack
  | cons s rest ih =>
    have hrest : ∀ s ∈ rest, '/' ∉ s := fun t ht => hinput t (mem_cons_of_mem _ ht)
    unfold resolveSegments at h
    split_ifs at h with h1 h2
    · exact ih hstack hrest h
    · cases stack with
      | nil => cases h
      | cons t stack => exact ih (fun u hu => hstack u (mem_cons_of_mem _ hu)) hrest h
    · refine ih (fun t ht => ?_) hrest h
      rcases mem_cons.mp ht with rfl | ht
      · rw [not_or] at h1
        exact ⟨h1.1, h1.2, h2, hinput t mem_cons_self⟩
      · exact hstack t ht

def PathBuf.fromStr (s : Text) : Except PathError PathBuf :=
  if s = [] then .error .empty
  else if s.head? ≠ some '/' then .error .notAbsolute
  else
    match h : resolveSegments [] (s.splitOn '/') with
    | .ok segments =>
      .ok ⟨segments, resolveSegments_proper (by simp) (fun _ => not_mem_of_mem_splitOn) h⟩
    | .error e => .error e

def PathBuf.asStr (p : PathBuf) : Text :=
  if p.segments = [] then "/" else p.segments.flatMap ('/' :: ·)

def PathBuf.join (p : PathBuf) (child : Text) : Except PathError PathBuf :=
  if child.head? = some '/' then PathBuf.fromStr child
  else
    let s := p.asStr
    if s.getLast? = some '/' then PathBuf.fromStr (s ++ child)
    else PathBuf.fromStr (s ++ '/' :: child)

def normalizePathString (s : Text) : Text :=
  if s = [] then "/"
  else
    let translated := replaceChar '\\' '/' s
    if translated.head? = some '/' then translated else '/' :: translated

/-! ### Errors -/

inductive FsError where
  | notFound
  | permissionDenied
  | isDirectory
  | notDirectory
  | invalidPath (reason : Text)
  | unsupported (what : Text)
  | unsupportedFeature (feature backend : Text)
  | corrupt (what : Text)
  | integrityFailed (what : Text)
  | fileTooLarge (size max : Nat)
  | io (source : Status)
  | backendOther (message : Text)
deriving DecidableEq, Repr

def FsError.toUefiStatus : FsError → Status
  | .notFound => .notFound
  | .permissionDenied => .accessDenied
  | .isDirectory | .notDirectory | .invalidPath _ => .invalidParameter
  | .unsupported _ | .unsupportedFeature _ _ => .unsupported
  | .corrupt _ => .volumeCorrupted
  | .integrityFailed _ => .securityViolation
  | .fileTooLarge _ _ => .outOfResources
  | .io source => source
  | .backendOther _ => .deviceError

/-- `Display` of a filesystem error, given that of a firmware status. -/
def FsError.display (displayStatus : Status → Text) : FsError → Text
  | .notFound => "not found"
  | .permissionDenied => "permission denied"
  | .isDirectory => "is a directory"
  | .notDirectory => "not a directory"
  | .invalidPath reason => "invalid path: " ++ reason
  | .unsupported what => "unsupported: " ++ what
  | .unsupportedFeature feature backend =>
    "unsupported feature " ++ feature ++ " on backend " ++ backend
  | .corrupt what => "filesystem corrupt: " ++ what
  | .integrityFailed what => "integrity verification failed: " ++ what
  | .fileTooLarge size max =>
    "file too large: " ++ Nat.toDigits 10 size ++ " bytes exceeds cap " ++
      Nat.toDigits 10 max
  | .io source => "I/O error: " ++ displayStatus source
  | .backendOther message => "backend error: " ++ message

def FsError.ofPathError : PathError → FsError
  | .empty => .invalidPath "empty"
  | .notAbsolute => .invalidPath "not absolute"
  | .aboveRoot => .invalidPath "above root"

end LamBoot
