import LamBoot.Library.Python
import LamBoot.Trust.Decode

/-!
# Reading the trust log

`trust_log.py` of the inspector: a log is read line by line, each line as a JSON object, and the
events are sorted by their numbers.
-/

namespace LamBoot.Inspect

open Text Python

/-- `TrustEvent` of the inspector: the fields of a line, and where it was found. -/
structure ParsedEvent where
  seq : Int := 0
  event : Text := []
  path : Text := []
  size : Int := 0
  sha256 : Text := []
  verifiedVia : Text := []
  verifierTag : Text := []
  status : Text := []
  note : Text := []
  extra : Dict := []
  sourceLine : Nat := 0

def ParsedEvent.unplaced (e : ParsedEvent) : ParsedEvent :=
  { e with sourceLine := 0 }

structure ParseError where
  lineNumber : Nat
  raw : Text
  reason : Text

structure SchemaViolation where
  lineNumber : Nat
  event : ParsedEvent
  issues : List Text

structure ParseResult where
  events : List ParsedEvent
  parseErrors : List ParseError
  schemaViolations : List SchemaViolation
  sourceSha256 : Option Text

/-! ### The vocabulary -/

/-- The tokens that `verified_via` may have. -/
def verifiedViaTokens : List Text :=
  ["shim_mok", "shim_vendor", "firmware_db_fallback", "shim_sbat_rejected", "shim_not_enrolled",
    "shim_absent_after_driver_load", "firmware_db_rejected", "degraded_trust_sb_off",
    "security_override", "rejected", "sb_disabled"]

def rejectedTokens : List Text :=
  ["shim_sbat_rejected", "shim_not_enrolled", "shim_absent_after_driver_load",
    "firmware_db_rejected", "rejected"]

def failureEvents : List Text :=
  ["image_load_failed", "kernel_load_failed", "policy_invalid", "driver_rejected"]

namespace ParsedEvent

def isSuccess (e : ParsedEvent) : Bool :=
  if e.event ∈ failureEvents then false
  else if e.status ≠ [] ∧ e.status ∉ (["SUCCESS", "Success", ""] : List Text) then false
  else if e.verifiedVia ∈ rejectedTokens then false
  else true

def isFailure (e : ParsedEvent) : Bool :=
  !e.isSuccess

end ParsedEvent

/-! ### Checking -/

/-- `re.fullmatch` of 64 hex digits. -/
def isHexDigest (s : Text) : Bool :=
  s.length == 64 && s.all fun c => (Json.hexValue c).isSome

def imageVerified : Text := "image_verified"

def issue (found : Bool) (text : Text) : List Text :=
  if found then [text] else []

def validate (e : ParsedEvent) : List Text :=
  issue (e.event = []) "missing required field: event" ++
  issue (e.sha256 ≠ [] ∧ isHexDigest e.sha256 = false)
    "sha256 field is not a 64-char hex digest" ++
  issue (e.verifiedVia ≠ [] ∧ e.verifiedVia ∉ verifiedViaTokens ∧
      e.verifiedVia.head? ≠ some '_')
    ("verified_via token '" ++ e.verifiedVia ++
      "' is not in the stable vocabulary") ++
  issue (e.event = imageVerified ∧ e.sha256 = [])
    "image_verified event is missing sha256 (SDS-4 §6.4 invariant)" ++
  issue (e.event = imageVerified ∧ e.verifiedVia = [])
    "image_verified event is missing verified_via (SDS-4 §6.2)"

/-! ### Parsing -/

section Parsing

variable (py : Python)

def coerceInt : Json → Int
  | .int n => n
  | .str s => (py.intOfDigits s).getD 0
  | _ => 0

def coerceStr : Json → Text
  | .null => []
  | .str s => s
  | v => py.str v

def knownFields : List Text :=
  ["seq", "event", "path", "size", "sha256", "verified_via", "verifier_tag", "status", "note"]

def typeName : Json → Text
  | .null => "NoneType"
  | .bool _ => "bool"
  | .int _ => "int"
  | .real _ => "float"
  | .str _ => "str"
  | .arr _ => "list"
  | .obj _ => "dict"

def eventOfDict (obj : Dict) (lineNumber : Nat) : ParsedEvent where
  seq := coerceInt py ((obj.get "seq").getD (.int 0))
  event := coerceStr py ((obj.get "event").getD (.str []))
  path := coerceStr py ((obj.get "path").getD (.str []))
  size := coerceInt py ((obj.get "size").getD (.int 0))
  sha256 := coerceStr py ((obj.get "sha256").getD (.str []))
  verifiedVia := coerceStr py ((obj.get "verified_via").getD (.str []))
  verifierTag := coerceStr py ((obj.get "verifier_tag").getD (.str []))
  status := coerceStr py ((obj.get "status").getD (.str []))
  note := coerceStr py ((obj.get "note").getD (.str []))
  extra := obj.filter fun item => item.1 ∉ knownFields
  sourceLine := lineNumber

def parseLine (rawLine : Text) (lineNumber : Nat) : Except ParseError ParsedEvent :=
  let stripped := strip rawLine
  if stripped = [] then .error ⟨lineNumber, rawLine, "empty line"⟩
  else
    match Json.parse stripped with
    | none => .error ⟨lineNumber, rawLine, "json decode: " ++ py.jsonError stripped⟩
    | some (.obj members) => .ok (eventOfDict py (Dict.ofMembers members) lineNumber)
    | some v => .error ⟨lineNumber, rawLine, "expected object, got " ++ typeName v⟩

def sortsBefore (a b : ParsedEvent) : Bool :=
  a.seq < b.seq || (a.seq == b.seq && a.sourceLine ≤ b.sourceLine)

def sortEvents (events : List ParsedEvent) : List ParsedEvent :=
  if events.any (·.seq ≠ 0) then events.mergeSort sortsBefore else events

def readLines (lines : List Text) : List (Except ParseError ParsedEvent) :=
  (lines.zipIdx 1).filterMap fun line =>
    if strip line.1 = [] then none else some (parseLine py line.1 line.2)

lemma readLines_of_forall_ne {lines : List Text} (h : ∀ line ∈ lines, strip line ≠ []) :
    readLines py lines = (lines.zipIdx 1).map fun line => parseLine py line.1 line.2 := by
  rw [readLines, ← List.filterMap_eq_map]
  refine List.filterMap_congr fun line hline => ?_
  rw [if_neg (h line.1 (List.fst_mem_of_mem_zipIdx hline))]
  rfl

def violation (e : ParsedEvent) : Option SchemaViolation :=
  if validate e = [] then none else some ⟨e.sourceLine, e, validate e⟩

def errorOf : Except ParseError ParsedEvent → Option ParseError
  | .error e => some e
  | .ok _ => none

/-- `parse` of the bytes of a log. -/
def parse (source : Bytes) : ParseResult :=
  let results := readLines py (splitlines (py.decode source))
  let events := results.filterMap Except.toOption
  { events := sortEvents events
    parseErrors := results.filterMap errorOf
    schemaViolations := events.filterMap violation
    sourceSha256 := some (py.sha256 source) }

end Parsing

end LamBoot.Inspect
