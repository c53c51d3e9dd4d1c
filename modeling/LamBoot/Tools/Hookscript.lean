import LamBoot.Library.Digits

/-!
# The writer of a guest's configuration

`write_per_vm_json` of `lamboot-hookscript.pl`: the body of the file that the guest sees, line by
line, with the fields that the toggles leave out.
-/

namespace LamBoot.Tools.Hookscript

open Text

/-! ### Strings -/

/-- `s/c/r/g`. -/
def substitute (c : Char) (r : Text) (s : Text) : Text :=
  s.flatMap fun d => if d = c then r else [d]

/-- `sprintf('\\u%04x', ord($1))`. -/
def unicodeEscape (c : Char) : Text :=
  let digits := Nat.toDigits 16 c.toNat
  '\\' :: 'u' :: (List.replicate (4 - digits.length) '0' ++ digits)

def jsonStr (s : Text) : Text :=
  let s := substitute '\\' ['\\', '\\'] s
  let s := substitute '"' ['\\', '"'] s
  let s := substitute '\x08' ['\\', 'b'] s
  let s := substitute '\x0c' ['\\', 'f'] s
  let s := substitute '\n' ['\\', 'n'] s
  let s := substitute '\r' ['\\', 'r'] s
  let s := substitute '\t' ['\\', 't'] s
  let s := s.flatMap fun c => if c.toNat ≤ 0x1f then unicodeEscape c else [c]
  '"' :: (s ++ ['"'])

def escape (c : Char) : Text :=
  if c = '\\' then ['\\', '\\']
  else if c = '"' then ['\\', '"']
  else if c = '\x08' then ['\\', 'b']
  else if c = '\x0c' then ['\\', 'f']
  else if c = '\n' then ['\\', 'n']
  else if c = '\r' then ['\\', 'r']
  else if c = '\t' then ['\\', 't']
  else if c.toNat ≤ 0x1f then unicodeEscape c
  else [c]

lemma jsonStr_eq (s : Text) : jsonStr s = '"' :: (s.flatMap escape ++ ['"']) := by
  simp only [jsonStr, substitute, List.flatMap_assoc]
  congr 3
  funext c
  unfold escape
  split_ifs with h1 h2 h3 h4 h5 h6 h7 h8
  · subst h1
    decide
  · subst h2
    decide
  · subst h3
    decide
  · subst h4
    decide
  · subst h5
    decide
  · subst h6
    decide
  · subst h7
    decide
  · simp [h2, h3, h4, h5, h6, h7, h8]
  · simp [h2, h3, h4, h5, h6, h7, h8]

/-! ### The file -/

/-- The time of `gmtime`. -/
structure UtcTime where
  year : Nat
  month : Nat
  day : Nat
  hour : Nat
  minute : Nat
  second : Nat

/-- `strftime('%Y-%m-%dT%H:%M:%SZ', gmtime)`. -/
def isoUtcNow (t : UtcTime) : Text :=
  Nat.toDigits 10 t.year ++ '-' :: (Digits.padded 2 t.month).text ++
    '-' :: (Digits.padded 2 t.day).text ++ 'T' :: (Digits.padded 2 t.hour).text ++
    ':' :: (Digits.padded 2 t.minute).text ++ ':' :: (Digits.padded 2 t.second).text ++ ['Z']

/-- The toggles of the section `[hookscript]`. -/
structure Hooks where
  injectVmid : Option Bool := none
  injectFleetId : Option Bool := none
  injectRole : Option Bool := none

/-- The arguments of `write_per_vm_json`, without the path. -/
structure PerVm where
  vmid : Text
  hostname : Text
  fleetId : Option Text
  role : Option Text
  tags : Option (List Text)
  hooks : Hooks := {}

namespace PerVm

variable (a : PerVm)

def injectVmid : Bool := a.hooks.injectVmid.getD true
def injectFid : Bool := a.hooks.injectFleetId.getD true
def injectRole : Bool := a.hooks.injectRole.getD true

def fieldLine (name value : Text) : Text :=
  "  \"" ++ name ++ "\": " ++ jsonStr value ++ [',']

/-- `'[' . join(',', map { json_str($_) } @$tags) . ']'`. -/
def tagsJson : Text :=
  '[' :: (join [','] ((a.tags.getD []).map jsonStr) ++ [']'])

def fields (now : UtcTime) : List (Text × Text) :=
  [("schema_version".toList, "v1".toList)] ++
  (if a.injectVmid then [("vmid".toList, a.vmid)] else []) ++
  [("hostname".toList, a.hostname)] ++
  (if a.injectFid then [("fleet_id".toList, a.fleetId.getD [])] else []) ++
  (if a.injectRole then [("role".toList, a.role.getD [])] else []) ++
  [("written_by".toList, "lamboot-hookscript 0.8.4".toList), ("written_at".toList, isoUtcNow now)]

def lines (now : UtcTime) : List Text :=
  ["\x7b".toList] ++ ((a.fields now).map fun (name, value) => fieldLine name value) ++
  ["  \"tags_at_setup\": ".toList ++ a.tagsJson, "\x7d".toList]

/-- The body that `write_per_vm_json` prints. -/
def writePerVmJson (now : UtcTime) : Text :=
  join ['\n'] (a.lines now) ++ ['\n']

end PerVm

end LamBoot.Tools.Hookscript
