import LamBoot.Library.Search

/-!
# The configuration that the host supplies

`fw_cfg_config.rs`: four fields are taken from the text of a JSON object. The object is not parsed.
A key is looked for as text between quotes, its value after the next colon.
-/

namespace LamBoot.FwCfg

open Text Search

/-- The fields of the host's configuration. -/
structure FwCfgConfig where
  fleetId : Option Text
  vmid : Option Text
  role : Option Text
  /-- The field `hostname`. -/
  hostNode : Option Text
deriving DecidableEq, Repr

def unescape (c : Char) : Char :=
  if c = 'n' then '\n'
  else if c = 'r' then '\r'
  else if c = 't' then '\t'
  else if c = 'b' then '\x08'
  else if c = 'f' then '\x0c'
  else c

def readString (escaped : Bool) (out : Text) : Text → Option Text
  | [] => none
  | c :: chars =>
    if escaped then readString false (out ++ [unescape c]) chars
    else if c = '\\' then readString true out chars
    else if c = '"' then if out = [] then none else some out
    else readString false (out ++ [c]) chars

def valueAfter (afterKey : Text) : Option Text :=
  (afterFirst [':'] afterKey).bind fun afterColon =>
    match trimStart afterColon with
    | '"' :: chars => readString false [] chars
    | _ => none

def extractStringField (input key : Text) : Option Text :=
  (afterFirst ('"' :: (key ++ ['"'])) input).bind valueAfter

def FwCfgConfig.parse (input : Text) : FwCfgConfig where
  fleetId := extractStringField input "fleet_id"
  vmid := extractStringField input "vmid"
  role := extractStringField input "role"
  hostNode := extractStringField input "hostname"

end LamBoot.FwCfg
