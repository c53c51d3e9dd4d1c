import LamBoot.Menu.Default
import LamBoot.Menu.Events

/-!
# The text menu

`TextMenu::run_menu` of `console.rs`: one list of all entries and two actions, for consoles without
graphics. The default entry is looked for among all entries, tools included.
-/

namespace LamBoot.Menu

open Text

/-- The state of the loop. -/
structure TextState where
  selectedIndex : Nat := 0
  userInteracted : Bool := false
  elapsedFrames : UInt32 := 0

namespace TextState

section Turn

variable (lower : Lowercase) (entries : List BootEntry) (policy : Policy)

def hasBootable : Bool :=
  entries.any fun e => e.icon != .tools

def timeoutMs : UInt32 :=
  if hasBootable entries then policy.defaultTimeoutMs else 0

def autoIndex (s : TextState) : Nat :=
  match selectDefaultEntry lower entries (List.finRange entries.length) policy with
  | some idx => idx
  | none => s.selectedIndex

def onKey (s : TextState) (key : Key) : Outcome TextState entries.length :=
  let s := { s with userInteracted := true }
  match key with
  | .up =>
    .stay (if 0 < s.selectedIndex then { s with selectedIndex := s.selectedIndex - 1 } else s)
  | .down =>
    .stay
      (if s.selectedIndex < entries.length + 2 - 1 then
        { s with selectedIndex := s.selectedIndex + 1 }
      else s)
  | .enter => enter s
  | .char c =>
    if c = '\r' then enter s
    else if c.isDigit then
      let idx := c.toNat - '0'.toNat
      if h : idx < entries.length then .boot ⟨idx, h⟩ else .stay s
    else .stay s
  | .f2 => .firmwareSetup
  | .f12 => .reboot
  | .left => .stay s
  | .right => .stay s
  | .escape => .stay s
  | .f1 => .stay s
  | .backspace => .stay s
  | .tab => .stay s
where
  enter (s : TextState) : Outcome TextState entries.length :=
    if h : s.selectedIndex < entries.length then .boot ⟨s.selectedIndex, h⟩
    else if s.selectedIndex - entries.length = 0 then .firmwareSetup
    else .reboot

def onEvent (s : TextState) (event : InputEvent) : Outcome TextState entries.length :=
  match event with
  | .keyPress key => s.onKey entries key
  | .mouseMove _ _ => .stay s
  | .mouseClick _ _ _ => .stay s
  | .none => .stay { s with elapsedFrames := s.elapsedFrames + 1 }

/-- One turn of the loop of `run_menu`. -/
def turn (s : TextState) (event : InputEvent) : Outcome TextState entries.length :=
  if !s.userInteracted ∧ timeoutMs entries policy > 0 ∧
      s.elapsedFrames * 100 ≥ timeoutMs entries policy ∧ hasBootable entries then
    let idx := s.autoIndex lower entries policy
    if h : idx < entries.length then .boot ⟨idx, h⟩
    else { s with selectedIndex := idx }.onEvent entries event
  else s.onEvent entries event

end Turn

end TextState

end LamBoot.Menu
