import LamBoot.Library.Text

/-!
# Policy

The policy of `policy.rs`: its settings with their defaults, and the path filter. A pattern with a
star is matched after `to_lowercase`, one without by `eq_ignore_ascii_case`.
-/

namespace LamBoot

open Text

inductive FontSize where
  | small
  | medium
  | large
deriving DecidableEq, Repr

/-- Legacy UEFI-filesystem-driver load policy. -/
inductive DriversLegacyMode where
  | auto
  | always
  | never
deriving DecidableEq, Repr

/-- Native PE loader policy. -/
inductive LoaderNativePeMode where
  | auto
  | always
  | never
deriving DecidableEq, Repr

def LoaderNativePeMode.asLogToken : LoaderNativePeMode → Text
  | .auto => "auto"
  | .always => "always"
  | .never => "never"

structure Policy where
  version : UInt32 := 1
  defaultTimeoutMs : UInt32 := 5000
  defaultEntry : Option Text := none
  defaultPattern : Option Text := none
  blsIgnoreSortKey : Bool := false
  secureBootRequired : Bool := false
  measuredBoot : Bool := true
  fallbackOrder : List Text := []
  allowlist : List Text := []
  denylist : List Text := []
  uiTheme : Text := "default"
  uiFontSize : FontSize := .medium
  watchdogEnabled : Bool := true
  watchdogGraceSeconds : UInt32 := 15
  crashThreshold : UInt8 := 3
  modulesEnabled : Bool := true
  driversLegacy : DriversLegacyMode := .auto
  loaderNativePe : LoaderNativePeMode := .auto
  diagnosticsVerbose : Bool := false
  isoEnabled : Bool := false
  isoOpticalEnabled : Bool := false
  selfInstallBootEntry : Bool := true
deriving DecidableEq, Repr

/-! ### The path filter -/

section PathFilter

variable (lower : Lowercase)

def pathMatchesPattern (path pattern : Text) : Bool :=
  if pattern = "*" then true
  else
    let pathLower := lower.apply path
    let patternLower := lower.apply pattern
    if '*' ∈ patternLower then
      if patternLower.head? = some '*' ∧ patternLower.getLast? = some '*' then
        decide (patternLower.tail.dropLast <:+: pathLower)
      else if patternLower.head? = some '*' then decide (patternLower.tail <:+ pathLower)
      else if patternLower.getLast? = some '*' then decide (patternLower.dropLast <+: pathLower)
      else pathLower == patternLower
    else pathLower == patternLower

/-- The test `allowed` and `is_denied` make for one entry of a list. -/
def matchesEntry (path pattern : Text) : Bool :=
  if '*' ∈ pattern then pathMatchesPattern lower path pattern else eqIgnoreAsciiCase path pattern

namespace Policy

def isDenied (policy : Policy) (path : Text) : Bool :=
  policy.denylist.any (matchesEntry lower path)

def allowed (policy : Policy) (path : Text) : Bool :=
  if policy.allowlist.isEmpty then !policy.isDenied lower path
  else policy.allowlist.any (matchesEntry lower path) && !policy.isDenied lower path

end Policy

end PathFilter

end LamBoot
