import LamBoot.Fs.Volume
import LamBoot.Policy.Basic
import LamBoot.TrustEvent

/-!
# Reading policy.toml

The line parser of `policy.rs`: section headers, `key = value` lines and inline arrays, the keys it
knows, and the ceilings applied to what was read.
-/

namespace LamBoot

open Text

/-! ### Keys -/

def qualify (tomlSection key : Text) : Text :=
  if tomlSection = [] then key else tomlSection ++ '.' :: key

/-- The keys with a boolean value. -/
inductive BoolKey where
  | blsIgnoreSortKey
  | secureBootRequired
  | measuredBoot
  | watchdogEnabled
  | modulesEnabled
  | verbose
  | isoEnabled
  | isoOptical
  | selfInstall
deriving DecidableEq, Repr

namespace BoolKey

def tomlSection : BoolKey → Text
  | .blsIgnoreSortKey => []
  | .secureBootRequired | .measuredBoot => "security"
  | .watchdogEnabled => "watchdog"
  | .modulesEnabled => "modules"
  | .verbose => "diagnostics"
  | .isoEnabled | .isoOptical => "boot-from-iso"
  | .selfInstall => "boot-entry"

def name : BoolKey → Text
  | .blsIgnoreSortKey => "bls_ignore_sort_key"
  | .secureBootRequired => "secure_boot_required"
  | .measuredBoot => "measured_boot"
  | .watchdogEnabled | .modulesEnabled | .isoEnabled => "enabled"
  | .verbose => "verbose"
  | .isoOptical => "optical"
  | .selfInstall => "self_install"

def get : BoolKey → Policy → Bool
  | .blsIgnoreSortKey => Policy.blsIgnoreSortKey
  | .secureBootRequired => Policy.secureBootRequired
  | .measuredBoot => Policy.measuredBoot
  | .watchdogEnabled => Policy.watchdogEnabled
  | .modulesEnabled => Policy.modulesEnabled
  | .verbose => Policy.diagnosticsVerbose
  | .isoEnabled => Policy.isoEnabled
  | .isoOptical => Policy.isoOpticalEnabled
  | .selfInstall => Policy.selfInstallBootEntry

def set (k : BoolKey) (b : Bool) (policy : Policy) : Policy :=
  match k with
  | .blsIgnoreSortKey => { policy with blsIgnoreSortKey := b }
  | .secureBootRequired => { policy with secureBootRequired := b }
  | .measuredBoot => { policy with measuredBoot := b }
  | .watchdogEnabled => { policy with watchdogEnabled := b }
  | .modulesEnabled => { policy with modulesEnabled := b }
  | .verbose => { policy with diagnosticsVerbose := b }
  | .isoEnabled => { policy with isoEnabled := b }
  | .isoOptical => { policy with isoOpticalEnabled := b }
  | .selfInstall => { policy with selfInstallBootEntry := b }

/-- The value a text stands for: only `true` switches a key on, but for the one key that only
`false` switches off. -/
def read : BoolKey → Text → Bool
  | .selfInstall, value => value != "false"
  | _, value => value == "true"

end BoolKey

/-- The keys with a list of strings. -/
inductive ListKey where
  | fallbackOrder
  | allowlist
  | denylist
deriving DecidableEq, Repr

namespace ListKey

def tomlSection (_ : ListKey) : Text :=
  "security"

def name : ListKey → Text
  | .fallbackOrder => "fallback_order"
  | .allowlist => "allowlist"
  | .denylist => "denylist"

def get : ListKey → Policy → List Text
  | .fallbackOrder => Policy.fallbackOrder
  | .allowlist => Policy.allowlist
  | .denylist => Policy.denylist

def set (k : ListKey) (l : List Text) (policy : Policy) : Policy :=
  match k with
  | .fallbackOrder => { policy with fallbackOrder := l }
  | .allowlist => { policy with allowlist := l }
  | .denylist => { policy with denylist := l }

end ListKey

/-- The keys of policy.toml. -/
inductive ConfigKey where
  | version
  | defaultTimeoutMs
  | defaultEntry
  | defaultPattern
  | crashThreshold
  | theme
  | fontSize
  | graceSeconds
  | legacyUefiDrivers
  | nativePe
  | bool (k : BoolKey)
  | list (k : ListKey)
deriving DecidableEq, Repr

namespace ConfigKey

def qualified : ConfigKey → Text
  | .version => "version"
  | .defaultTimeoutMs => "default_timeout_ms"
  | .defaultEntry => "default_entry"
  | .defaultPattern => "default_pattern"
  | .crashThreshold => "security.crash_threshold"
  | .theme => "ui.theme"
  | .fontSize => "ui.font_size"
  | .graceSeconds => "watchdog.grace_seconds"
  | .legacyUefiDrivers => "drivers.legacy_uefi_drivers"
  | .nativePe => "loader.native_pe"
  | .bool k => qualify k.tomlSection k.name
  | .list k => qualify k.tomlSection k.name

def all : List ConfigKey :=
  [.version, .defaultTimeoutMs, .defaultEntry, .defaultPattern, .bool .blsIgnoreSortKey,
    .bool .secureBootRequired, .bool .measuredBoot, .crashThreshold, .list .fallbackOrder,
    .list .allowlist, .list .denylist, .theme, .fontSize, .bool .watchdogEnabled, .graceSeconds,
    .bool .modulesEnabled, .legacyUefiDrivers, .nativePe, .bool .verbose, .bool .isoEnabled,
    .bool .isoOptical, .bool .selfInstall]

def ofText (qualifiedKey : Text) : Option ConfigKey :=
  all.find? fun k => k.qualified = qualifiedKey

end ConfigKey

/-! ### Values -/

def DriversLegacyMode.parse (lower : Lowercase) (s : Text) : DriversLegacyMode :=
  let s := lower.apply s
  if s = "always" then .always else if s = "never" then .never else .auto

def LoaderNativePeMode.parse (lower : Lowercase) (s : Text) : LoaderNativePeMode :=
  let s := lower.apply s
  if s = "always" then .always else if s = "never" then .never else .auto

def FontSize.parse (s : Text) : FontSize :=
  if s = "small" then .small else if s = "large" then .large else .medium

def stripItem (s : Text) : Text :=
  trimMatches '\'' (trimMatches '"' (trim s))

def arrayItems (inner : Text) : List Text :=
  ((inner.splitOn ',').map stripItem).filter (· ≠ [])

def parseTomlArray (raw : Text) : List Text :=
  let raw := trim raw
  arrayItems <|
    if raw.head? = some '[' ∧ raw.getLast? = some ']' then raw.tail.dropLast else raw

/-! ### Lines -/

section Parse

variable (lower : Lowercase)

/-- The effect of a value on the field of its key. A number that cannot be read changes nothing. -/
def ConfigKey.apply (k : ConfigKey) (policy : Policy) (rawValue : Text) : Policy :=
  let value := trimMatches '"' rawValue
  match k with
  | .version =>
    match parseUnsigned (2 ^ 32) value with
    | some n => { policy with version := UInt32.ofNat n }
    | none => policy
  | .defaultTimeoutMs =>
    match parseUnsigned (2 ^ 32) value with
    | some n => { policy with defaultTimeoutMs := UInt32.ofNat n }
    | none => policy
  | .defaultEntry => { policy with defaultEntry := some value }
  | .defaultPattern => { policy with defaultPattern := some value }
  | .crashThreshold =>
    match parseUnsigned (2 ^ 8) value with
    | some n => { policy with crashThreshold := UInt8.ofNat n }
    | none => policy
  | .theme => { policy with uiTheme := value }
  | .fontSize => { policy with uiFontSize := .parse value }
  | .graceSeconds =>
    match parseUnsigned (2 ^ 32) value with
    | some n => { policy with watchdogGraceSeconds := UInt32.ofNat n }
    | none => policy
  | .legacyUefiDrivers => { policy with driversLegacy := .parse lower value }
  | .nativePe => { policy with loaderNativePe := .parse lower value }
  | .bool k => k.set (k.read value) policy
  | .list k => k.set (parseTomlArray rawValue) policy

def applyConfigValue (policy : Policy) (qualifiedKey rawValue : Text) : Policy :=
  match ConfigKey.ofText qualifiedKey with
  | some k => k.apply lower policy rawValue
  | none => policy

def readPolicyLine (state : Text × Policy) (line : Text) : Text × Policy :=
  let line := trim line
  if line = [] ∨ line.head? = some '#' then state
  else if line.head? = some '[' then
    match rsplitOnce ']' line with
    | some (before, _) => (trim before.tail, state.2)
    | none => state
  else
    match splitOnce '=' line with
    | some (key, value) =>
      (state.1, applyConfigValue lower state.2 (qualify state.1 (trim key)) (trim value))
    | none => state

def parsePolicyToml (toml : Text) : Policy :=
  ((lines toml).foldl (readPolicyLine lower) ([], {})).2

end Parse

/-! ### Ceilings -/

def maxCrashThreshold : UInt8 := 10

def maxWatchdogGraceSeconds : UInt32 := 300

/-- A field that was adjusted. -/
structure PolicyClampReport where
  field : Text
  espValue : Text
  floorValue : Text

/-- Apply the compiled-in ceilings. The two postures a hardened build may require are off here. -/
def applyPolicyFloor (policy : Policy) : Policy × List PolicyClampReport :=
  let crash := policy.crashThreshold > maxCrashThreshold
  let grace := policy.watchdogGraceSeconds > maxWatchdogGraceSeconds
  ({ policy with
      crashThreshold := if crash then maxCrashThreshold else policy.crashThreshold,
      watchdogGraceSeconds :=
        if grace then maxWatchdogGraceSeconds else policy.watchdogGraceSeconds },
    (if crash then
      [⟨"crash_threshold", decimal policy.crashThreshold.toNat, decimal maxCrashThreshold.toNat⟩]
    else []) ++
    (if grace then
      [⟨"watchdog_grace_seconds", decimal policy.watchdogGraceSeconds.toNat,
        decimal maxWatchdogGraceSeconds.toNat⟩]
    else []))

def loadPolicy (lower : Lowercase) (esp : Volume) :
    Except Status (Policy × List PolicyClampReport) := do
  let content ← (esp.readToStringStr "/EFI/LamBoot/policy.toml").mapError FsError.toUefiStatus
  return applyPolicyFloor (parsePolicyToml lower content)

end LamBoot
