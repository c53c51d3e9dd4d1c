import LamBoot.Library.Checked
import LamBoot.Library.Text

/-!
# PE headers

The parser and the checks of `pe_loader_pure.rs`, on any byte string, and the copy of the sections
in `pe_loader.rs`. All offsets are taken from the image itself. Reads of the input, additions and
the copies trap where they would leave their range.
-/

namespace LamBoot.Pe

open Bytes Checked

/-! ### Limits and constants -/

def maxImageSize : Nat := 256 * 1024 * 1024
def maxSections : Nat := 256
def pe32PlusMagic : Nat := 0x20B
def pe32Magic : Nat := 0x10B
def machineX86_64 : Nat := 0x8664
def machineAarch64 : Nat := 0xAA64
def subsystemEfiApplication : Nat := 10
def subsystemEfiBootServiceDriver : Nat := 11
def subsystemEfiRuntimeDriver : Nat := 12

def imageScnMemExecute : Nat := 0x20000000

/-- What LamBoot is built for. -/
inductive Target where
  | x86_64
  | aarch64
  | other
deriving DecidableEq, Repr

def Target.expectedMachine : Target → Nat
  | .x86_64 | .other => machineX86_64
  | .aarch64 => machineAarch64

inductive PeLoadError where
  | tooShort (have_ need : Nat)
  | badDosSignature
  | ntOffsetOutOfBounds (offset : Nat)
  | badNtSignature
  | unsupportedMachine (machine : Nat)
  | unsupportedPe32
  | badOptionalHeaderMagic (magic : Nat)
  | unsupportedSubsystem (subsystem : Nat)
  | imageTooLarge (claimed max : Nat)
  | tooManySections (claimed max : Nat)
  | hasImports
  | hasTlsCallbacks
  | sectionOutOfBounds (sectionIndex : Nat) (detail : Text)
  | relocationMalformed (detail : Text)
  | unsupportedRelocationType (relocType : Nat)
  | entryPointOutOfBounds
  | parseFailed (detail : Text)
deriving DecidableEq, Repr

/-- Copy plan of one section. -/
structure SectionPlan where
  index : Nat
  virtAddr : Nat
  virtSize : Nat
  rawOffset : Nat
  copyLen : Nat
  executable : Bool
deriving DecidableEq, Repr

structure DataDir where
  virtualAddress : Nat
  size : Nat
deriving DecidableEq, Repr

structure PeSummary where
  machine : Nat
  subsystem : Nat
  preferredBase : Nat
  sizeOfImage : Nat
  entryRva : Nat
  numSections : Nat
  optMagic : Nat
  sections : List SectionPlan
  relocDir : Option DataDir
  importDirSize : Nat
  tlsDirSize : Nat
  entryInExecutableSection : Bool
deriving DecidableEq, Repr

/-! ### Parsing -/

abbrev PeM := Checked PeLoadError

/-- A little-endian number of `width` bytes. -/
def rd (width : Nat) (message : Text) (b : Bytes) (off : Nat) : PeM Nat := do
  let stop ← add off width
  match get? b off stop with
  | some s => return leNat s
  | none => refuse (.parseFailed message)

def rdU16 : Bytes → Nat → PeM Nat := rd 2 "u16 read past end of image"
def rdU32 : Bytes → Nat → PeM Nat := rd 4 "u32 read past end of image"
def rdU64 : Bytes → Nat → PeM Nat := rd 8 "u64 read past end of image"

def indexU32 (b : Bytes) (start stop : Nat) : PeM Nat := do
  return leNat (← slice b start stop)

/-- `.ok()`: errors are dropped, but not a trap. -/
def ok? {α : Type} (x : PeM α) : PeM (Option α) :=
  match x with
  | .ok a => pure (some a)
  | .error (.failed _) => pure none
  | .error .trap => .error .trap

/-- The data directory `idx`, absent if it is not counted, not in the input, or all zero. -/
def readDataDir (bytes : Bytes) (start nRva idx : Nat) : PeM (Option DataDir) := do
  if nRva ≤ idx then return none
  let off ← add start (← mul idx 8)
  let some virtualAddress ← ok? (rdU32 bytes off) | return none
  let some size ← ok? (rdU32 bytes (← add off 4)) | return none
  if virtualAddress = 0 ∧ size = 0 then return none
  return some ⟨virtualAddress, size⟩

/-- The number between two offsets from `base`. -/
def tableU32 (b : Bytes) (base start stop : Nat) : PeM Nat := do
  indexU32 b (← add base start) (← add base stop)

def readSection (bytes : Bytes) (start i : Nat) : PeM SectionPlan := do
  let base ← add start (← mul i 40)
  let virtSize ← tableU32 bytes base 8 12
  let virtAddr ← tableU32 bytes base 12 16
  let rawSize ← tableU32 bytes base 16 20
  let rawOffset ← tableU32 bytes base 20 24
  let characteristics ← tableU32 bytes base 36 40
  return {
    index := i
    virtAddr
    virtSize
    rawOffset
    copyLen := min rawSize virtSize
    executable := characteristics &&& imageScnMemExecute != 0 }

def entryIn (entryRva : Nat) (plan : SectionPlan) : PeM Bool := do
  if plan.executable ∧ plan.virtAddr ≤ entryRva then
    return entryRva < (← add plan.virtAddr plan.virtSize)
  return false

/-- The loop over the section table, from its entry `i` on. -/
def readSections (bytes : Bytes) (start entryRva : Nat) :
    Nat → Nat → PeM (List SectionPlan × Bool)
  | _, 0 => return ([], false)
  | i, count + 1 => do
    let plan ← readSection bytes start i
    let here ← entryIn entryRva plan
    let (rest, found) ← readSections bytes start entryRva (i + 1) count
    return (plan :: rest, here || found)

def parsePe32Plus (bytes : Bytes) (machine numSections sizeOfOptionalHeader optOff : Nat) :
    PeM PeSummary := do
  let entryRva ← rdU32 bytes (← add optOff 0x10)
  let preferredBase ← rdU64 bytes (← add optOff 0x18)
  let sizeOfImage ← rdU32 bytes (← add optOff 0x38)
  let subsystem ← rdU16 bytes (← add optOff 0x44)
  let numberOfRvaAndSizes ← rdU32 bytes (← add optOff 0x6C)
  let dataDirStart ← add optOff 0x70
  let importDir ← readDataDir bytes dataDirStart numberOfRvaAndSizes 1
  let relocDir ← readDataDir bytes dataDirStart numberOfRvaAndSizes 5
  let tlsDir ← readDataDir bytes dataDirStart numberOfRvaAndSizes 9
  refuseIf (maxSections < numSections) (.tooManySections numSections maxSections)
  let sectionsOffsetStart ← add optOff sizeOfOptionalHeader
  let needed := Checked.saturatingMul numSections 40
  refuseIf (bytes.length < Checked.saturatingAdd sectionsOffsetStart needed)
    (.parseFailed "section table extends past file end")
  let (sections, entryInExecutableSection) ←
    readSections bytes sectionsOffsetStart entryRva 0 numSections
  return {
    machine
    subsystem
    preferredBase
    sizeOfImage
    entryRva
    numSections
    optMagic := pe32PlusMagic
    sections
    relocDir
    importDirSize := importDir.elim 0 (·.size)
    tlsDirSize := tlsDir.elim 0 (·.size)
    entryInExecutableSection }

def parseHeaders (bytes : Bytes) : PeM PeSummary := do
  refuseIf (bytes.length < 64) (.tooShort bytes.length 64)
  refuseIf ((← slice bytes 0 2) ≠ [0x4D, 0x5A]) .badDosSignature
  let eLfanew ← indexU32 bytes 0x3C 0x40
  refuseIf (bytes.length < Checked.saturatingAdd eLfanew 4) (.ntOffsetOutOfBounds eLfanew)
  let ntOff := eLfanew
  refuseIf ((← slice bytes ntOff (← add ntOff 4)) ≠ [0x50, 0x45, 0, 0]) .badNtSignature
  let coffOff ← add ntOff 4
  let machine ← rdU16 bytes coffOff
  let numSections ← rdU16 bytes (← add coffOff 2)
  let sizeOfOptionalHeader ← rdU16 bytes (← add coffOff 16)
  let optOff ← add coffOff 20
  let optMagic ← rdU16 bytes optOff
  if optMagic ≠ pe32PlusMagic then
    return {
      machine
      subsystem := 0
      preferredBase := 0
      sizeOfImage := 0
      entryRva := 0
      numSections
      optMagic
      sections := []
      relocDir := none
      importDirSize := 0
      tlsDirSize := 0
      entryInExecutableSection := false }
  parsePe32Plus bytes machine numSections sizeOfOptionalHeader optOff

/-! ### Validation -/

def validateSection (sizeOfImage : Nat) (bytes : Bytes) (plan : SectionPlan) : PeM Unit := do
  let virtEnd := Checked.saturatingAdd plan.virtAddr plan.virtSize
  refuseIf (sizeOfImage < virtEnd)
    (.sectionOutOfBounds plan.index "virtual range exceeds SizeOfImage")
  let rawEnd := Checked.saturatingAdd plan.rawOffset plan.copyLen
  refuseIf (0 < plan.copyLen ∧ bytes.length < rawEnd)
    (.sectionOutOfBounds plan.index "raw range exceeds input")

def validateHeaders (target : Target) (s : PeSummary) (bytes : Bytes) : PeM Unit := do
  refuseIf (s.machine ≠ target.expectedMachine) (.unsupportedMachine s.machine)
  refuseIf (s.optMagic = pe32Magic) .unsupportedPe32
  refuseIf (s.optMagic ≠ pe32PlusMagic) (.badOptionalHeaderMagic s.optMagic)
  refuseIf (s.subsystem ≠ subsystemEfiApplication ∧ s.subsystem ≠ subsystemEfiBootServiceDriver ∧
      s.subsystem ≠ subsystemEfiRuntimeDriver) (.unsupportedSubsystem s.subsystem)
  refuseIf (maxImageSize < s.sizeOfImage) (.imageTooLarge s.sizeOfImage maxImageSize)
  refuseIf (s.importDirSize ≠ 0) .hasImports
  refuseIf (s.tlsDirSize ≠ 0) .hasTlsCallbacks
  s.sections.forM (validateSection s.sizeOfImage bytes)
  refuseIf (s.sizeOfImage ≤ s.entryRva) .entryPointOutOfBounds
  refuseIf (s.entryInExecutableSection = false) .entryPointOutOfBounds

/-! ### The copy -/

def copySection (bytes image : Bytes) (plan : SectionPlan) : PeM Bytes := do
  if plan.copyLen = 0 then return image
  let src ← slice bytes plan.rawOffset (plan.rawOffset + plan.copyLen)
  let _ ← slice image plan.virtAddr (plan.virtAddr + plan.copyLen)
  return image.patch plan.virtAddr src

/-- `load_pe` up to the copy of the sections, for an image of `SizeOfImage` zeros. -/
def loadSections (target : Target) (bytes : Bytes) : PeM (PeSummary × Bytes) := do
  let summary ← parseHeaders bytes
  validateHeaders target summary bytes
  let image ← summary.sections.foldlM (copySection bytes) (List.replicate summary.sizeOfImage 0)
  return (summary, image)

end LamBoot.Pe
