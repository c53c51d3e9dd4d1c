import LamBoot.Discovery.Bls
import LamBoot.Library.Checked

/-!
# The metadata of a unified kernel image

The reader of PE sections in `uki.rs`, which runs on every image that is shown in the menu, and the
parser of the `os-release` text in one of them. Indices and slices trap where they leave their
range.
-/

namespace LamBoot

open List Text Bytes Checked

/-- A file that is read in ranges. A read may be short. -/
structure FileReader where
  readAt : Nat → Nat → Except FsError Bytes
  short : ∀ {offset len : Nat} {data : Bytes}, readAt offset len = .ok data → data.length ≤ len

def FileReader.ofContent (content : Bytes) : FileReader where
  readAt offset len := .ok (content.part offset len)
  short h := by
    rw [← Except.ok.inj h, part]
    exact length_take_le _ _

/-! ### The section table -/

/-- A section's name, and where the file has it. -/
structure SectionLoc where
  name : Bytes
  offset : Nat
  size : Nat
deriving DecidableEq, Repr

def sectionOsrel : Bytes := [0x2E, 0x6F, 0x73, 0x72, 0x65, 0x6C, 0, 0]
def sectionCmdline : Bytes := [0x2E, 0x63, 0x6D, 0x64, 0x6C, 0x69, 0x6E, 0x65]
def sectionUname : Bytes := [0x2E, 0x75, 0x6E, 0x61, 0x6D, 0x65, 0, 0]

abbrev ProbeM := Checked Unit

/-- `read_u16_le` and `read_u32_le`, which compute the end of the number as a `usize`. -/
def readNumLe {ε : Type} (width : Nat) (data : Bytes) (offset : Nat) : Checked ε Nat := do
  let _ ← add offset width
  readLe width data offset

def sectionLoc (header : Bytes) (sectionTable i : Nat) : ProbeM SectionLoc := do
  let entry ← add sectionTable (← mul i 40)
  let name ← slice header entry (← add entry 8)
  let rawSize ← readNumLe 4 header (← add entry 16)
  let rawOffset ← readNumLe 4 header (← add entry 20)
  return { name, offset := rawOffset, size := rawSize }

/-- The sections from number `i` on. -/
def sectionLocs (header : Bytes) (sectionTable : Nat) : Nat → Nat → ProbeM (List SectionLoc)
  | _, 0 => return []
  | i, count + 1 => do
    let loc ← sectionLoc header sectionTable i
    let rest ← sectionLocs header sectionTable (i + 1) count
    return loc :: rest

def parsePeSectionTable (header : Bytes) : ProbeM (Nat × List SectionLoc) := do
  refuseIf (header.length < 64) ()
  refuseIf ((← slice header 0 2) ≠ [0x4D, 0x5A]) ()
  let peOffset ← readNumLe 4 header 0x3C
  refuseIf (header.length < Checked.saturatingAdd peOffset 24) ()
  refuseIf ((← slice header peOffset (← add peOffset 4)) ≠ [0x50, 0x45, 0, 0]) ()
  let coffOffset ← add peOffset 4
  let machine ← readNumLe 2 header coffOffset
  let numSections ← readNumLe 2 header (← add coffOffset 2)
  let optHeaderSize ← readNumLe 2 header (← add coffOffset 16)
  let sectionTable ← add (← add coffOffset 20) optHeaderSize
  refuseIf (header.length < Checked.saturatingAdd sectionTable
    (Checked.saturatingMul numSections 40)) ()
  let sections ← sectionLocs header sectionTable 0 numSections
  return (machine, sections)

/-! ### `os-release` -/

structure OsReleaseInfo where
  prettyName : Option Text := none
  name : Option Text := none
  id : Option Text := none
  versionId : Option Text := none
deriving DecidableEq, Repr

def OsReleaseInfo.displayName (info : OsReleaseInfo) : Option Text :=
  (info.prettyName.or info.name).or info.id

def osReleaseText (data : Bytes) : Option Text :=
  (ofUtf8 data).or (ofUtf8 (data.takeWhile (· ≤ 0x7E)))

def Quoted (mark : Char) (value : Text) : Prop :=
  value.head? = some mark ∧ value.getLast? = some mark
deriving Decidable

/-- Strip the outer quotation marks: `&value[1..value.len() - 1]`. -/
def unquote (value : Text) : ProbeM Text :=
  if Quoted '"' value ∨ Quoted '\x27' value then
    if value.length - 1 < 1 then .error .trap else pure value.tail.dropLast
  else pure value

def OsReleaseInfo.set (info : OsReleaseInfo) (key value : Text) : OsReleaseInfo :=
  if key = "PRETTY_NAME" then { info with prettyName := some value }
  else if key = "NAME" then { info with name := some value }
  else if key = "ID" then { info with id := some value }
  else if key = "VERSION_ID" then { info with versionId := some value }
  else info

def assignment (line : Text) : Option (Text × Text) :=
  let line := trim line
  if line = [] ∨ line.head? = some '#' then none
  else (splitOnce '=' line).map fun (key, value) => (key, trim value)

def readAssignment (info : OsReleaseInfo) (line : Text) : ProbeM OsReleaseInfo :=
  match assignment line with
  | none => pure info
  | some (key, value) => do return info.set key (← unquote value)

def parseOsRelease (data : Bytes) : ProbeM OsReleaseInfo :=
  match osReleaseText data with
  | none => pure {}
  | some text => (lines text).foldlM readAssignment {}

/-! ### Metadata -/

/-- The bytes of the sections that are read. -/
structure SectionData where
  osrel : Option Bytes := none
  cmdline : Option Bytes := none
  uname : Option Bytes := none

/-- Read a section if it is one of the three. Of two with one name the later one counts. -/
def SectionData.collect (file : FileReader) (data : SectionData) (loc : SectionLoc) : SectionData :=
  if 65536 < loc.size then data
  else
    let bytes := (file.readAt loc.offset loc.size).toOption
    if loc.name = sectionOsrel then { data with osrel := bytes }
    else if loc.name = sectionCmdline then { data with cmdline := bytes }
    else if loc.name = sectionUname then { data with uname := bytes }
    else data

def sectionText (data : Bytes) : Option Text :=
  (ofUtf8 data).map fun s => trim (s.rdropWhile (· == '\x00'))

/-- The name that is shown, if there is an `os-release`. -/
def osNameOf : Option Bytes → ProbeM (Option Text)
  | none => pure none
  | some osrel => do return (← parseOsRelease osrel).displayName

def buildMetadata (data : SectionData) : ProbeM UkiMetadata := do
  let osName ← osNameOf data.osrel
  return {
    osName
    kernelVersion := data.uname.bind sectionText
    cmdline := data.cmdline.bind sectionText }

def readUkiMetadata (file : FileReader) : ProbeM UkiMetadata := do
  match file.readAt 0 4096 with
  | .error _ => refuse ()
  | .ok header => do
    let (_, sections) ← parsePeSectionTable header
    buildMetadata (sections.foldl (SectionData.collect file) {})

/-! ### The section table is read safely -/

section Table

variable {ε : Type} {header : Bytes} {offset width : Nat}

lemma safe_readNumLe (h : offset + width ≤ header.length) (hlen : header.length < wordSize) :
    Safe (readNumLe width header offset : Checked ε Nat) fun n => n < 256 ^ width := by
  refine .add (by omega) ?_
  refine .slice (by omega) h (safe_pure ?_)
  refine (leNat_lt _).trans_eq ?_
  rw [length_part (by omega), Nat.add_sub_cancel_left]

lemma safe_sectionLoc {sectionTable i : Nat} (h : sectionTable + (i * 40 + 40) ≤ header.length)
    (hlen : header.length < wordSize) :
    Safe (sectionLoc header sectionTable i) fun _ => True := by
  refine .mul (by omega) ?_
  refine .add (by omega) ?_
  refine .add (by omega) ?_
  refine .slice (by omega) (by omega) ?_
  refine .add (by omega) ?_
  refine .bind (safe_readNumLe (by omega) hlen) fun rawSize _ => ?_
  refine .add (by omega) ?_
  exact .bind (safe_readNumLe (by omega) hlen) fun rawOffset _ => safe_pure trivial

lemma safe_sectionLocs {sectionTable i count : Nat}
    (h : sectionTable + (i + count) * 40 ≤ header.length) (hlen : header.length < wordSize) :
    Safe (sectionLocs header sectionTable i count) fun _ => True := by
  induction count generalizing i with
  | zero => exact safe_pure trivial
  | succ count ih =>
    refine .bind (safe_sectionLoc (by omega) hlen) fun loc _ => ?_
    exact .bind (ih (by omega)) fun rest _ => safe_pure trivial

lemma safe_parsePeSectionTable (hlen : header.length < wordSize) :
    Safe (parsePeSectionTable header) fun _ => True := by
  have hword : wordSize = 2 ^ 64 := rfl
  refine .refuseIf fun h64 => ?_
  refine .slice (by omega) (by omega) ?_
  refine .refuseIf fun _ => ?_
  refine .bind (safe_readNumLe (by omega) hlen) fun peOffset _ => ?_
  refine .refuseIf fun hpe => ?_
  rw [Checked.saturatingAdd] at hpe
  refine .add (by omega) ?_
  refine .slice (by omega) (by omega) ?_
  refine .refuseIf fun _ => ?_
  refine .add (by omega) ?_
  refine .bind (safe_readNumLe (by omega) hlen) fun machine _ => ?_
  refine .add (by omega) ?_
  refine .bind (safe_readNumLe (by omega) hlen) fun numSections hsections => ?_
  refine .add (by omega) ?_
  refine .bind (safe_readNumLe (by omega) hlen) fun optHeaderSize hopt => ?_
  refine .add (by omega) ?_
  refine .add (by omega) ?_
  refine .refuseIf fun htable => ?_
  rw [Checked.saturatingAdd, Checked.saturatingMul] at htable
  exact .bind (safe_sectionLocs (by omega) hlen) fun sections _ => safe_pure trivial

end Table

/-! ### Where the parser of `os-release` traps -/

/-- A value that is one quotation mark. -/
def LoneQuote (line : Text) : Prop :=
  ∃ key value, assignment line = some (key, value) ∧ (value = ['"'] ∨ value = ['\x27'])

def HasLoneQuote (data : Bytes) : Prop :=
  ∃ text, osReleaseText data = some text ∧ ∃ line ∈ lines text, LoneQuote line

section OsRelease

variable {value : Text} {mark : Char}

lemma eq_singleton_of_quoted (h : Quoted mark value) (hlen : value.length - 1 < 1) :
    value = [mark] := by
  obtain ⟨hhead, -⟩ := h
  cases value with
  | nil => cases hhead
  | cons c rest =>
    obtain rfl : c = mark := Option.some.inj hhead
    have hrest : rest = [] := length_eq_zero_iff.mp (by simpa using hlen)
    rw [hrest]

lemma traps_unquote (h : value = ['"'] ∨ value = ['\x27']) : Traps (unquote value) := by
  rcases h with rfl | rfl
  · rfl
  · rfl

lemma exists_unquote_eq_ok (h : ¬ (value = ['"'] ∨ value = ['\x27'])) :
    ∃ s, unquote value = .ok s := by
  rw [not_or] at h
  unfold unquote
  split_ifs with hquoted hlen
  · rcases hquoted with hquoted | hquoted
    · exact absurd (eq_singleton_of_quoted hquoted hlen) h.1
    · exact absurd (eq_singleton_of_quoted hquoted hlen) h.2
  · exact ⟨_, rfl⟩
  · exact ⟨_, rfl⟩

lemma traps_parseOsRelease_iff {data : Bytes} :
    Traps (parseOsRelease data) ↔ HasLoneQuote data := by
  unfold parseOsRelease HasLoneQuote
  cases osReleaseText data with
  | none => exact ⟨nofun, nofun⟩
  | some text =>
    have hloop : Traps ((lines text).foldlM readAssignment {}) ↔
        ∃ line ∈ lines text, LoneQuote line := by
      refine traps_foldlM_iff ?_ ?_
      · rintro info line ⟨key, value, hline, hvalue⟩
        rw [readAssignment, hline]
        exact traps_bind_iff.mpr (.inl (traps_unquote hvalue))
      · intro info line hline
        unfold readAssignment
        cases hassign : assignment line with
        | none => exact ⟨info, rfl⟩
        | some kv =>
          obtain ⟨s, hs⟩ := exists_unquote_eq_ok fun h => hline ⟨kv.1, kv.2, hassign, h⟩
          refine ⟨info.set kv.1 s, ?_⟩
          dsimp only
          rw [hs]
          rfl
    simpa using hloop

end OsRelease

/-! ### Where the reader of metadata traps -/

/-- The bytes of the last `.osrel` section that is read, if they can be read. -/
def osrelBytes (file : FileReader) (sections : List SectionLoc) : Option Bytes :=
  (sections.filter fun loc => ¬ 65536 < loc.size ∧ loc.name = sectionOsrel).getLast?.bind
    fun loc => (file.readAt loc.offset loc.size).toOption

section Metadata

variable {file : FileReader}

lemma collect_osrel (data : SectionData) (loc : SectionLoc) :
    (data.collect file loc).osrel =
      if ¬ 65536 < loc.size ∧ loc.name = sectionOsrel then
        (file.readAt loc.offset loc.size).toOption
      else data.osrel := by
  unfold SectionData.collect
  split_ifs <;> tauto

lemma foldl_collect_osrel (sections : List SectionLoc) :
    (sections.foldl (SectionData.collect file) {}).osrel = osrelBytes file sections := by
  induction sections using List.reverseRecOn with
  | nil => rfl
  | append_singleton sections loc ih =>
    rw [foldl_append, foldl_cons, foldl_nil, collect_osrel, osrelBytes, filter_append]
    by_cases h : ¬ 65536 < loc.size ∧ loc.name = sectionOsrel
    · rw [if_pos h, filter_cons_of_pos (by simpa using h)]
      simp
    · rw [if_neg h, ih, filter_cons_of_neg (by simpa using h), osrelBytes]
      simp

lemma traps_buildMetadata_iff {data : SectionData} :
    Traps (buildMetadata data) ↔ ∃ osrel, data.osrel = some osrel ∧ HasLoneQuote osrel := by
  rw [buildMetadata, traps_bind_pure_iff]
  cases data.osrel with
  | none => exact ⟨nofun, nofun⟩
  | some osrel =>
    rw [osNameOf, traps_bind_pure_iff, traps_parseOsRelease_iff]
    simp

lemma traps_readUkiMetadata_iff :
    Traps (readUkiMetadata file) ↔
      ∃ header machine sections osrel, file.readAt 0 4096 = .ok header ∧
        parsePeSectionTable header = .ok (machine, sections) ∧
        osrelBytes file sections = some osrel ∧ HasLoneQuote osrel := by
  unfold readUkiMetadata
  cases hread : file.readAt 0 4096 with
  | error e => exact ⟨nofun, nofun⟩
  | ok header =>
    have hlen : header.length < wordSize :=
      (file.short hread).trans_lt (by decide)
    have htable := (safe_parsePeSectionTable hlen).not_traps
    simp only [traps_bind_iff, htable, false_or, traps_buildMetadata_iff, foldl_collect_osrel]
    constructor
    · rintro ⟨⟨machine, sections⟩, hsections, osrel, hosrel, hquote⟩
      exact ⟨header, machine, sections, osrel, rfl, hsections, hosrel, hquote⟩
    · rintro ⟨header', machine, sections, osrel, hheader, hsections, hosrel, hquote⟩
      obtain rfl := Except.ok.inj hheader
      exact ⟨(machine, sections), hsections, osrel, hosrel, hquote⟩

end Metadata

end LamBoot
