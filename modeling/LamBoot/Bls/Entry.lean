import LamBoot.Library.Text

/-!
# Boot Loader Specification entries

The pure parser of `bls_parse.rs` for Type 1 entries: the boot counters in the file name and the
keys of the file. A parsed entry always names something to boot, either by `linux` or by `efi`.
-/

namespace LamBoot

open Text

abbrev BackendTag := Text

/-- A parsed BLS Type 1 entry. -/
structure BlsEntry where
  /-- File name without `.conf` and boot-count suffix. -/
  id : Text
  filename : Text
  title : Option Text := none
  version : Option Text := none
  machineId : Option Text := none
  sortKey : Option Text := none
  linux : Option Text := none
  initrd : List Text := []
  efi : Option Text := none
  options : List Text := []
  architecture : Option Text := none
  triesLeft : Option UInt32 := none
  triesDone : Option UInt32 := none
  sourceVolumeIndex : Nat := 0
  sourceBackendTag : BackendTag := []
deriving DecidableEq, Repr

def BlsEntry.sameContent (a b : BlsEntry) : Bool :=
  a.id == b.id && a.filename == b.filename && a.title == b.title && a.version == b.version &&
    a.machineId == b.machineId && a.sortKey == b.sortKey && a.linux == b.linux &&
    a.initrd == b.initrd && a.efi == b.efi && a.options == b.options &&
    a.architecture == b.architecture && a.triesLeft == b.triesLeft && a.triesDone == b.triesDone

/-- Boot-count state derived from `tries_left`. -/
inductive BootCountState where
  | good
  | indeterminate
  | bad
deriving DecidableEq, Repr

namespace BlsEntry

def bootCountState (entry : BlsEntry) : BootCountState :=
  match entry.triesLeft with
  | none => .good
  | some n => if n = 0 then .bad else .indeterminate

end BlsEntry

/-- `parse::<u32>().ok()`. -/
def parseU32 (s : Text) : Option UInt32 :=
  (parseUnsigned (2 ^ 32) s).map UInt32.ofNat

def normalizePath (path : Text) : Text :=
  let s := replaceChar '/' '\\' path
  if s.head? = some '\\' then s else '\\' :: s

/-- The entry before its fields are read: the id and the counters come from the file name
`<base>+<tries_left>[-<tries_done>].conf`. -/
def BlsEntry.ofFilename (filename : Text) : BlsEntry :=
  let nameWithoutExt := trimEndMatches ".conf" filename
  match rsplitOnce '+' nameWithoutExt with
  | some (id, countPart) =>
    match splitOnce '-' countPart with
    | some (left, done) =>
      { id, filename, triesLeft := parseU32 left, triesDone := parseU32 done }
    | none => { id, filename, triesLeft := parseU32 countPart, triesDone := some 0 }
  | none => { id := nameWithoutExt, filename }

def BlsEntry.setKey (entry : BlsEntry) (key value : Text) : BlsEntry :=
  if key = "title" then { entry with title := some value }
  else if key = "version" then { entry with version := some value }
  else if key = "machine-id" then { entry with machineId := some value }
  else if key = "sort-key" then { entry with sortKey := some value }
  else if key = "linux" then { entry with linux := some (normalizePath value) }
  else if key = "efi" then { entry with efi := some (normalizePath value) }
  else if key = "initrd" then
    { entry with initrd := entry.initrd ++ (splitWhitespace value).map normalizePath }
  else if key = "options" then { entry with options := entry.options ++ [value] }
  else if key = "architecture" then { entry with architecture := some value }
  else entry

def BlsEntry.readLine (entry : BlsEntry) (line : Text) : BlsEntry :=
  let line := trim line
  if line = [] ∨ line.head? = some '#' then entry
  else
    match line.dropWhile (!isAsciiWhitespace ·) with
    | [] => entry
    | rest => entry.setKey (line.takeWhile (!isAsciiWhitespace ·)) (trimStart rest)

/-- Parse a BLS entry from a `.conf` file name and contents. -/
def BlsEntry.parse (filename content : Text) : Option BlsEntry :=
  let entry := (lines content).foldl BlsEntry.readLine (BlsEntry.ofFilename filename)
  if entry.linux.isNone && entry.efi.isNone then none else some entry

variable {entry : BlsEntry}

lemma BlsEntry.parse_linux_or_efi {filename content : Text}
    (h : BlsEntry.parse filename content = some entry) :
    entry.linux ≠ none ∨ entry.efi ≠ none := by
  simp only [BlsEntry.parse] at h
  split_ifs at h with hnone
  cases h
  simp only [Bool.and_eq_true, Option.isNone_iff_eq_none, not_and_or] at hnone
  exact hnone

/-- An entry has the id and the counters of a file name. -/
structure BlsEntry.NamedBy (entry : BlsEntry) (name : Text) : Prop where
  id : entry.id = (BlsEntry.ofFilename name).id
  filename : entry.filename = name
  triesLeft : entry.triesLeft = (BlsEntry.ofFilename name).triesLeft
  triesDone : entry.triesDone = (BlsEntry.ofFilename name).triesDone

lemma BlsEntry.namedBy_ofFilename (filename : Text) :
    (BlsEntry.ofFilename filename).NamedBy filename := by
  refine ⟨rfl, ?_, rfl, rfl⟩
  unfold BlsEntry.ofFilename
  dsimp only
  split
  · split <;> rfl
  · rfl

lemma BlsEntry.NamedBy.readLine {filename : Text} (h : entry.NamedBy filename)
    (line : Text) : (entry.readLine line).NamedBy filename := by
  have hset : ∀ key value, (entry.setKey key value).NamedBy filename := by
    intro key value
    unfold BlsEntry.setKey
    split_ifs <;> exact ⟨h.id, h.filename, h.triesLeft, h.triesDone⟩
  unfold BlsEntry.readLine
  dsimp only
  split_ifs
  · exact h
  · split
    · exact h
    · exact hset _ _

lemma BlsEntry.parse_namedBy {filename content : Text}
    (h : BlsEntry.parse filename content = some entry) : entry.NamedBy filename := by
  have hfold : ∀ (rest : List Text) (e : BlsEntry), e.NamedBy filename →
      (rest.foldl BlsEntry.readLine e).NamedBy filename := by
    intro rest
    induction rest with
    | nil => exact fun e he => he
    | cons line rest ih => exact fun e he => ih _ (he.readLine line)
  simp only [BlsEntry.parse] at h
  split_ifs at h
  cases h
  exact hfold _ _ (BlsEntry.namedBy_ofFilename filename)

/-! ### What an entry boots with -/

def stripGrubVariables (s : Text) : Text :=
  join " " ((splitWhitespace s).filter fun token => token.head? != some '$')

def BlsEntry.combinedOptions (entry : BlsEntry) : Text :=
  stripGrubVariables (join " " entry.options)

/-- The initrd paths without GRUB variables, in the bare form and in the two normalised ones. -/
def BlsEntry.cleanedInitrd (entry : BlsEntry) : List Text :=
  entry.initrd.filter fun s =>
    !("$".toList.isPrefixOf s) && !("\\$".toList.isPrefixOf s) && !("/$".toList.isPrefixOf s)

/-! ### File names and architectures -/

def hasExtensionIgnoreCase (filename ext : Text) : Bool :=
  match rsplitOnce '.' filename with
  | none => false
  | some (_, after) => eqIgnoreAsciiCase after ext

def isNativeArchitecture (lower : Lowercase) (arch : Text) : Bool :=
  let archLower := lower.apply arch
  archLower == "x64" || archLower == "x86_64" || archLower == "x86-64"

/-! ### Boot counting -/

/-- The number of digits after the last `marker` of a file name. -/
def countDigitsInFilename (filename : Text) (marker : Char) : Nat :=
  match rsplitOnce marker (trimEndMatches ".conf" filename) with
  | some (_, after) => (after.takeWhile Char.isDigit).length
  | none => 0

def padZeros (width n : Nat) : Text :=
  let digits := Nat.toDigits 10 n
  List.replicate (width - digits.length) '0' ++ digits

/-- The file name after one more try, which `decrement_boot_count` renames an entry to. An entry
without tries left keeps its name. -/
def BlsEntry.decrementedFilename (entry : BlsEntry) : Option Text :=
  match entry.triesLeft with
  | none => none
  | some triesLeft =>
    if triesLeft = 0 then none
    else
      let newLeft := triesLeft.toNat - 1
      let newDone := min (2 ^ 32 - 1) ((entry.triesDone.getD 0).toNat + 1)
      let leftWidth := max (countDigitsInFilename entry.filename '+') 1
      let doneWidth := countDigitsInFilename entry.filename '-'
      let newSuffix :=
        if 0 < doneWidth then
          '+' :: padZeros leftWidth newLeft ++ '-' :: padZeros (max doneWidth 1) newDone
        else '+' :: padZeros leftWidth newLeft
      some (entry.id ++ newSuffix ++ ".conf")

end LamBoot
