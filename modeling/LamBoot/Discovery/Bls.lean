import LamBoot.Bls.Sort
import LamBoot.Boot.Types
import LamBoot.Fs.Volume
import LamBoot.Library.Selection
import LamBoot.Policy.Basic
import LamBoot.TrustEvent

/-!
# Discovery of BLS entries

The volume side of the Boot Loader Specification in `bls.rs`, the search for initrds of
`autodiscovery.rs`, and the removal of copies and the notice about sort-keys of `discovery.rs`.
-/

namespace LamBoot

open Text

/-- The metadata sections of a unified kernel image that the menu shows. -/
structure UkiMetadata where
  osName : Option Text
  kernelVersion : Option Text
  cmdline : Option Text

/-- What discovery takes from elsewhere: the standard library, the firmware, and the reader of PE
sections. -/
structure Surroundings where
  lower : Lowercase
  sort : SliceSort
  sha256 : Bytes → Bytes
  displayStatus : Status → Text
  readUkiMetadata : Volume → Text → Option UkiMetadata
  scanOpticalHandles : List (Nat × Text)
  bootedViaRemovableFallback : Bool

/-! ### Initrds -/

def extractKernelVersion (path : Text) : Text :=
  let filename := afterLast '\\' path
  match filename.dropPrefix? "vmlinuz-" with
  | some version => version
  | none =>
    match filename.dropPrefix? "linux-" with
    | some version => version
    | none => filename

def extractDirectory (path : Text) : Text :=
  match rsplitOnce '\\' path with
  | some (before, _) => before
  | none => []

/-- The places where the initramfs of a kernel is looked for. -/
def initramfsPaths (kernelPath : Text) : List Text :=
  let version := extractKernelVersion kernelPath
  let dir := extractDirectory kernelPath
  [dir ++ "\\initramfs-".toList ++ version ++ ".img".toList,
    dir ++ "\\initrd.img-".toList ++ version, dir ++ "\\initrd-".toList ++ version,
    dir ++ "\\initramfs-".toList ++ version ++ "-fallback.img".toList,
    "\\boot\\initramfs-".toList ++ version ++ ".img".toList,
    "\\boot\\initrd.img-".toList ++ version, "\\boot\\initrd-".toList ++ version,
    "\\initramfs-".toList ++ version ++ ".img".toList, "\\initrd.img-".toList ++ version]

def microcodePaths (kernelPath : Text) : List Text :=
  ["\\intel-ucode.img".toList, "\\amd-ucode.img".toList].map (extractDirectory kernelPath ++ ·)

/-- The initramfs of the kernel `linux` in the directory of a kernel. -/
def archInitramfs (kernelPath : Text) : Text :=
  extractDirectory kernelPath ++ "\\initramfs-linux.img".toList

def findInitrd (kernelPath : Text) (volume : Volume) : List Text :=
  let version := extractKernelVersion kernelPath
  let microcode := (microcodePaths kernelPath).find? volume.existsStr
  match (initramfsPaths kernelPath).find? volume.existsStr with
  | some main => microcode.toList ++ [main]
  | none =>
    if (version = "linux".toList ∨ "linux-".toList.isPrefixOf version) ∧
        volume.existsStr (archInitramfs kernelPath) then
      microcode.toList ++ [archInitramfs kernelPath]
    else microcode.toList

/-! ### Scanning a volume -/

def toBootEntry (entry : BlsEntry) : BootEntry :=
  let name :=
    entry.title.getD <|
      match entry.version with
      | some version => "Linux " ++ version
      | none => entry.id
  let ofKind (kind : EntryKind) : BootEntry :=
    { id := "bls-" ++ entry.id, name, kind, icon := .linux,
      blsFilename := some entry.filename, sourceVolumeIndex := entry.sourceVolumeIndex,
      sourceBackendTag := entry.sourceBackendTag }
  match entry.efi with
  | some efiPath => ofKind (.chainload efiPath)
  | none =>
    match entry.linux with
    | some linuxPath =>
      ofKind (.linuxLegacy linuxPath entry.cleanedInitrd entry.combinedOptions)
    | none =>
      -- not reached, since parsing has validated the entry
      { id := entry.id, name, kind := .chainload [], icon := .linux,
        sourceVolumeIndex := entry.sourceVolumeIndex, sourceBackendTag := entry.sourceBackendTag }

section Scan

variable (env : Surroundings) (policy : Policy)

def isConfName (filename : Text) : Bool :=
  hasExtensionIgnoreCase filename "conf" && !(filename.head? == some '.') &&
    !("auto-".toList.isPrefixOf filename)

/-- The filters on a parsed entry: its architecture and, for the kernel it names, the policy. -/
def acceptsBls (entry : BlsEntry) : Bool :=
  entry.architecture.all (isNativeArchitecture env.lower) &&
    entry.linux.all (policy.allowed env.lower)

def withInitrd (volume : Volume) (entry : BlsEntry) : BlsEntry :=
  match entry.initrd, entry.linux with
  | [], some linuxPath => { entry with initrd := findInitrd linuxPath volume }
  | _, _ => entry

def scanConf (volume : Volume) (volumeIndex : Nat) (filename : Text) :
    Option TrustEvent × Option BlsEntry :=
  let path := "/loader/entries/" ++ filename
  let source :=
    "volume_index=" ++ decimal volumeIndex ++ " backend=" ++ volume.backendTag
  if !isConfName filename then (none, none)
  else
    match volume.readToStringStr path with
    | .error e =>
      (some
        { event := "bls_entry_read_failed", path,
          note := source ++ " err=" ++ e.display env.displayStatus }, none)
    | .ok content =>
      match BlsEntry.parse filename content with
      | some entry =>
        let entry :=
          { entry with sourceVolumeIndex := volumeIndex, sourceBackendTag := volume.backendTag }
        (none, if acceptsBls env policy entry then some (withInitrd volume entry) else none)
      | none =>
        (some
          { event := "bls_entry_invalid", path,
            note := source ++ " parse=missing_linux_or_efi" }, none)

def scanVolumeForBls (volume : Volume) (volumeIndex : Nat) : List TrustEvent × List BlsEntry :=
  match volume.readDirStr "/loader/entries" with
  | .error _ => ([], [])
  | .ok filenames =>
    let scanned := filenames.map (scanConf env policy volume volumeIndex)
    let entries := scanned.filterMap (·.2)
    let found : TrustEvent :=
      { event := "bls_entries_found",
        note := "volume_index=" ++ decimal volumeIndex ++ " backend=" ++
          volume.backendTag ++ " count=" ++ decimal entries.length }
    (scanned.filterMap (·.1) ++ [found],
      env.sort.apply (fun a b => blsSortCompare a b policy.blsIgnoreSortKey) entries)

end Scan

/-! ### Entries of all volumes -/

/-- One step of `dedup_bls_entries`. A file of a name seen before is dropped where its content is
that of the first file of the name, and kept and reported where it is not. -/
def dedupBlsStep (done : List TrustEvent × List BlsEntry) (entry : BlsEntry) :
    List TrustEvent × List BlsEntry :=
  match done.2.find? fun e => eqIgnoreAsciiCase e.filename entry.filename with
  | none => (done.1, done.2 ++ [entry])
  | some e =>
    if e.sameContent entry then done
    else
      let event : TrustEvent :=
        { event := "bls_duplicate_filename", path := entry.filename,
          note := "volume_a=" ++ decimal e.sourceVolumeIndex ++ " backend_a=" ++
            e.sourceBackendTag ++ " volume_b=" ++ decimal entry.sourceVolumeIndex ++
            " backend_b=" ++ entry.sourceBackendTag }
      (done.1 ++ [event], done.2 ++ [entry])

def dedupBlsEntries (entries : List BlsEntry) : List TrustEvent × List BlsEntry :=
  entries.foldl dedupBlsStep ([], [])

/-- What is known of the entries of one machine id. -/
structure CohortGroup where
  withSortKey : Nat := 0
  withoutSortKey : Nat := 0
  highestVersionInWithout : Option Text := none
  highestVersionInWith : Option Text := none

structure CohortSplit where
  notice : Text
  withSortKey : Nat
  withoutSortKey : Nat
  highestVersionWithout : Option Text

/-- The higher of the version seen so far and that of an entry; the earlier one where they are
equal. -/
def takeHigher (current version : Option Text) : Option Text :=
  match version, current with
  | none, _ => current
  | some v, none => some v
  | some v, some cur => if versionCompareStr v cur = .gt then some v else some cur

def CohortGroup.add (g : CohortGroup) (entry : BlsEntry) : CohortGroup :=
  if entry.sortKey.isSome then
    { g with withSortKey := g.withSortKey + 1,
             highestVersionInWith := takeHigher g.highestVersionInWith entry.version }
  else
    { g with withoutSortKey := g.withoutSortKey + 1,
             highestVersionInWithout := takeHigher g.highestVersionInWithout entry.version }

def cohortGroups (entries : List BlsEntry) : Std.TreeMap Text CohortGroup Text.cmp :=
  entries.foldl
    (fun groups entry =>
      match entry.machineId.getD [] with
      | [] => groups
      | mid => groups.alter mid fun g => some ((g.getD {}).add entry))
    ∅

def CohortGroup.split (g : CohortGroup) : CohortSplit where
  notice :=
    "cohort split: " ++ decimal g.withSortKey ++ " entries with sort-key, " ++
      decimal g.withoutSortKey ++ " without; newest in sort-key-less is " ++
      g.highestVersionInWithout.getD "?" ++
      " — set bls_ignore_sort_key=true or default_pattern in policy.toml to override"
  withSortKey := g.withSortKey
  withoutSortKey := g.withoutSortKey
  highestVersionWithout := g.highestVersionInWithout

def detectCohortSplit (entries : List BlsEntry) : Option CohortSplit :=
  ((cohortGroups entries).values.find? fun g => 0 < g.withSortKey ∧ 0 < g.withoutSortKey).map
    CohortGroup.split

end LamBoot
