import LamBoot.Discovery.Esp

/-!
# Discovery of all entries

`discover_all_entries` of `discovery.rs`: the entries of the Boot Loader Specification on every
volume, then discs and disc images, then what the ESP holds, each file name once.
-/

namespace LamBoot

open Text

/-! ### Discs -/

def isoFilesIn (volume : Volume) (dir : Text) : List BootEntry :=
  match PathBuf.fromStr dir with
  | .error _ => []
  | .ok path =>
    match volume.readDir path with
    | .error _ => []
    | .ok listing =>
      (listing.filter fun de =>
        de.kind ≠ .directory ∧ ".iso".toList.isSuffixOf (toAsciiLowercase de.name)).map fun de =>
          { id := "iso-" ++ de.name, name := "ISO: " ++ de.name,
            kind := .iso (.file (dir ++ "/" ++ de.name)), icon := .linux }

def discoverIsoFiles (volume : Volume) : List BootEntry :=
  ["/isos".toList, "/boot/isos".toList].flatMap (isoFilesIn volume)

def discoverOptical (env : Surroundings) : List TrustEvent × List BootEntry :=
  (env.scanOpticalHandles.map fun (_, label) =>
      { event := "iso_optical_discovered", note := "label=" ++ label },
    env.scanOpticalHandles.map fun (handle, label) =>
      { id := "optical-" ++ env.lower.apply label
        name := "Optical: ".toList ++ if label = [] then "optical disc".toList else label
        kind := .iso (.optical handle label)
        icon := .linux
        sourceBackendTag := "optical" })

/-! ### One entry for each file name -/

def extractFilenameLower (lower : Lowercase) (path : Text) : Text :=
  lower.apply (afterLast '\\' path)

/-- What entries are deduplicated by: the file name after the last backslash, or the label of a
disc. -/
def dedupKey (lower : Lowercase) (entry : BootEntry) : Text :=
  match entry.kind with
  | .chainload path => extractFilenameLower lower path
  | .uki path _ => extractFilenameLower lower path
  | .linuxLegacy kernelPath _ _ => extractFilenameLower lower kernelPath
  | .iso (.file isoPath) => extractFilenameLower lower isoPath
  | .iso (.optical _ label) => "optical:" ++ lower.apply label

def dedupEntries (lower : Lowercase) (entries : List BootEntry) : List BootEntry :=
  keepFirst (dedupKey lower) [] entries

/-! ### All of them -/

def BootEntry.onVolume (entry : BootEntry) (index : Nat) (tag : BackendTag) : BootEntry :=
  { entry with sourceVolumeIndex := index, sourceBackendTag := tag }

structure DiscoveryResult where
  entries : List BootEntry
  cohortSplit : Option CohortSplit
  /-- What has been recorded in the trust log. -/
  events : List TrustEvent

section Discover

variable (env : Surroundings) (policy : Policy) (volumes : List Volume)
  (selfImageSha256 : Option Bytes)

def allBls : List TrustEvent × List BlsEntry :=
  let scans := volumes.mapIdx fun index volume => scanVolumeForBls env policy volume index
  let deduped := dedupBlsEntries (scans.flatMap (·.2))
  (scans.flatMap (·.1) ++ deduped.1, deduped.2)

def isoEntries : List BootEntry :=
  if policy.isoEnabled then
    (volumes.mapIdx fun index volume =>
      (discoverIsoFiles volume).map (·.onVolume index volume.backendTag)).flatten
  else []

def espEntries : List BootEntry :=
  match volumes with
  | [] => []
  | esp :: _ =>
    (discoverWindows env policy esp ++ discoverLinuxUki env policy esp ++
        discoverSystemdBootDirStyle env policy esp ++
        discoverOtherLoaders env policy esp selfImageSha256 ++ discoverTools env policy esp).map
      (·.onVolume 0 esp.backendTag)

def offeredEntries : List BootEntry :=
  (allBls env policy volumes).2.map toBootEntry ++ isoEntries policy volumes ++
    (if policy.isoOpticalEnabled then (discoverOptical env).2 else []) ++
    espEntries env policy volumes selfImageSha256

def cohortSplitEvent (split : CohortSplit) : TrustEvent :=
  { event := "cohort_split_detected"
    note := "with_sort_key=" ++ decimal split.withSortKey ++ " without_sort_key=" ++
      decimal split.withoutSortKey ++ " highest_in_without=" ++
      split.highestVersionWithout.getD "?" }

def discoverAllEntries : DiscoveryResult :=
  let (blsEvents, bls) := allBls env policy volumes
  let cohortSplit := detectCohortSplit bls
  { entries := dedupEntries env.lower (offeredEntries env policy volumes selfImageSha256)
    cohortSplit
    events := blsEvents ++ (cohortSplit.map cohortSplitEvent).toList ++
      if policy.isoOpticalEnabled then (discoverOptical env).1 else [] }

end Discover

end LamBoot
