import LamBoot.Discovery.Entries

/-!
# Where the entries of the menu come from

Every scanner builds the id of an entry from the file it has found, except that unified kernel
images are numbered.
-/

namespace LamBoot

open List Text Bool

/-! ### Files and origins -/

/-- The file an entry stands for: an entry file by its name, an image, a unified kernel image, a
kernel or a disc image by its path, and a disc by its label. -/
inductive EntryFile where
  | conf (filename : Text)
  | image (path : Text)
  | uki (path : Text)
  | kernel (path : Text)
  | disc (path : Text)
  | optical (label : Text)
deriving DecidableEq, Repr

def BootEntry.ownFile (entry : BootEntry) : EntryFile :=
  match entry.blsFilename with
  | some filename => .conf filename
  | none =>
    match entry.kind with
    | .chainload path => .image path
    | .uki path _ => .uki path
    | .linuxLegacy kernelPath _ _ => .kernel kernelPath
    | .iso (.file isoPath) => .disc isoPath
    | .iso (.optical _ label) => .optical label

/-- What a scanner makes an entry from. -/
inductive Origin where
  | bls (entry : BlsEntry)
  | isoFile (dir name : Text)
  | optical (label : Text)
  | uki (number : Nat) (path : Text)
  | directory (name : Text) (previous : Bool)
  | loader (path id : Text)
  | tool (path : Text)

def fixedLoaders : List (Text × Text) :=
  (windowsPath, "windows") :: otherLoaders.map fun (path, id, _) => (path, id)

def directoryKernel (name : Text) (previous : Bool) : Text :=
  forwardToBackslash ("/EFI/".toList ++ name ++
    if previous then "/vmlinuz-previous.efi".toList else "/vmlinuz.efi".toList)

/-- The images under `/EFI/Linux` that the filter accepts, as they are listed. -/
def permittedUkis (env : Surroundings) (policy : Policy) (esp : Volume) : List Text :=
  (esp.glob "/EFI/Linux/*.efi").filter (policy.allowed env.lower)

namespace Origin

def id (lower : Lowercase) : Origin → Text
  | .bls entry => "bls-" ++ entry.id
  | .isoFile _ name => "iso-" ++ name
  | .optical label => "optical-" ++ lower.apply label
  | .uki number _ => "uki-" ++ decimal number
  | .directory name false => "sdboot-" ++ name
  | .directory name true => "sdboot-" ++ name ++ "-previous"
  | .loader _ id => id
  | .tool path => "tool-" ++ trimEndMatches ".efi" (afterLast '\\' path)

def file : Origin → EntryFile
  | .bls entry => .conf entry.filename
  | .isoFile dir name => .disc (dir ++ "/" ++ name)
  | .optical label => .optical label
  | .uki _ path => .uki path
  | .directory name previous => .kernel (directoryKernel name previous)
  | .loader path _ => .image path
  | .tool path => .image path

variable (env : Surroundings) (policy : Policy) (volumes : List Volume)

/-- An origin that the scanners offer. -/
def Valid : Origin → Prop
  | .bls entry => entry ∈ (allBls env policy volumes).2
  | .isoFile dir _ => dir ∈ ["/isos".toList, "/boot/isos".toList]
  | .optical _ => True
  | .uki number path => ∃ esp ∈ volumes.head?, (permittedUkis env policy esp)[number]? = some path
  | .directory name previous =>
    looksLikeDistroUuidDir name ∧ policy.allowed env.lower (directoryKernel name previous)
  | .loader path id => (path, id) ∈ fixedLoaders ∧ policy.allowed env.lower path
  | .tool path =>
    (∃ esp ∈ volumes.head?, path ∈ esp.glob "/EFI/LamBoot/modules/*.efi") ∧
      policy.allowed env.lower path

end Origin

section ComesFrom

variable (env : Surroundings) (policy : Policy) (volumes : List Volume)

/-- An entry is made from something a scanner has found. -/
structure ComesFrom (e : BootEntry) (o : Origin) : Prop where
  id : e.id = o.id env.lower
  file : e.ownFile = o.file
  valid : o.Valid env policy volumes
  /-- An entry file gives an entry as a whole. -/
  whole : ∀ entry, o = .bls entry → e = toBootEntry entry
  /-- What is not an entry file or a disc has been found on the ESP. -/
  onEsp : (∀ entry, o ≠ .bls entry) → (∀ dir name, o ≠ .isoFile dir name) →
    e.sourceVolumeIndex = 0

variable {env policy volumes}

/-! ### Entry files -/

/-- What a scan keeps of an entry file: it names something to boot, and a kernel only if the filter
accepts it; its id and counters are those of its name. -/
structure FoundOn (env : Surroundings) (policy : Policy) (index : Nat) (entry : BlsEntry) :
    Prop where
  bootable : entry.linux ≠ none ∨ entry.efi ≠ none
  kernel : ∀ path, entry.linux = some path → policy.allowed env.lower path = true
  named : entry.NamedBy entry.filename
  index : entry.sourceVolumeIndex = index

lemma withInitrd_eq (volume : Volume) (entry : BlsEntry) :
    ∃ initrd, withInitrd volume entry = { entry with initrd } := by
  unfold withInitrd
  split
  · exact ⟨_, rfl⟩
  · exact ⟨entry.initrd, rfl⟩

variable {entry : BlsEntry}

lemma foundOn_of_scanConf {volume : Volume} {index : Nat} {filename : Text}
    (h : (scanConf env policy volume index filename).2 = some entry) :
    FoundOn env policy index entry ∧ entry.filename = filename := by
  unfold scanConf at h
  split_ifs at h
  dsimp only at h
  split at h
  · cases h
  · split at h
    · next parsed hparse =>
      split_ifs at h with haccepts
      cases h
      have hnamed := BlsEntry.parse_namedBy hparse
      obtain rfl := hnamed.filename
      obtain ⟨initrd, heq⟩ := withInitrd_eq volume
        { parsed with sourceVolumeIndex := index, sourceBackendTag := volume.backendTag }
      rw [heq]
      refine ⟨⟨(BlsEntry.parse_linux_or_efi hparse :), fun path hpath => ?_,
        ⟨hnamed.id, rfl, hnamed.triesLeft, hnamed.triesDone⟩, rfl⟩, rfl⟩
      have hkernel := (and_eq_true_iff.mp haccepts).2
      rw [hpath] at hkernel
      exact hkernel
    · cases h

lemma foundOn_of_mem_scan {volume : Volume} {index : Nat}
    (h : entry ∈ (scanVolumeForBls env policy volume index).2) :
    FoundOn env policy index entry := by
  unfold scanVolumeForBls at h
  split at h
  · cases h
  · simp only [SliceSort.mem_apply, mem_filterMap, mem_map, exists_exists_and_eq_and] at h
    obtain ⟨filename, -, hscan⟩ := h
    exact (foundOn_of_scanConf hscan).1

lemma dedupBlsStep_eq (done : List TrustEvent × List BlsEntry) (entry : BlsEntry) :
    (dedupBlsStep done entry).2 = done.2 ∨ (dedupBlsStep done entry).2 = done.2 ++ [entry] := by
  unfold dedupBlsStep
  split
  · exact .inr rfl
  · split_ifs
    · exact .inl rfl
    · exact .inr rfl

lemma dedupBlsEntries_sublist (entries : List BlsEntry) :
    (dedupBlsEntries entries).2.Sublist entries := by
  have hfold : ∀ (rest : List BlsEntry) (done : List TrustEvent × List BlsEntry),
      (rest.foldl dedupBlsStep done).2.Sublist (done.2 ++ rest) := by
    intro rest
    induction rest with
    | nil => simp
    | cons entry rest ih =>
      intro done
      have hrest := ih (dedupBlsStep done entry)
      rcases dedupBlsStep_eq done entry with h | h
      · rw [h] at hrest
        exact hrest.trans ((sublist_cons_self entry rest).append_left done.2)
      · rw [h, append_assoc] at hrest
        exact hrest
  simpa [dedupBlsEntries] using hfold entries ([], [])

lemma foundOn_of_mem_allBls (h : entry ∈ (allBls env policy volumes).2) :
    FoundOn env policy entry.sourceVolumeIndex entry := by
  have hmem := (dedupBlsEntries_sublist _).subset h
  obtain ⟨scan, hscan, hentry⟩ := mem_flatMap.mp hmem
  obtain ⟨index, hindex, rfl⟩ := mem_mapIdx.mp hscan
  have hfound := foundOn_of_mem_scan hentry
  rw [hfound.index]
  exact hfound

lemma FoundOn.toBootEntry_eq {index : Nat} (h : FoundOn env policy index entry) :
    (toBootEntry entry).id = "bls-" ++ entry.id ∧
      (toBootEntry entry).blsFilename = some entry.filename ∧
      (toBootEntry entry).sourceVolumeIndex = entry.sourceVolumeIndex := by
  unfold toBootEntry
  cases he : entry.efi with
  | some efiPath => exact ⟨rfl, rfl, rfl⟩
  | none =>
    cases hl : entry.linux with
    | some linuxPath => exact ⟨rfl, rfl, rfl⟩
    | none => exact absurd h.bootable (by simp [he, hl])

lemma comesFrom_of_mem_allBls (h : entry ∈ (allBls env policy volumes).2) :
    ComesFrom env policy volumes (toBootEntry entry) (.bls entry) := by
  obtain ⟨hid, hfile, -⟩ := (foundOn_of_mem_allBls h).toBootEntry_eq
  refine ⟨hid, ?_, h, ?_, fun hne => absurd rfl (hne entry)⟩
  · simp [BootEntry.ownFile, hfile, Origin.file]
  · rintro _ ⟨⟩
    rfl

/-! ### Discs -/

variable {e : BootEntry}

lemma ComesFrom.blsFilename_eq_none {o : Origin} (h : ComesFrom env policy volumes e o)
    (hbls : ∀ entry, o ≠ .bls entry) : e.blsFilename = none := by
  have hfile := h.file
  unfold BootEntry.ownFile at hfile
  cases hname : e.blsFilename with
  | none => rfl
  | some filename =>
    simp only [hname] at hfile
    cases o with
    | bls entry => exact absurd rfl (hbls entry)
    | _ => exact nomatch hfile

lemma ComesFrom.onVolume {o : Origin} (h : ComesFrom env policy volumes e o)
    (hbls : ∀ entry, o ≠ .bls entry) (index : Nat) (tag : BackendTag)
    (hindex : (∀ dir name, o ≠ .isoFile dir name) → index = 0) :
    ComesFrom env policy volumes (e.onVolume index tag) o :=
  ⟨h.id, h.file, h.valid, fun entry ho => absurd ho (hbls entry), fun _ hiso => hindex hiso⟩

lemma comesFrom_of_mem_isoEntries (h : e ∈ isoEntries policy volumes) :
    ∃ dir name, ComesFrom env policy volumes e (.isoFile dir name) := by
  unfold isoEntries at h
  split_ifs at h
  · obtain ⟨found, hfound, he⟩ := mem_flatten.mp h
    obtain ⟨index, hindex, rfl⟩ := mem_mapIdx.mp hfound
    obtain ⟨e', he', rfl⟩ := mem_map.mp he
    obtain ⟨dir, hdir, hentry⟩ := mem_flatMap.mp he'
    unfold isoFilesIn at hentry
    split at hentry
    · cases hentry
    · split at hentry
      · cases hentry
      · obtain ⟨de, -, rfl⟩ := mem_map.mp hentry
        exact ⟨dir, de.name, rfl, rfl, hdir, nofun, fun _ hiso => absurd rfl (hiso dir de.name)⟩
  · cases h

lemma comesFrom_of_mem_optical (h : e ∈ (discoverOptical env).2) :
    ∃ label, ComesFrom env policy volumes e (.optical label) := by
  obtain ⟨⟨handle, label⟩, -, rfl⟩ := mem_map.mp h
  exact ⟨label, rfl, rfl, trivial, nofun, fun _ _ => rfl⟩

/-! ### The ESP -/

variable {esp : Volume}

lemma comesFrom_of_mem_windows (h : e ∈ discoverWindows env policy esp) :
    ∃ path id, ComesFrom env policy volumes e (.loader path id) := by
  unfold discoverWindows at h
  split_ifs at h with hif
  · rw [mem_singleton] at h
    subst h
    refine ⟨windowsPath, "windows", rfl, rfl, ⟨mem_cons_self, ?_⟩, nofun, fun _ _ => rfl⟩
    exact (and_eq_true_iff.mp hif).2
  · cases h

lemma comesFrom_of_mem_otherLoaders {selfImageSha256 : Option Bytes}
    (h : e ∈ discoverOtherLoaders env policy esp selfImageSha256) :
    ∃ path id, ComesFrom env policy volumes e (.loader path id) := by
  obtain ⟨⟨path, id, name⟩, hmem, hsome⟩ := mem_filterMap.mp h
  dsimp only at hsome
  split_ifs at hsome with hskip hself
  cases hsome
  rw [not_eq_true', not_eq_false, and_eq_true_iff] at hskip
  refine ⟨path, id, rfl, rfl, ⟨?_, hskip.2⟩, nofun, fun _ _ => rfl⟩
  exact mem_cons_of_mem _ (mem_map.mpr ⟨_, hmem, rfl⟩)

lemma comesFrom_of_mem_uki (hesp : esp ∈ volumes.head?) (h : e ∈ discoverLinuxUki env policy esp) :
    ∃ number path, ComesFrom env policy volumes e (.uki number path) := by
  rw [discoverLinuxUki, SliceSort.mem_apply, mem_mapIdx] at h
  obtain ⟨number, hnumber, rfl⟩ := h
  exact ⟨number, _, rfl, rfl, ⟨esp, hesp, List.getElem?_eq_getElem hnumber⟩, nofun, fun _ _ => rfl⟩

lemma comesFrom_of_mem_dirStyle {dir : DirEntry} (h : e ∈ discoverDirStyle env policy esp dir) :
    ∃ name previous, ComesFrom env policy volumes e (.directory name previous) := by
  unfold discoverDirStyle at h
  dsimp only at h
  split_ifs at h with hkind hname hexists hallowed hempty hprev
  any_goals exact absurd h not_mem_nil
  all_goals
    rw [not_eq_true', not_eq_false] at hallowed hname
  · rcases mem_pair.mp h with rfl | rfl
    · exact ⟨dir.name, false, rfl, rfl, ⟨hname, hallowed⟩, nofun, fun _ _ => rfl⟩
    · have hallowed := (and_eq_true_iff.mp hprev).2
      exact ⟨dir.name, true, rfl, rfl, ⟨hname, hallowed⟩, nofun, fun _ _ => rfl⟩
  · rw [mem_singleton] at h
    subst h
    exact ⟨dir.name, false, rfl, rfl, ⟨hname, hallowed⟩, nofun, fun _ _ => rfl⟩

lemma comesFrom_of_mem_systemdBoot (h : e ∈ discoverSystemdBootDirStyle env policy esp) :
    ∃ name previous, ComesFrom env policy volumes e (.directory name previous) := by
  unfold discoverSystemdBootDirStyle at h
  split at h
  · cases h
  · split at h
    · cases h
    · rw [SliceSort.mem_apply, mem_flatMap] at h
      obtain ⟨dir, -, hdir⟩ := h
      exact comesFrom_of_mem_dirStyle hdir

lemma comesFrom_of_mem_tools (hesp : esp ∈ volumes.head?) (h : e ∈ discoverTools env policy esp) :
    ∃ path, ComesFrom env policy volumes e (.tool path) := by
  unfold discoverTools at h
  split_ifs at h
  · cases h
  · obtain ⟨path, hpath, rfl⟩ := mem_map.mp h
    obtain ⟨hglob, hallowed⟩ := mem_filter.mp hpath
    exact ⟨path, rfl, rfl, ⟨⟨esp, hesp, hglob⟩, hallowed⟩, nofun, fun _ _ => rfl⟩

variable {selfImageSha256 : Option Bytes}

lemma comesFrom_of_mem_espEntries (h : e ∈ espEntries env policy volumes selfImageSha256) :
    ∃ o, (∀ entry, o ≠ .bls entry) ∧ ComesFrom env policy volumes e o := by
  cases volumes with
  | nil => cases h
  | cons esp rest =>
    obtain ⟨e, he, rfl⟩ := mem_map.mp h
    have hesp : esp ∈ (esp :: rest).head? := rfl
    -- an entry of the ESP keeps its origin
    have honEsp {o : Origin} (he : ComesFrom env policy (esp :: rest) e o)
        (hbls : ∀ entry, o ≠ .bls entry) :
        ∃ o, (∀ entry, o ≠ .bls entry) ∧
          ComesFrom env policy (esp :: rest) (e.onVolume 0 esp.backendTag) o :=
      ⟨o, hbls, he.onVolume hbls 0 esp.backendTag fun _ => rfl⟩
    simp only [mem_append] at he
    rcases he with (((he | he) | he) | he) | he
    · obtain ⟨path, id, he⟩ := comesFrom_of_mem_windows he
      exact honEsp he nofun
    · obtain ⟨number, path, he⟩ := comesFrom_of_mem_uki hesp he
      exact honEsp he nofun
    · obtain ⟨name, previous, he⟩ := comesFrom_of_mem_systemdBoot he
      exact honEsp he nofun
    · obtain ⟨path, id, he⟩ := comesFrom_of_mem_otherLoaders he
      exact honEsp he nofun
    · obtain ⟨path, he⟩ := comesFrom_of_mem_tools hesp he
      exact honEsp he nofun

def otherEntries (env : Surroundings) (policy : Policy) (volumes : List Volume)
    (selfImageSha256 : Option Bytes) : List BootEntry :=
  isoEntries policy volumes ++ (if policy.isoOpticalEnabled then (discoverOptical env).2 else []) ++
    espEntries env policy volumes selfImageSha256

lemma offeredEntries_eq :
    offeredEntries env policy volumes selfImageSha256 =
      (allBls env policy volumes).2.map toBootEntry ++
        otherEntries env policy volumes selfImageSha256 := by
  simp [offeredEntries, otherEntries]

lemma comesFrom_of_mem_otherEntries (h : e ∈ otherEntries env policy volumes selfImageSha256) :
    ∃ o, (∀ entry, o ≠ .bls entry) ∧ ComesFrom env policy volumes e o := by
  simp only [otherEntries, mem_append] at h
  rcases h with (h | h) | h
  · obtain ⟨dir, name, h⟩ := comesFrom_of_mem_isoEntries h
    exact ⟨.isoFile dir name, nofun, h⟩
  · split_ifs at h
    · obtain ⟨label, h⟩ := comesFrom_of_mem_optical h
      exact ⟨.optical label, nofun, h⟩
    · cases h
  · exact comesFrom_of_mem_espEntries h

lemma comesFrom_of_mem_offered (h : e ∈ offeredEntries env policy volumes selfImageSha256) :
    ∃ o, ComesFrom env policy volumes e o := by
  rw [offeredEntries_eq, mem_append] at h
  rcases h with h | h
  · obtain ⟨entry, hentry, rfl⟩ := mem_map.mp h
    exact ⟨_, comesFrom_of_mem_allBls hentry⟩
  · obtain ⟨o, -, h⟩ := comesFrom_of_mem_otherEntries h
    exact ⟨o, h⟩

/-- An entry that a scanner offers and no earlier offer of the same file name or label hides. -/
abbrev FirstOffer (env : Surroundings) (policy : Policy) (volumes : List Volume)
    (selfImageSha256 : Option Bytes) (e : BootEntry) : Prop :=
  FirstWithKey (dedupKey env.lower) (offeredEntries env policy volumes selfImageSha256) e

/-- The menu holds the first offer of each file name and label, and nothing else. -/
lemma mem_discovered_iff : e ∈ (discoverAllEntries env policy volumes selfImageSha256).entries ↔
    FirstOffer env policy volumes selfImageSha256 e := by
  refine mem_keepFirst_iff.trans ?_
  simp

lemma comesFrom_of_mem_discovered
    (h : e ∈ (discoverAllEntries env policy volumes selfImageSha256).entries) :
    ∃ o, ComesFrom env policy volumes e o :=
  comesFrom_of_mem_offered (mem_discovered_iff.mp h).mem

end ComesFrom

end LamBoot
