import Mathlib.Data.List.AList
import LamBoot.Tools.Shell

/-!
# Entry files and the installer

The part of `lamboot-install` that reads, writes and deletes boot loader entries: the scan, the
removal of stale entries, the generation of missing ones, the manifest, and the removal of what it
names.
-/

namespace LamBoot.Installer

open List

open Text BlsEntry Shell

abbrev Entries := AList fun _ : Text => Text

/-- The system that LamBoot is installed on. -/
structure Target where
  /-- Where its EFI partition is mounted. -/
  esp : Text
  /-- `--root`, when it is given and is not `/`. -/
  root : Option Text
  /-- The digest that `sha256sum` prints. -/
  sha256 : Text → Text
  sha256_plain : ∀ content, ' ' ∉ sha256 content ∧ '\n' ∉ sha256 content

/-- A row of the manifest. -/
structure Row where
  hash : Text
  path : Text
deriving DecidableEq

/-- One invocation of the installer: its options, and what it finds on the machine it runs on. -/
structure Invocation where
  noBls : Bool
  force : Bool
  dryRun : Bool
  replaceGrub : Bool
  entryToken : Line
  distroId : Text
  distroName : Line
  kernelCmdline : Text
  machineId : Text
  /-- The regular files that are no entries. -/
  images : List Text
  /-- What `find_initrd` prints for a version. -/
  initrdOf : Text → Text
  /-- The version that `file` finds in `vmlinuz-linux`. -/
  fileVersion : Text
  unameR : Text
  isMountpoint : Text → Bool
  /-- `findmnt -n -o SOURCE`. -/
  source : Text → Text
  /-- `findmnt -n -o FSTYPE`. -/
  fstype : Text → Text
  /-- The comments at the head of the manifest. -/
  header : List Line
  header_comment : ∀ line ∈ header, line.val.head? = some '#'
  /-- The rows of the manifest for the files that are no entries. -/
  others : List Row
  others_plain : ∀ row ∈ others, ' ' ∉ row.hash ∧ '\n' ∉ row.hash ∧ '\n' ∉ row.path

/-- What the installer changes. -/
structure Disk where
  entries : Entries
  manifest : Option Text

/-! ### Directories -/

def blsDir : Text := "loader/entries"

def inDir (dir name : Text) : Text :=
  dir ++ '/' :: name

namespace Target

variable (t : Target)

def espDir : Text :=
  inDir t.esp blsDir

/-- `/boot` of the target. -/
def bootRoot : Text :=
  t.root.getD [] ++ "/boot"

/-- The entries on the target's own `/boot`. -/
def bootDir : Text :=
  inDir t.bootRoot blsDir

end Target

/-- The entries on `/boot` of the machine that the installer runs on. -/
def hostBootDir : Text := "/boot/loader/entries"

/-- `"$dir"/*.conf`: the name of a file that the pattern matches. -/
def confName (dir path : Text) : Option Text :=
  match path.dropPrefix? (dir ++ ['/']) with
  | some name =>
    if '/' ∉ name ∧ ".conf" <:+ name ∧ name.head? ≠ some '.' then some name else none
  | none => none

/-- The names and contents of the files that `"$dir"/*.conf` matches. The shell sorts them;
nothing here depends on their order. -/
def globConf (es : Entries) (dir : Text) : List (Text × Text) :=
  es.entries.filterMap fun f => (confName dir f.1).map fun name => (name, f.2)

/-! ### Scanning -/

/-- What `scan_existing_bls` looks at: the target's EFI partition, and the `/boot` of the running
machine. -/
def scanned (t : Target) (es : Entries) : List (Text × Text) :=
  globConf es t.espDir ++ globConf es hostBootDir

/-- `EXISTING_BLS`. -/
def existingBls (t : Target) (es : Entries) : List Text :=
  ((scanned t es).map Prod.fst).eraseDups

/-- `COVERED_VERSIONS`. -/
def coveredVersions (t : Target) (es : Entries) : List Text :=
  (scanned t es).filterMap fun f => (fieldOf "version" f.2).filter (· ≠ [])

structure Kernel where
  version : Text
  path : Text
  initrd : Text
deriving DecidableEq

namespace Invocation

variable (t : Target) (i : Invocation)

def isFile (path : Text) : Bool :=
  i.images.contains path

def findInitrdArch : Text :=
  if i.isFile (t.bootRoot ++ "/initramfs-linux.img") then "/boot/initramfs-linux.img"
  else if i.isFile (t.bootRoot ++ "/initramfs-linux-fallback.img") then
    "/boot/initramfs-linux-fallback.img"
  else []

/-- `"$boot_root"/vmlinuz-*`, with paths as they are on the target. -/
def globKernels : List Kernel :=
  i.images.filterMap fun path =>
    match path.dropPrefix? (t.bootRoot ++ "/vmlinuz-") with
    | some version =>
      if '/' ∈ version then none
      else
        some ⟨version, stripPrefix (t.root.getD []) path,
          stripPrefix (t.root.getD []) (i.initrdOf version)⟩
    | none => none

/-- The version of Arch's `vmlinuz-linux`, whose name has none. -/
def unameVer : Text :=
  if i.isFile (t.bootRoot ++ "/vmlinuz-linux") ∧ i.distroId = "arch" then
    if i.fileVersion ≠ [] then i.fileVersion
    else if t.root = none then i.unameR
    else []
  else []

def discoverKernels : List Kernel :=
  let kernels := i.globKernels t
  let unameVer := i.unameVer t
  if unameVer ≠ [] ∧ unameVer ∉ kernels.map Kernel.version then
    kernels ++ [⟨unameVer, "/boot/vmlinuz-linux", i.findInitrdArch t⟩]
  else kernels

/-- `KERNEL_VERSIONS`. -/
def kernelVersions : List Text :=
  (i.discoverKernels t).map Kernel.version

/-! ### Where entries go -/

/-- `is_filesystem_natively_covered`. -/
def nativelyCovered : List Text :=
  ["ext2", "ext3", "ext4", "btrfs", "vfat", "fat", "fat32", "xfs", "zfs"]

/-- `BLS_ON_BOOT`, as `detect_bls_target` decides it. -/
def blsOnBoot : Bool :=
  t.root = none && i.isMountpoint "/boot" && i.source "/boot" ≠ [] &&
    i.source "/boot" ≠ i.source t.esp && i.fstype "/boot" ≠ "zfs" &&
    nativelyCovered.contains (i.fstype "/boot")

/-- `BLS_INSTALL_DIR`. -/
def installDir : Text :=
  if i.blsOnBoot t then hostBootDir else t.espDir

def confOf (version : Text) : Text :=
  i.entryToken.val ++ '-' :: version ++ ".conf"

def confPath (version : Text) : Text :=
  inDir (i.installDir t) (i.confOf version)

/-! ### Stale entries -/

/-- An entry names a kernel that is neither where it says nor under `/boot`. -/
def KernelMissing (content : Text) : Prop :=
  ∃ line ∈ fieldOf "linux" content, line ≠ [] ∧ i.isFile line = false ∧
    i.isFile ("/boot" ++ line) = false
deriving Decidable

def Owned (manifest : Option Text) (name : Text) : Prop :=
  ∃ text ∈ manifest, grepFixed (inDir blsDir name) text
deriving Decidable

/-- An entry of the installer whose kernel is gone. -/
def Stale (manifest : Option Text) (es : Entries) (name : Text) : Prop :=
  Owned manifest name ∧
    ∃ content ∈ es.lookup (inDir (i.installDir t) name), i.KernelMissing content
deriving Decidable

/-- One round of `remove_stale_our_bls_entries`. -/
def removeIfStale (manifest : Option Text) (es : Entries) (name : Text) : Entries :=
  if i.Stale t manifest es name ∧ ¬ i.dryRun then es.erase (inDir (i.installDir t) name) else es

/-- The entries after `our_bls_entries_are_stale` and what follows from it. -/
def withoutStale (d : Disk) : Entries :=
  if ∃ name ∈ existingBls t d.entries, i.Stale t d.manifest d.entries name then
    (existingBls t d.entries).foldl (i.removeIfStale t d.manifest) d.entries
  else d.entries

/-! ### Generating entries -/

def kernelEspPath (hpath : Text) : Text :=
  if hpath = [] then []
  else if t.root ≠ none ∧ t.esp = t.bootRoot ∧ "/boot/" <+: hpath then
    '/' :: stripPrefix "/boot/" hpath
  else if t.esp = "/boot" then '/' :: stripPrefix "/boot/" hpath
  else if t.esp ++ ['/'] <+: hpath then '/' :: stripPrefix (t.esp ++ ['/']) hpath
  else if i.isMountpoint "/boot" then '/' :: stripPrefix "/boot/" hpath
  else hpath

def entryText (k : Kernel) : Text :=
  let linuxRel := output (i.kernelEspPath t k.path)
  let initrdRel := output (i.kernelEspPath t k.initrd)
  textOfFields <|
    [("title".toList, i.distroName.val ++ " (".toList ++ k.version ++ ")".toList),
      ("version".toList, k.version), ("machine-id".toList, i.machineId),
      ("sort-key".toList, i.entryToken.val), ("linux".toList, linuxRel)] ++
    (if initrdRel ≠ [] then [("initrd".toList, initrdRel)] else []) ++
    [("options".toList, i.kernelCmdline)]

/-- The entry files and the rows for the manifest while phase 5 runs. -/
structure Progress where
  entries : Entries
  rows : List Row

/-- `manifest_add_bls`. -/
def manifestRow (es : Entries) (version : Text) : Row :=
  ⟨((es.lookup (i.confPath t version)).map t.sha256).getD [],
    (if i.blsOnBoot t then "boot:".toList else []) ++ inDir blsDir (i.confOf version)⟩

def generateBlsEntry (p : Progress) (k : Kernel) : Progress :=
  if (p.entries.lookup (i.confPath t k.version)).isSome then
    { p with rows := p.rows ++ [i.manifestRow t p.entries k.version] }
  else if i.dryRun then p
  else
    let entries := p.entries.insert (i.confPath t k.version) (i.entryText t k)
    ⟨entries, p.rows ++ [i.manifestRow t entries k.version]⟩

def coverKernel (covered : List Text) (p : Progress) (k : Kernel) : Progress :=
  if ¬ i.force ∧ k.version ∈ covered then
    if (p.entries.lookup (i.confPath t k.version)).isSome then
      { p with rows := p.rows ++ [i.manifestRow t p.entries k.version] }
    else p
  else i.generateBlsEntry t p k

def phase5GenerateBls (d : Disk) : Progress :=
  if i.noBls then ⟨d.entries, []⟩
  else
    let entries := i.withoutStale t d
    (i.discoverKernels t).foldl (i.coverKernel t (coveredVersions t entries)) ⟨entries, []⟩

/-- `"$dir"/lamboot-*.conf` on the target's `/boot`. -/
def IsLegacy (path : Text) : Prop :=
  ∃ name ∈ confName t.bootDir path, "lamboot-" <+: name
deriving Decidable

/-- Phase 5b: the entries of earlier releases on `/boot` go, with `--replace-grub`. -/
def phase5bProxmoxBlsBackfill (es : Entries) : Entries :=
  if i.replaceGrub ∧ ¬ i.dryRun then
    (es.keys.filter (IsLegacy t ·)).foldl (fun es p => es.erase p) es
  else es

end Invocation

/-! ### The manifest -/

def Row.text (r : Row) : Text :=
  "sha256:" ++ r.hash ++ "  " ++ r.path

namespace Invocation

variable (t : Target) (i : Invocation)

def manifestText (rows : List Row) : Text :=
  textOf (i.header.map Subtype.val ++ (i.others ++ rows).map Row.text)

def install (d : Disk) : Disk :=
  let p := i.phase5GenerateBls t d
  ⟨i.phase5bProxmoxBlsBackfill t p.entries,
    if i.dryRun then d.manifest else some (i.manifestText p.rows)⟩

/-! ### What the steps of phase 5 do -/

section Steps

variable (t : Target) (i : Invocation) (d : Disk)

/-- An entry on the disk that is not removed as stale. -/
def Kept (path content : Text) : Prop :=
  d.entries.lookup path = some content ∧
    ¬ (i.dryRun = false ∧ ∃ name ∈ existingBls t d.entries,
      i.Stale t d.manifest d.entries name ∧ path = inDir (i.installDir t) name)

variable {t i d} {manifest : Option Text}

lemma stale_congr {es es' : Entries} {name : Text}
    (h : es.lookup (inDir (i.installDir t) name) = es'.lookup (inDir (i.installDir t) name)) :
    i.Stale t manifest es name ↔ i.Stale t manifest es' name := by
  unfold Stale
  rw [h]

lemma lookup_removeIfStale {es : Entries} {name path content : Text} :
    (i.removeIfStale t manifest es name).lookup path = some content ↔
      es.lookup path = some content ∧
        ¬ (i.dryRun = false ∧ i.Stale t manifest es name ∧ path = inDir (i.installDir t) name) := by
  unfold removeIfStale
  by_cases hstale : i.Stale t manifest es name ∧ i.dryRun = false
  · rw [if_pos (by simpa using hstale)]
    by_cases hpath : path = inDir (i.installDir t) name
    · rw [hpath, AList.lookup_erase]
      exact iff_of_false nofun fun h => h.2 ⟨hstale.2, hstale.1, rfl⟩
    · rw [AList.lookup_erase_ne hpath]
      exact (and_iff_left fun h => hpath h.2.2).symm
  · rw [if_neg (by simpa using hstale)]
    exact (and_iff_left fun h => hstale ⟨h.2.1, h.1⟩).symm

lemma lookup_foldl_removeIfStale {names : List Text} {path content : Text}
    (es : Entries) :
    (names.foldl (i.removeIfStale t manifest) es).lookup path = some content ↔
      es.lookup path = some content ∧
        ¬ (i.dryRun = false ∧ ∃ name ∈ names, i.Stale t manifest es name ∧
          path = inDir (i.installDir t) name) := by
  induction names generalizing es with
  | nil => simp
  | cons first names ih =>
    rw [foldl_cons, ih, lookup_removeIfStale, and_assoc]
    refine and_congr_right fun hpath => ?_
    rw [exists_mem_cons_iff, and_or_left, not_or]
    refine and_congr_right fun hfirst => not_congr (and_congr_right fun _ => ?_)
    -- the entry itself has not changed, so it is stale now when it was before
    have hsame : (i.removeIfStale t manifest es first).lookup path = es.lookup path :=
      (lookup_removeIfStale.mpr ⟨hpath, hfirst⟩).trans hpath.symm
    refine exists_congr fun name => and_congr_right fun _ => and_congr_left fun hname => ?_
    rw [hname] at hsame
    exact stale_congr hsame

lemma lookup_withoutStale {path content : Text} :
    (i.withoutStale t d).lookup path = some content ↔ i.Kept t d path content := by
  unfold withoutStale Kept
  split_ifs with hany
  · exact lookup_foldl_removeIfStale d.entries
  · refine (and_iff_left ?_).symm
    rintro ⟨-, name, hname, hstale, -⟩
    exact hany ⟨name, hname, hstale⟩

lemma entries_coverKernel (covered : List Text) (p : Progress) (k : Kernel) :
    (i.coverKernel t covered p k).entries =
      if (i.force = true ∨ k.version ∉ covered) ∧ i.dryRun = false ∧
          p.entries.lookup (i.confPath t k.version) = none then
        p.entries.insert (i.confPath t k.version) (i.entryText t k)
      else p.entries := by
  unfold coverKernel generateBlsEntry
  cases hlookup : p.entries.lookup (i.confPath t k.version) with
  | none => by_cases hforce : i.force <;> by_cases hcovered : k.version ∈ covered <;>
      by_cases hdry : i.dryRun <;> simp [hforce, hcovered, hdry]
  | some content => by_cases hforce : i.force <;> by_cases hcovered : k.version ∈ covered <;>
      simp [hforce, hcovered]

variable {covered : List Text} {ks : List Kernel} {path content : Text} {p : Progress}

lemma lookup_coverKernel_of_lookup {k : Kernel}
    (h : p.entries.lookup path = some content) :
    (i.coverKernel t covered p k).entries.lookup path = some content := by
  rw [entries_coverKernel]
  split_ifs with hwrite
  · have hne : path ≠ i.confPath t k.version := by
      rintro rfl
      rw [hwrite.2.2] at h
      cases h
    rwa [AList.lookup_insert_ne hne]
  · exact h

lemma lookup_foldl_of_lookup (h : p.entries.lookup path = some content) :
    (ks.foldl (i.coverKernel t covered) p).entries.lookup path = some content := by
  induction ks generalizing p with
  | nil => exact h
  | cons k ks ih => exact ih (lookup_coverKernel_of_lookup h)

lemma of_lookup_foldl
    (h : (ks.foldl (i.coverKernel t covered) p).entries.lookup path = some content) :
    p.entries.lookup path = some content ∨
      (p.entries.lookup path = none ∧ i.dryRun = false ∧
        ∃ k ∈ ks, (i.force = true ∨ k.version ∉ covered) ∧ path = i.confPath t k.version ∧
          content = i.entryText t k) := by
  induction ks generalizing p with
  | nil => exact .inl h
  | cons k ks ih =>
    rw [foldl_cons] at h
    have hstep := ih h
    rw [entries_coverKernel] at hstep
    split_ifs at hstep with hwrite
    · by_cases hpath : path = i.confPath t k.version
      · subst hpath
        rw [AList.lookup_insert] at hstep
        rcases hstep with hstep | ⟨hstep, -⟩
        · cases hstep
          exact .inr ⟨hwrite.2.2, hwrite.2.1, k, mem_cons_self, hwrite.1, rfl, rfl⟩
        · cases hstep
      · rw [AList.lookup_insert_ne hpath] at hstep
        exact hstep.imp_right fun ⟨hnone, hdry, k', hk', hrest⟩ =>
          ⟨hnone, hdry, k', mem_cons_of_mem k hk', hrest⟩
    · exact hstep.imp_right fun ⟨hnone, hdry, k', hk', hrest⟩ =>
        ⟨hnone, hdry, k', mem_cons_of_mem k hk', hrest⟩

lemma exists_lookup_foldl {k : Kernel} (hk : k ∈ ks) (hdry : i.dryRun = false)
    (hcovered : i.force = true ∨ k.version ∉ covered) :
    ∃ content, (ks.foldl (i.coverKernel t covered) p).entries.lookup
      (i.confPath t k.version) = some content := by
  induction ks generalizing p with
  | nil => cases hk
  | cons k' ks ih =>
    rcases mem_cons.mp hk with rfl | hk
    · have hstep : ∃ content, (i.coverKernel t covered p k).entries.lookup
          (i.confPath t k.version) = some content := by
        cases hlookup : p.entries.lookup (i.confPath t k.version) with
        | none =>
          rw [entries_coverKernel, if_pos ⟨hcovered, hdry, hlookup⟩]
          exact ⟨_, AList.lookup_insert _⟩
        | some content => exact ⟨content, lookup_coverKernel_of_lookup hlookup⟩
      obtain ⟨content, hcontent⟩ := hstep
      rw [foldl_cons]
      exact ⟨content, lookup_foldl_of_lookup hcontent⟩
    · exact ih hk

lemma confPath_inj {v w : Text} (h : i.confPath t v = i.confPath t w) : v = w := by
  have hconf := List.cons.inj (append_cancel_left h)
  have hname := append_cancel_right hconf.2
  exact (List.cons.inj (append_cancel_left hname)).2

end Steps

end Invocation

def readRow (line : Text) : Option Row :=
  if "sha256:" <+: line then
    let (hash, path) := (cutAt "  " line).getD (line, line)
    some ⟨stripPrefix "sha256:" hash, path⟩
  else none

/-- `MANIFEST_HASHES`: the last row of a path counts. -/
def readManifest (text : Text) : Entries :=
  ((text.splitOn '\n').filterMap readRow).foldl (fun hashes r => hashes.insert r.path r.hash) ∅

/-! ### Removal -/

structure Removal where
  keepEntries : Bool
  force : Bool
  dryRun : Bool

def Target.fileOf (t : Target) (path : Text) : Text :=
  match path.dropPrefix? "boot:" with
  | some rel => inDir t.bootRoot rel
  | none => inDir t.esp path

namespace Removal

variable (t : Target) (r : Removal)

def removeFile (es : Entries) (path hash : Text) : Entries :=
  let full := t.fileOf path
  match es.lookup full with
  | none => es
  | some content =>
    if r.keepEntries ∧ inDir blsDir [] <+: stripPrefix "boot:" path then es
    else if (t.sha256 content = hash ∨ r.force) ∧ ¬ r.dryRun then es.erase full
    else es

/-- `do_remove`, as far as entries and the manifest go. Without a manifest it removes no entry. -/
def doRemove (d : Disk) : Disk :=
  match d.manifest with
  | none => d
  | some text =>
    ⟨(readManifest text).entries.foldl (fun es row => r.removeFile t es row.1 row.2) d.entries,
      if r.dryRun then d.manifest else none⟩

end Removal

lemma debian_oneLine : '\n' ∉ "debian".toList := by
  decide

def Invocation.withImages (token : Line) (images : List Text) : Invocation where
  noBls := false
  force := false
  dryRun := false
  replaceGrub := false
  entryToken := token
  distroId := "debian"
  distroName := ⟨"Debian GNU/Linux 12", by decide⟩
  kernelCmdline := "root=/dev/sda2 ro quiet"
  machineId := "unknown"
  images := images
  initrdOf _ := []
  fileVersion := []
  unameR := "6.1.0-13-amd64"
  isMountpoint path := path = "/boot/efi"
  source _ := []
  fstype _ := []
  header := []
  header_comment := by simp
  others := []
  others_plain := by simp

end LamBoot.Installer
