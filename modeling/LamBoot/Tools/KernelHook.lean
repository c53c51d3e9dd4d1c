import LamBoot.Tools.Shell

/-!
# The kernel hook

`lamboot-kernel-hook add`, which writes an entry file when a kernel is installed, against what the
loader's parser makes of it: the paths of several images run together in one `initrd` line, and a
`+` of the version is read as the mark of boot counters.
-/

namespace LamBoot.KernelHook

open List Text BlsEntry Shell

/-- The variables of `/etc/os-release` that the hook reads, empty where they are not set. -/
structure OsRelease where
  id : Line
  prettyName : Line
  name : Line

/-- The machine the hook runs on. -/
structure Host where
  /-- `[ -f path ]`. -/
  isFile : Text → Bool
  /-- Whether the shell can open a file to write it. -/
  canWrite : Text → Bool
  isMountpoint : Text → Bool
  /-- `findmnt -n -o SOURCE`, empty when nothing is mounted there. -/
  source : Text → Line
  /-- `findmnt -n -o FSTYPE`. -/
  fstype : Text → Text
  osRelease : Option OsRelease
  /-- `/etc/kernel/cmdline`. -/
  cmdlineFile : Option Line
  procCmdline : Option Line
  machineId : Option Line
  /-- `LAMBOOT_BLS_FORCE=1`. -/
  force : Bool

variable (host : Host)

namespace Host

def findEsp : Option Text :=
  ["/boot/efi".toList, "/efi".toList].find? host.isMountpoint

/-- The file systems of `/boot` whose kernels LamBoot reads in place. -/
def inPlace : List Text :=
  ["vfat", "ext2", "ext3", "ext4", "btrfs", "xfs"]

/-- Where entries go: to `/boot` when it is a partition of its own that LamBoot reads natively. -/
def resolveBlsDir (esp : Text) : Text :=
  if host.isMountpoint "/boot" ∧ (host.source "/boot").val ≠ [] ∧
      (host.source "/boot").val ≠ (host.source esp).val ∧
      host.fstype "/boot" ∈ inPlace then
    "/boot/loader/entries"
  else esp ++ "/loader/entries"

def bootPathPrefix : Text :=
  if host.isMountpoint "/boot" then [] else "/boot"

def blsPath (path : Text) : Text :=
  let rel := stripPrefix "/boot/" path
  let rel := stripPrefix "/" rel
  host.bootPathPrefix ++ '/' :: rel

def getDistroId : Text :=
  match host.osRelease with
  | some release => if release.id.val = [] then "linux" else release.id.val
  | none => "linux"

def getDistroName : Text :=
  match host.osRelease with
  | some release =>
    if release.prettyName.val ≠ [] then release.prettyName.val
    else if release.name.val ≠ [] then release.name.val
    else "Linux"
  | none => "Linux"

def getKernelCmdline : Text :=
  match host.cmdlineFile with
  | some cmdline => cmdline.val
  | none =>
    match host.procCmdline with
    | some cmdline =>
      deleteParameter "initrd=" (deleteParameter "BOOT_IMAGE=" cmdline.val)
    | none => []

/-- The command line with `root=` and `ro` before it when it names no root. -/
def ensureRootInCmdline (cmdline : Text) : Text :=
  if " root=" <:+: ' ' :: cmdline ++ [' '] then cmdline
  else
    let rootdev := (host.source "/").val
    if rootdev = [] then cmdline
    else if cmdline ≠ [] then "root=" ++ rootdev ++ " ro " ++ cmdline
    else "root=" ++ rootdev ++ " ro"

/-! ### Images -/

def microcode : List Text :=
  ["/boot/intel-ucode.img".toList, "/boot/amd-ucode.img".toList].filter host.isFile

/-- The names an initramfs can have, by the version and then by the flavor of the kernel image. -/
def initramfsCandidates (version kernelImage : Text) : List Text :=
  ["/boot/initramfs-" ++ version ++ ".img", "/boot/initrd.img-" ++ version,
    "/boot/initrd-" ++ version, "/boot/initramfs-" ++ version ++ "-fallback.img"] ++
  match afterLastWord "/vmlinuz-" kernelImage with
  | none => []
  | some [] => []
  | some flavor =>
    ["/boot/initramfs-" ++ flavor ++ ".img", "/boot/initrd-" ++ flavor,
      "/boot/initramfs-" ++ flavor ++ "-fallback.img"]

def initrdImages (version kernelImage : Text) : List Text :=
  host.microcode ++ ((initramfsCandidates version kernelImage).find? host.isFile).toList

/-- What `find_initrd` prints: every path as `bls_path` prints it, one after the other. -/
def findInitrd (version kernelImage : Text) : Text :=
  (host.initrdImages version kernelImage).flatMap host.blsPath

/-- The kernel an entry is for: an image under `/boot` that was passed, then the copy there of
the version, then any image that was passed. -/
def kernelReal (version : Text) (kernelImage : Line) : Option Text :=
  if kernelImage.val ≠ [] ∧ host.isFile kernelImage.val ∧
      stripPrefix "/boot/" kernelImage.val ≠ kernelImage.val then
    some kernelImage.val
  else if host.isFile ("/boot/vmlinuz-" ++ version) then
    some ("/boot/vmlinuz-" ++ version)
  else if kernelImage.val ≠ [] ∧ host.isFile kernelImage.val then some kernelImage.val
  else none

/-! ### Adding and removing entries -/

def entryFields (version kernelReal : Text) : List (Text × Text) :=
  let initrdLines := (host.findInitrd version kernelReal).splitOn '\n'
  let cmdline := host.ensureRootInCmdline host.getKernelCmdline
  let machineId := (host.machineId.map Subtype.val).getD []
  [("title".toList, host.getDistroName ++ " (".toList ++ version ++ ")".toList),
    ("version".toList, version)] ++
  (if machineId ≠ [] then [("machine-id".toList, machineId)] else []) ++
  [("sort-key".toList, host.getDistroId), ("linux".toList, output (host.blsPath kernelReal))] ++
  ((initrdLines.filter (· ≠ [])).map fun line => ("initrd".toList, line)) ++
  (if cmdline ≠ [] then [("options".toList, cmdline)] else [])

def entryFile (dir version : Text) : Text :=
  dir ++ '/' :: (host.getDistroId ++ '-' :: version ++ ".conf")

end Host

/-- How a run of the hook ends. -/
inductive Outcome where
  | died (message : Text)
  /-- The entry was there, and stays as it is. -/
  | kept (path : Text)
  | unwritten (path : Text)
  | created (path content : Text)
deriving DecidableEq

namespace Host

def espMissing : Outcome :=
  .died "Cannot find ESP mount point (/boot/efi or /efi)"

def doAdd (version : Text) (kernelImage : Line) : Outcome :=
  match host.findEsp with
  | none => espMissing
  | some esp =>
    let entryFile := host.entryFile (host.resolveBlsDir esp) version
    if host.isFile entryFile ∧ ¬ host.force then .kept entryFile
    else
      match host.kernelReal version kernelImage with
      | none => .died ("Cannot find kernel image for version " ++ version)
      | some kernelReal =>
        if host.canWrite entryFile then
          .created entryFile (textOfFields (host.entryFields version kernelReal))
        else .unwritten entryFile

/-- `lamboot-kernel-hook add`. -/
def add (version : Text) (kernelImage : Line) : Outcome :=
  if version = [] then
    .died "Usage: lamboot-kernel-hook add KERNEL_VERSION [KERNEL_IMAGE]"
  else host.doAdd version kernelImage

/-! ### Single lines -/

section OneLine

variable {host}

lemma mem_blsPath_iff {c : Char} (hc : isWhitespace c = true) (path : Text) :
    c ∈ host.blsPath path ↔ c ∈ path := by
  have hstrip : ∀ p s : Text,
      (∀ d ∈ p, isWhitespace d = false) → (c ∈ stripPrefix p s ↔ c ∈ s) := by
    intro p s hp
    have hnot : c ∉ p := fun h => Bool.noConfusion ((hp c h).symm.trans hc)
    rcases stripPrefix_cases p s with h | h
    · rw [h]
    · conv_rhs => rw [h]
      simp [hnot]
  have hfront : c ∉ host.bootPathPrefix := by
    unfold bootPathPrefix
    split_ifs
    · simp
    · intro h
      have hboot : ∀ d ∈ "/boot".toList, isWhitespace d = false := by decide
      exact Bool.noConfusion ((hboot c h).symm.trans hc)
  have hslash : c ≠ '/' := by
    rintro rfl
    cases hc
  unfold blsPath
  simp only [mem_append, mem_cons, hfront, hslash, false_or]
  rw [hstrip _ _ (by decide), hstrip _ _ (by decide)]

lemma exists_blsPath_eq_cons (path : Text) : ∃ t, host.blsPath path = '/' :: t := by
  unfold blsPath bootPathPrefix
  split_ifs <;> exact ⟨_, rfl⟩

lemma oneLine_getDistroId : '\n' ∉ host.getDistroId := by
  unfold getDistroId
  split
  · next release _ =>
    split_ifs
    · decide
    · exact release.id.property
  · decide

lemma oneLine_getDistroName : '\n' ∉ host.getDistroName := by
  unfold getDistroName
  split
  · next release _ =>
    split_ifs
    · exact release.prettyName.property
    · exact release.name.property
    · decide
  · decide

lemma oneLine_getKernelCmdline : '\n' ∉ host.getKernelCmdline := by
  unfold getKernelCmdline
  split
  · next cmdline _ => exact cmdline.property
  · split
    · next cmdline _ =>
      exact fun h => cmdline.property (deleteParameter_subset _ _ (deleteParameter_subset _ _ h))
    · simp

lemma oneLine_ensureRootInCmdline {cmdline : Text} (h : '\n' ∉ cmdline) :
    '\n' ∉ host.ensureRootInCmdline cmdline := by
  have hsource := (host.source "/").property
  unfold ensureRootInCmdline
  generalize host.source "/" = rootdev at hsource
  dsimp only
  split_ifs <;> simp [h, hsource]

variable {version kernel : Text}

lemma oneLine_kernelReal {kernelImage : Line} (hversion : '\n' ∉ version)
    (h : host.kernelReal version kernelImage = some kernel) : '\n' ∉ kernel := by
  unfold kernelReal at h
  split_ifs at h <;> cases h
  · exact kernelImage.property
  · simp [hversion]
  · exact kernelImage.property

lemma of_mem_entryFields {f : Text × Text}
    (hf : f ∈ host.entryFields version kernel) :
    f = ("title".toList, host.getDistroName ++ " (".toList ++ version ++ ")".toList) ∨
    f = ("version".toList, version) ∨
    f = ("machine-id".toList, (host.machineId.map Subtype.val).getD []) ∨
    f = ("sort-key".toList, host.getDistroId) ∨
    f = ("linux".toList, output (host.blsPath kernel)) ∨
    (∃ line ∈ (host.findInitrd version kernel).splitOn '\n', f = ("initrd".toList, line)) ∨
    f = ("options".toList, host.ensureRootInCmdline host.getKernelCmdline) := by
  simp only [entryFields, mem_append, mem_cons, not_mem_nil, or_false, mem_map, mem_filter] at hf
  rcases hf with ((((hf | hf) | hf) | (hf | hf)) | ⟨line, hline, hf⟩) | hf
  · simp [hf]
  · simp [hf]
  · split_ifs at hf
    · simp [mem_singleton.mp hf]
    · cases hf
  · simp [hf]
  · simp [hf]
  · exact .inr (.inr (.inr (.inr (.inr (.inl ⟨line, hline.1, hf.symm⟩)))))
  · split_ifs at hf
    · simp [mem_singleton.mp hf]
    · cases hf

variable (host) in
lemma oneLine_entryFields (hversion : '\n' ∉ version)
    (hkernel : '\n' ∉ kernel) : ∀ f ∈ host.entryFields version kernel, '\n' ∉ f.2 := by
  have hpath : '\n' ∉ host.blsPath kernel := (mem_blsPath_iff (by decide) kernel).not.mpr hkernel
  have hmachine : '\n' ∉ (host.machineId.map Subtype.val).getD [] := by
    cases host.machineId with
    | none => simp
    | some id => exact id.property
  intro f hf
  rcases of_mem_entryFields hf with rfl | rfl | rfl | rfl | rfl | ⟨line, hline, rfl⟩ | rfl
  · simp [oneLine_getDistroName, hversion]
  · exact hversion
  · exact hmachine
  · exact oneLine_getDistroId
  · exact fun h => hpath (output_subset _ h)
  · exact not_mem_of_mem_splitOn hline
  · exact oneLine_ensureRootInCmdline oneLine_getKernelCmdline

variable (host) in
lemma isKey_entryFields (version kernel : Text) :
    ∀ f ∈ host.entryFields version kernel, IsKey f.1 := by
  have hkeys : ∀ key ∈ ["title".toList, "version".toList, "machine-id".toList, "sort-key".toList,
      "linux".toList, "initrd".toList, "options".toList], IsKey key := by decide
  intro f hf
  refine hkeys _ ?_
  rcases of_mem_entryFields hf with rfl | rfl | rfl | rfl | rfl | ⟨line, hline, rfl⟩ | rfl <;> simp

end OneLine

/-! ### Reading an entry back -/

def imagesFor (version : Text) (kernelImage : Line) : List Text :=
  match host.kernelReal version kernelImage with
  | some kernel => host.initrdImages version kernel
  | none => []

/-- An entry file says to the loader what it was written for: the version, an id without
counters, and every image with its own path. -/
def ReadsBack (version : Text) (kernelImage : Line) (path content : Text) : Prop :=
  ∃ entry, BlsEntry.parse (afterLast '/' path) content = some entry ∧
    entry.version = some version ∧
    entry.id = host.getDistroId ++ '-' :: version ∧
    entry.triesLeft = none ∧ entry.triesDone = none ∧
    entry.initrd = (host.imagesFor version kernelImage).map fun p => normalizePath (host.blsPath p)

/-- What the names must be like for an entry to read back. -/
structure Plain (version : Text) (kernelImage : Line) : Prop where
  oneLine : '\n' ∉ version
  trimmed : trim version = version
  noPlus : '+' ∉ host.getDistroId ∧ '+' ∉ version
  noSlash : '/' ∉ host.getDistroId ∧ '/' ∉ version
  noConf : ¬ ".conf" <:+ version
  oneImage : host.imagesFor version kernelImage = [] ∨
    ∃ p, host.imagesFor version kernelImage = [p] ∧ ∀ c ∈ p, isWhitespace c = false

section ReadsBack

variable {host} {version kernel path content : Text} {kernelImage : Line}

lemma of_add_created (h : host.add version kernelImage = .created path content) :
    version ≠ [] ∧
      (∃ esp, host.findEsp = some esp ∧
        path = host.entryFile (host.resolveBlsDir esp) version) ∧
      ∃ kernel, host.kernelReal version kernelImage = some kernel ∧
        content = textOfFields (host.entryFields version kernel) := by
  unfold add at h
  split_ifs at h with hversion
  unfold doAdd at h
  split at h
  · cases h
  · next esp hesp =>
    dsimp only at h
    cases hkernel : host.kernelReal version kernelImage with
    | none =>
      rw [hkernel] at h
      split_ifs at h
    | some kernel =>
      rw [hkernel] at h
      split_ifs at h
      cases h
      exact ⟨hversion, ⟨esp, hesp, rfl⟩, kernel, rfl, rfl⟩

/-! #### The name -/

lemma id_subset (filename : Text) : (ofFilename filename).id ⊆ filename :=
  ((isPrefix_id_ofFilename filename).trans (isPrefix_trimEndMatches_go _ _ _)).subset

lemma not_mem_afterLast (c : Char) (s : Text) : c ∉ afterLast c s := by
  unfold afterLast
  cases h : rsplitOnce c s with
  | none => exact rsplitOnce_eq_none_iff.mp h
  | some parts => exact (rsplitOnce_eq_some_iff.mp h).2

lemma conf_suffix_iff (distro : Text) :
    ".conf" <:+ distro ++ '-' :: version ↔ ".conf" <:+ version := by
  constructor
  · intro h
    rcases suffix_or_suffix_of_suffix h (suffix_append distro ('-' :: version)) with h | h
    · rcases suffix_cons_iff.mp h with h | h
      · cases h
      · exact h
    · exact absurd (h.subset mem_cons_self) (by decide)
  · exact fun h => h.trans ((suffix_cons '-' version).trans (suffix_append distro _))

variable (host) (version) in
lemma name_reads_back_iff (dir : Text) :
    ((ofFilename (afterLast '/' (host.entryFile dir version))).id =
        host.getDistroId ++ '-' :: version ∧
      (ofFilename (afterLast '/' (host.entryFile dir version))).triesLeft = none ∧
      (ofFilename (afterLast '/' (host.entryFile dir version))).triesDone = none) ↔
    ('+' ∉ host.getDistroId ∧ '+' ∉ version) ∧ ('/' ∉ host.getDistroId ∧ '/' ∉ version) ∧
      ¬ ".conf" <:+ version := by
  have hmem : ∀ c : Char, c ≠ '-' →
      (c ∉ host.getDistroId ++ '-' :: version ↔ c ∉ host.getDistroId ∧ c ∉ version) := by
    intro c hc
    simp [hc]
  by_cases hslash : '/' ∈ host.getDistroId ++ '-' :: version
  · -- the name in the directory is only what follows the slash
    refine iff_of_false (fun h => ?_) fun h => (hmem '/' (by decide)).mpr h.2.1 hslash
    exact not_mem_afterLast '/' _ (id_subset _ (h.1 ▸ hslash))
  · have hname : afterLast '/' (host.entryFile dir version) =
        host.getDistroId ++ '-' :: version ++ ".conf" :=
      afterLast_append (by simpa using hslash)
    rw [hname, ofFilename_plain_iff, conf_suffix_iff, hmem '+' (by decide)]
    exact and_congr_right fun _ => (and_iff_right ((hmem '/' (by decide)).mp hslash)).symm

/-! #### The images -/

lemma initrd_entryFields (filename : Text) :
    (ofFields filename (host.entryFields version kernel)).initrd =
      (splitWhitespace (host.findInitrd version kernel)).map normalizePath := by
  have hfilter : (host.entryFields version kernel).filter (·.1 = "initrd".toList) =
      (((host.findInitrd version kernel).splitOn '\n').filter (· ≠ [])).map
        fun line => ("initrd".toList, line) := by
    unfold entryFields
    dsimp only
    split_ifs <;> simp [filter_append, filter_map]
  have hfold : ∀ (pieces : List Text) (l : List Text),
      ((pieces.filter (· ≠ [])).map fun line => ("initrd".toList, line)).foldl
        (fun l f => l ++ (splitWhitespace f.2).map normalizePath) l =
      l ++ (pieces.flatMap splitWhitespace).map normalizePath := by
    intro pieces
    induction pieces with
    | nil => simp
    | cons piece pieces ih =>
      intro l
      by_cases hpiece : piece = []
      · rw [filter_cons_of_neg (by simpa using hpiece), ih, hpiece]
        rfl
      · rw [filter_cons_of_pos (by simpa using hpiece), map_cons, foldl_cons, ih]
        simp
  rw [ofFields, initrd_foldl, hfilter, initrd_ofFilename, hfold, ← splitWhitespace_splitOn]
  rfl

lemma mem_normalizePath_iff {c : Char} (hc : isWhitespace c = true) (path : Text) :
    c ∈ normalizePath path ↔ c ∈ path := by
  have hback : c ≠ '\\' := by
    rintro rfl
    cases hc
  have hslash : c ≠ '/' := by
    rintro rfl
    cases hc
  have hreplace : c ∈ replaceChar '/' '\\' path ↔ c ∈ path := by
    unfold replaceChar
    rw [mem_map]
    constructor
    · rintro ⟨d, hd, heq⟩
      split_ifs at heq
      · exact absurd heq.symm hback
      · exact heq ▸ hd
    · exact fun h => ⟨c, h, if_neg hslash⟩
  unfold normalizePath
  dsimp only
  split_ifs
  · exact hreplace
  · rw [mem_cons, hreplace]
    exact or_iff_right hback

lemma length_normalizePath {path : Text} (h : path.head? = some '/') :
    (normalizePath path).length = path.length := by
  have hhead : (replaceChar '/' '\\' path).head? = some '\\' := by
    rw [replaceChar, head?_map, h]
    rfl
  unfold normalizePath
  dsimp only
  rw [if_pos hhead, replaceChar, length_map]

variable (host) in
lemma images_read_back_iff {images : List Text}
    (hfirst : ∀ p q rest, images = p :: q :: rest → ∀ c ∈ p, isWhitespace c = false) :
    (splitWhitespace (images.flatMap host.blsPath)).map normalizePath =
        images.map (fun p => normalizePath (host.blsPath p)) ↔
      images = [] ∨ ∃ p, images = [p] ∧ ∀ c ∈ p, isWhitespace c = false := by
  match images with
  | [] => simp [splitWhitespace]
  | [p] =>
    have hne : host.blsPath p ≠ [] := by
      obtain ⟨t, ht⟩ : ∃ t, host.blsPath p = '/' :: t := exists_blsPath_eq_cons p
      simp [ht]
    simp only [flatMap_singleton, map_singleton, cons_ne_nil, false_or,
      cons.injEq, and_true, exists_eq_left']
    constructor
    · intro h c hc
      by_contra hwhite
      rw [Bool.not_eq_false] at hwhite
      obtain ⟨word, hword, heq⟩ := mem_map.mp (h ▸ mem_singleton_self _)
      have hmem : c ∈ word := by
        rw [← mem_normalizePath_iff hwhite, heq, mem_normalizePath_iff hwhite,
          mem_blsPath_iff hwhite]
        exact hc
      rw [isWhitespace_of_mem_word hword hmem] at hwhite
      cases hwhite
    · intro h
      rw [splitWhitespace_eq_singleton hne fun c hc => ?_, map_singleton]
      by_contra hwhite
      rw [Bool.not_eq_false] at hwhite
      rw [h c ((mem_blsPath_iff hwhite p).mp hc)] at hwhite
      cases hwhite
  | p :: q :: rest =>
    -- the first word goes on into the path of the second image
    refine iff_of_false (fun h => ?_) (by simp)
    have hplain : ∀ c ∈ host.blsPath p, (!isWhitespace c) = true := by
      intro c hc
      by_contra hwhite
      simp only [Bool.not_eq_true', Bool.not_eq_false] at hwhite
      rw [hfirst p q rest rfl c ((mem_blsPath_iff hwhite p).mp hc)] at hwhite
      cases hwhite
    obtain ⟨s, hs⟩ : ∃ s, host.blsPath p = '/' :: s := exists_blsPath_eq_cons p
    obtain ⟨t, ht⟩ : ∃ t, host.blsPath q = '/' :: t := exists_blsPath_eq_cons q
    let behind := t ++ rest.flatMap host.blsPath
    have hpaths : (p :: q :: rest).flatMap host.blsPath = host.blsPath p ++ '/' :: behind := by
      simp [ht, behind]
    have hword : (host.blsPath p ++ '/' :: behind).takeWhile (!isWhitespace ·) =
        host.blsPath p ++ '/' :: behind.takeWhile (!isWhitespace ·) := by
      rw [takeWhile_append_of_pos hplain, takeWhile_cons_of_pos (by decide)]
    have hhead := congrArg head? h
    rw [hpaths, head?_map, head?_splitWhitespace (by rw [hs]; rfl) (by decide), hword] at hhead
    have hlength := congrArg length (Option.some.inj hhead)
    rw [length_normalizePath (by rw [hs]; rfl), length_normalizePath (by rw [hs]; rfl)] at hlength
    simp at hlength

/-! #### The version -/

lemma version_entryFields (filename : Text) :
    (ofFields filename (host.entryFields version kernel)).version =
      if trim version = [] then none else some (trim version) := by
  have hfilter : (host.entryFields version kernel).filter (·.1 = "version".toList) =
      [("version".toList, version)] := by
    unfold entryFields
    dsimp only
    split_ifs <;> simp [filter_append, filter_map]
  rw [ofFields, version_foldl, hfilter, version_ofFilename]
  rfl

variable (host) (version) (kernel) in
lemma linux_entryFields (filename : Text) :
    (ofFields filename (host.entryFields version kernel)).linux ≠ none := by
  have hfilter : (host.entryFields version kernel).filter (·.1 = "linux".toList) =
      [("linux".toList, output (host.blsPath kernel))] := by
    unfold entryFields
    dsimp only
    split_ifs <;> simp [filter_append, filter_map]
  have hpath : trim (output (host.blsPath kernel)) ≠ [] := by
    intro h
    obtain ⟨t, ht⟩ : ∃ t, host.blsPath kernel = '/' :: t := exists_blsPath_eq_cons kernel
    have hslash := trim_eq_nil_iff.mp h '/' (mem_output (by decide) (by simp [ht]))
    cases hslash
  rw [ofFields, linux_foldl, hfilter, foldl_cons, if_neg hpath]
  exact Option.some_ne_none _

variable (host) (version) (kernelImage) in
lemma first_image_plain {p q : Text} {rest : List Text}
    (h : host.imagesFor version kernelImage = p :: q :: rest) :
    ∀ c ∈ p, isWhitespace c = false := by
  have hliteral : ∀ path ∈ ["/boot/intel-ucode.img".toList, "/boot/amd-ucode.img".toList],
      ∀ c ∈ path, isWhitespace c = false := by decide
  unfold imagesFor at h
  split at h
  · next kernel _ =>
    unfold initrdImages at h
    cases hmicro : host.microcode with
    | nil =>
      rw [hmicro] at h
      have hlength := congrArg length h
      cases hfind : (initramfsCandidates version kernel).find? host.isFile <;>
        simp [hfind] at hlength
    | cons m more =>
      rw [hmicro, cons_append] at h
      rw [← (cons.inj h).1]
      exact hliteral m (mem_of_mem_filter (hmicro ▸ mem_cons_self))
  · cases h

lemma parse_entryFields (hversion : '\n' ∉ version)
    (hkernel : host.kernelReal version kernelImage = some kernel) (filename : Text) :
    BlsEntry.parse filename (textOfFields (host.entryFields version kernel)) =
      some (ofFields filename (host.entryFields version kernel)) := by
  have hread := foldl_readLine_textOfFields (host.isKey_entryFields version kernel)
    (host.oneLine_entryFields hversion (oneLine_kernelReal hversion hkernel)) filename
  have hlinux := host.linux_entryFields version kernel filename
  unfold BlsEntry.parse
  dsimp only
  rw [hread, if_neg (by simp [hlinux])]

end ReadsBack

/-- An entry that the hook writes reads back exactly when the names are plain: no `+` or slash in
them, no line feed, outer white space or final `.conf` in the version, and one image at most,
without white space in its name. -/
theorem reads_back_iff {version path content : Text} {kernelImage : Line}
    (h : host.add version kernelImage = .created path content) :
    host.ReadsBack version kernelImage path content ↔ host.Plain version kernelImage := by
  obtain ⟨hne, ⟨esp, -, rfl⟩, kernel, hkernel, rfl⟩ := of_add_created h
  generalize host.resolveBlsDir esp = dir
  by_cases hline : '\n' ∈ version
  · refine iff_of_false ?_ fun hplain => hplain.oneLine hline
    rintro ⟨entry, hparse, hversion, -⟩
    exact version_parse_oneLine hparse hversion hline
  · have hparse := parse_entryFields hline hkernel (afterLast '/' (host.entryFile dir version))
    have hnamed := parse_namedBy hparse
    have himages : host.imagesFor version kernelImage = host.initrdImages version kernel := by
      rw [imagesFor, hkernel]
    have hversion : (ofFields (afterLast '/' (host.entryFile dir version))
        (host.entryFields version kernel)).version = some version ↔ trim version = version := by
      rw [version_entryFields]
      split_ifs with htrim
      · exact iff_of_false nofun fun h => hne (h ▸ htrim)
      · exact Option.some_inj
    have hread := host.images_read_back_iff fun p q rest =>
      host.first_image_plain version kernelImage
    unfold ReadsBack
    rw [hparse]
    simp only [Option.some.injEq, exists_eq_left']
    rw [hversion, hnamed.id, hnamed.triesLeft, hnamed.triesDone, initrd_entryFields, findInitrd,
      ← himages, hread]
    have hname := host.name_reads_back_iff version dir
    constructor
    · rintro ⟨htrim, hid, hleft, hdone, hone⟩
      obtain ⟨hplus, hslash, hconf⟩ := hname.mp ⟨hid, hleft, hdone⟩
      exact ⟨hline, htrim, hplus, hslash, hconf, hone⟩
    · rintro ⟨-, htrim, hplus, hslash, hconf, hone⟩
      obtain ⟨hid, hleft, hdone⟩ := hname.mpr ⟨hplus, hslash, hconf⟩
      exact ⟨htrim, hid, hleft, hdone, hone⟩

/-! ### Two hosts -/

/-- A host with an EFI partition under `/boot/efi` and `/boot` on the root file system. -/
def withFiles (distro : Line) (files : List Text) : Host where
  isFile path := files.contains path
  canWrite _ := true
  isMountpoint path := path = "/boot/efi"
  source path :=
    if path = "/" then ⟨"/dev/sda2", by decide⟩ else ⟨"/dev/sda1", by decide⟩
  fstype _ := "vfat"
  osRelease := some ⟨distro, ⟨[], by decide⟩, ⟨"Linux", by decide⟩⟩
  cmdlineFile := some ⟨"quiet", by decide⟩
  procCmdline := none
  machineId := none
  force := false

def debian : Host :=
  withFiles ⟨"debian", by decide⟩
    ["/boot/vmlinuz-6.1.0-13-amd64", "/boot/initrd.img-6.1.0-13-amd64"]

theorem debian_reads_back :
    ∃ path content,
      debian.add "6.1.0-13-amd64" ⟨[], by decide⟩ = .created path content ∧
        debian.ReadsBack "6.1.0-13-amd64" ⟨[], by decide⟩ path content :=
  ⟨_, _, rfl, (debian.reads_back_iff rfl).mpr
    ⟨by decide, by decide, by decide, by decide, by decide,
      .inr ⟨"/boot/initrd.img-6.1.0-13-amd64", by decide, by decide⟩⟩⟩

def arch : Host :=
  withFiles ⟨"arch", by decide⟩
    ["/boot/vmlinuz-linux", "/boot/intel-ucode.img", "/boot/initramfs-linux.img"]

/-- The two images of `arch` are read as one file that does not exist. -/
theorem arch_not_reads_back :
    ∃ path content,
      arch.add "6.19.11".toList ⟨"/boot/vmlinuz-linux".toList, by decide⟩ =
          .created path content ∧
        (BlsEntry.parse (afterLast '/' path) content).map BlsEntry.initrd =
          some ["\\boot\\intel-ucode.img\\boot\\initramfs-linux.img".toList] ∧
        ¬ arch.ReadsBack "6.19.11".toList ⟨"/boot/vmlinuz-linux".toList, by decide⟩
          path content := by
  refine ⟨_, _, rfl, ?_⟩
  rw [and_iff_left_of_imp]
  · decide +kernel
  · rintro hread ⟨entry, hparse, -, -, -, -, himages⟩
    rw [hparse, Option.map_some, Option.some_inj, himages] at hread
    have hlength := congrArg length hread
    rw [length_map] at hlength
    exact absurd hlength (by decide)

end Host

end LamBoot.KernelHook
