import LamBoot.Discovery.Bls

/-!
# Initrds that are looked for

What `find_initrd` returns for a kernel. Where none of the names it tries is there, it may be left
with the microcode alone, or with the initramfs of the kernel `linux` for another one of Arch Linux.
-/

namespace LamBoot

open List Text

def initramfsNames (version : Text) : List Text :=
  ["initramfs-".toList ++ version ++ ".img".toList, "initrd.img-".toList ++ version,
    "initrd-".toList ++ version, "initramfs-".toList ++ version ++ "-fallback.img".toList]

def microcodeNames : List Text :=
  ["intel-ucode.img".toList, "amd-ucode.img".toList]

/-- A list of initrds for a kernel: none, or an initramfs of the version of the kernel and before it
only microcode. -/
def InitrdsFor (kernelPath : Text) (initrds : List Text) : Prop :=
  initrds = [] ∨ ∃ microcode main, initrds = microcode ++ [main] ∧
    (∀ path ∈ microcode, afterLast '\\' path ∈ microcodeNames) ∧
    afterLast '\\' main ∈ initramfsNames (extractKernelVersion kernelPath)

section FindInitrd

variable {kernelPath path : Text} {volume : Volume}

lemma not_mem_afterLast (c : Char) (s : Text) : c ∉ afterLast c s := by
  unfold afterLast
  split
  · next hsplit => exact (rsplitOnce_eq_some_iff.mp hsplit).2
  · next hsplit => exact rsplitOnce_eq_none_iff.mp hsplit

lemma not_mem_extractKernelVersion (kernelPath : Text) :
    '\\' ∉ extractKernelVersion kernelPath := by
  have hname := not_mem_afterLast '\\' kernelPath
  unfold extractKernelVersion
  dsimp only
  split
  · next version hversion =>
    obtain ⟨p, hp, -⟩ := dropPrefix?_eq_some_iff.mp hversion
    exact fun hmem => hname (hp ▸ mem_append_right _ hmem)
  · split
    · next version hversion =>
      obtain ⟨p, hp, -⟩ := dropPrefix?_eq_some_iff.mp hversion
      exact fun hmem => hname (hp ▸ mem_append_right _ hmem)
    · exact hname

lemma not_mem_of_mem_initramfsNames {version name : Text} (hversion : '\\' ∉ version)
    (h : name ∈ initramfsNames version) : '\\' ∉ name := by
  simp only [initramfsNames, mem_cons, not_mem_nil, or_false] at h
  rcases h with rfl | rfl | rfl | rfl <;>
    simp only [mem_append, hversion, or_false] <;> decide

lemma initramfsPaths_eq (kernelPath : Text) :
    let names := initramfsNames (extractKernelVersion kernelPath)
    initramfsPaths kernelPath =
      names.map (extractDirectory kernelPath ++ '\\' :: ·) ++
        ((names.take 3).map ("\\boot".toList ++ '\\' :: ·) ++
          (names.take 2).map ([] ++ '\\' :: ·)) := by
  have hhere : "\\initramfs-".toList = '\\' :: "initramfs-".toList ∧
      "\\initrd.img-".toList = '\\' :: "initrd.img-".toList ∧
      "\\initrd-".toList = '\\' :: "initrd-".toList := by decide
  have hboot : "\\boot\\initramfs-".toList = "\\boot".toList ++ '\\' :: "initramfs-".toList ∧
      "\\boot\\initrd.img-".toList = "\\boot".toList ++ '\\' :: "initrd.img-".toList ∧
      "\\boot\\initrd-".toList = "\\boot".toList ++ '\\' :: "initrd-".toList := by decide
  simp only [initramfsPaths, initramfsNames, hhere, hboot, map_cons, map_nil,
    take_succ_cons, take_zero, cons_append, append_assoc, nil_append]

lemma exists_of_mem_initramfsPaths (h : path ∈ initramfsPaths kernelPath) :
    ∃ dir, ∃ name ∈ initramfsNames (extractKernelVersion kernelPath),
      path = dir ++ '\\' :: name := by
  rw [initramfsPaths_eq] at h
  simp only [mem_append, mem_map] at h
  rcases h with ⟨name, hname, rfl⟩ | ⟨name, hname, rfl⟩ | ⟨name, hname, rfl⟩
  · exact ⟨_, name, hname, rfl⟩
  · exact ⟨_, name, mem_of_mem_take hname, rfl⟩
  · exact ⟨_, name, mem_of_mem_take hname, rfl⟩

lemma afterLast_of_mem_initramfsPaths (h : path ∈ initramfsPaths kernelPath) :
    afterLast '\\' path ∈ initramfsNames (extractKernelVersion kernelPath) := by
  obtain ⟨dir, name, hname, rfl⟩ := exists_of_mem_initramfsPaths h
  have hback := not_mem_of_mem_initramfsNames (not_mem_extractKernelVersion kernelPath) hname
  rwa [afterLast_append hback]

lemma afterLast_of_mem_microcodePaths (h : path ∈ microcodePaths kernelPath) :
    afterLast '\\' path ∈ microcodeNames := by
  have hnames : "\\intel-ucode.img".toList = '\\' :: "intel-ucode.img".toList ∧
      "\\amd-ucode.img".toList = '\\' :: "amd-ucode.img".toList := by decide
  simp only [microcodePaths, map_cons, map_nil, hnames, mem_cons, not_mem_nil, or_false] at h
  rcases h with rfl | rfl
  · rw [afterLast_append (by decide)]
    decide
  · rw [afterLast_append (by decide)]
    decide

lemma not_mem_initramfsNames_of_microcode {version name : Text} (h : name ∈ microcodeNames) :
    name ∉ initramfsNames version := by
  have hmicrocode : ∀ name ∈ microcodeNames, ¬ "init".toList <+: name := by decide
  have hinit : "init".toList <+: "initramfs-".toList ∧ "init".toList <+: "initrd.img-".toList ∧
      "init".toList <+: "initrd-".toList := by decide
  intro hname
  refine hmicrocode name h ?_
  simp only [initramfsNames, mem_cons, not_mem_nil, or_false] at hname
  rcases hname with rfl | rfl | rfl | rfl
  · exact (hinit.1.trans (prefix_append ..)).trans (prefix_append ..)
  · exact hinit.2.1.trans (prefix_append ..)
  · exact hinit.2.2.trans (prefix_append ..)
  · exact (hinit.1.trans (prefix_append ..)).trans (prefix_append ..)

lemma linux_not_mem_initramfsNames {version : Text} (hversion : "linux-".toList <+: version) :
    "initramfs-linux.img".toList ∉ initramfsNames version := by
  have hinitrd : ¬ "initrd".toList <+: "initramfs-linux.img".toList ∧
      "initrd".toList <+: "initrd.img-".toList ∧ "initrd".toList <+: "initrd-".toList := by decide
  have hlength := hversion.length_le
  have hlinux : "linux-".toList.length = 6 := rfl
  have hnames : "initramfs-linux.img".toList.length = 19 ∧ "initramfs-".toList.length = 10 ∧
      ".img".toList.length = 4 ∧ "-fallback.img".toList.length = 13 := ⟨rfl, rfl, rfl, rfl⟩
  intro hname
  simp only [initramfsNames, mem_cons, not_mem_nil, or_false] at hname
  rcases hname with hname | hname | hname | hname
  · have := congrArg length hname
    simp only [length_append, hnames] at this
    omega
  · exact hinitrd.1 (hname ▸ hinitrd.2.1.trans (prefix_append ..))
  · exact hinitrd.1 (hname ▸ hinitrd.2.2.trans (prefix_append ..))
  · have := congrArg length hname
    simp only [length_append, hnames] at this
    omega

lemma afterLast_archInitramfs (kernelPath : Text) :
    afterLast '\\' (archInitramfs kernelPath) = "initramfs-linux.img".toList := by
  have hname : "\\initramfs-linux.img".toList = '\\' :: "initramfs-linux.img".toList := by decide
  rw [archInitramfs, hname, afterLast_append (by decide)]

lemma archInitramfs_mem (hversion : extractKernelVersion kernelPath = "linux".toList) :
    archInitramfs kernelPath ∈ initramfsPaths kernelPath := by
  have hname : "\\initramfs-linux.img".toList =
      "\\initramfs-".toList ++ "linux".toList ++ ".img".toList := by decide
  rw [archInitramfs, initramfsPaths, hversion, hname, ← append_assoc, ← append_assoc]
  exact mem_cons_self ..

/-- The initramfs of the kernel `linux` is asked for. -/
def ArchCase (kernelPath : Text) (volume : Volume) : Prop :=
  (extractKernelVersion kernelPath = "linux".toList ∨
    "linux-".toList.isPrefixOf (extractKernelVersion kernelPath) = true) ∧
    volume.existsStr (archInitramfs kernelPath) = true
deriving Decidable

lemma findInitrd_eq (kernelPath : Text) (volume : Volume) :
    findInitrd kernelPath volume =
      ((microcodePaths kernelPath).find? volume.existsStr).toList ++
        match (initramfsPaths kernelPath).find? volume.existsStr with
        | some main => [main]
        | none => if ArchCase kernelPath volume then [archInitramfs kernelPath] else [] := by
  unfold findInitrd
  cases (initramfsPaths kernelPath).find? volume.existsStr with
  | some main => rfl
  | none =>
    by_cases harch : ArchCase kernelPath volume
    · exact (if_pos harch).trans (by rw [if_pos harch])
    · exact (if_neg harch).trans (by rw [if_neg harch, append_nil])

lemma InitrdsFor.last {l : List Text} (h : InitrdsFor kernelPath (l ++ [path])) :
    afterLast '\\' path ∈ initramfsNames (extractKernelVersion kernelPath) := by
  rcases h with hnil | ⟨before, main, heq, -, hmain⟩
  · simp at hnil
  · obtain ⟨-, rfl⟩ := append_singleton_inj.mp heq
    exact hmain

lemma initrdsFor_microcode_iff {microcode : Option Text}
    (h : ∀ path ∈ microcode.toList, afterLast '\\' path ∈ microcodeNames) :
    InitrdsFor kernelPath microcode.toList ↔ microcode = none := by
  cases microcode with
  | none => exact iff_of_true (.inl rfl) rfl
  | some path =>
    refine iff_of_false (fun hfor => ?_) (Option.some_ne_none path)
    have hlast := InitrdsFor.last (l := []) hfor
    exact not_mem_initramfsNames_of_microcode (h path (mem_singleton_self path)) hlast

/-- What is returned is right just when an initramfs of the version is found, or nothing is: no
microcode, and for another kernel of Arch Linux not the initramfs of the kernel `linux`. -/
theorem initrdsFor_findInitrd_iff (kernelPath : Text) (volume : Volume) :
    InitrdsFor kernelPath (findInitrd kernelPath volume) ↔
      (∃ path ∈ initramfsPaths kernelPath, volume.existsStr path = true) ∨
      (∀ path ∈ microcodePaths kernelPath, volume.existsStr path = false) ∧
        ¬ ("linux-".toList <+: extractKernelVersion kernelPath ∧
          volume.existsStr (archInitramfs kernelPath) = true) := by
  have hmicrocode : ∀ path ∈ ((microcodePaths kernelPath).find? volume.existsStr).toList,
      afterLast '\\' path ∈ microcodeNames := by
    intro path hpath
    exact afterLast_of_mem_microcodePaths (mem_of_find?_eq_some (Option.mem_toList.mp hpath))
  rw [findInitrd_eq]
  cases hfind : (initramfsPaths kernelPath).find? volume.existsStr with
  | some main =>
    have hmem := mem_of_find?_eq_some hfind
    refine iff_of_true (.inr ⟨_, main, rfl, hmicrocode, afterLast_of_mem_initramfsPaths hmem⟩) ?_
    exact .inl ⟨main, hmem, find?_some hfind⟩
  | none =>
    have hnone : ¬ ∃ path ∈ initramfsPaths kernelPath, volume.existsStr path = true := by
      simpa using hfind
    have harch : ArchCase kernelPath volume ↔ "linux-".toList <+: extractKernelVersion kernelPath ∧
        volume.existsStr (archInitramfs kernelPath) = true := by
      rw [ArchCase, isPrefixOf_iff_prefix]
      refine and_congr_left fun hexists => or_iff_right fun hlinux => ?_
      exact hnone ⟨_, archInitramfs_mem hlinux, hexists⟩
    rw [or_iff_right hnone, ← harch]
    dsimp only
    split_ifs with hcase
    · refine iff_of_false (fun hfor => ?_) fun h => h.2 hcase
      have hlast := hfor.last
      rw [afterLast_archInitramfs] at hlast
      exact linux_not_mem_initramfsNames (harch.mp hcase).1 hlast
    · rw [append_nil, initrdsFor_microcode_iff hmicrocode, find?_eq_none, and_iff_left hcase]
      simp only [Bool.not_eq_true]

end FindInitrd

def microcodeVolume : Volume :=
  .ofFiles "fat" [(["intel-ucode.img".toList], [])]

/-- A volume with the initramfs of the kernel `linux`. -/
def archVolume : Volume :=
  .ofFiles "fat" [(["initramfs-linux.img".toList], [])]

/-- Microcode alone is returned, and for the kernel `linux-lts` the initramfs of another one. -/
theorem not_initrdsFor_findInitrd :
    findInitrd "\\vmlinuz-6.12.0" microcodeVolume = ["\\intel-ucode.img".toList] ∧
      ¬ InitrdsFor "\\vmlinuz-6.12.0" (findInitrd "\\vmlinuz-6.12.0" microcodeVolume) ∧
      findInitrd "\\vmlinuz-linux-lts" archVolume = ["\\initramfs-linux.img".toList] ∧
      ¬ InitrdsFor "\\vmlinuz-linux-lts" (findInitrd "\\vmlinuz-linux-lts" archVolume) := by
  have hmicrocode :
      findInitrd "\\vmlinuz-6.12.0" microcodeVolume = ["\\intel-ucode.img".toList] := by
    decide +kernel
  have harch : findInitrd "\\vmlinuz-linux-lts" archVolume = ["\\initramfs-linux.img".toList] := by
    decide +kernel
  refine ⟨hmicrocode, ?_, harch, ?_⟩
  · rw [hmicrocode]
    exact fun h => absurd (InitrdsFor.last (l := []) h) (by decide +kernel)
  · rw [harch]
    exact fun h => absurd (InitrdsFor.last (l := []) h) (by decide +kernel)

end LamBoot
