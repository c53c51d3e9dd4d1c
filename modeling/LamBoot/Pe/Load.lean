import LamBoot.Pe.Relocations

/-!
# The image in memory

`load_pe` of `pe_loader.rs` up to the image it leaves in memory: zeros, the sections over them in
the order of the table, and the base relocations, whose directory is read from that image.
-/

namespace LamBoot.Pe

open List Bytes Checked Stateful Except

/-! ### Loading -/

def memorySize (s : PeSummary) : Nat :=
  (s.sizeOfImage + 4095) / 4096 * 4096

def preferred (s : PeSummary) : BitVec 64 :=
  BitVec.ofNat 64 s.preferredBase

/-- Apply a directory to the image in memory. What follows the image in its last page is left. -/
def relocateBy (s : PeSummary) (actualBase : BitVec 64) (memory reloc : Bytes) : PeM Bytes :=
  -- no slice is longer than half of the address space
  if hfits : reloc.length < 2 ^ 63 then
    match applyRelocationsToSlice (preferred s) actualBase ⟨reloc, hfits⟩
      (memory.take s.sizeOfImage) with
    | .ok () image => pure (image ++ memory.drop s.sizeOfImage)
    | .error e _ => .error e
  else .error .trap

def relocateMemory (s : PeSummary) (actualBase : BitVec 64) (memory : Bytes) : PeM Bytes :=
  if actualBase = preferred s then pure memory
  else
    match s.relocDir.filter (0 < ·.size) with
    -- the kernel's stub relocates itself
    | none => pure memory
    | some dir => do
      let image := memory.take s.sizeOfImage
      let relocEnd := Checked.saturatingAdd dir.virtualAddress dir.size
      refuseIf (image.length < relocEnd)
        (.relocationMalformed "reloc directory outside image bounds")
      let reloc ← slice image dir.virtualAddress relocEnd
      relocateBy s actualBase memory reloc

def loadPe (target : Target) (bytes : Bytes) (actualBase : BitVec 64) : PeM Bytes := do
  let summary ← parseHeaders bytes
  validateHeaders target summary bytes
  let memory ← summary.sections.foldlM (copySection bytes) (replicate (memorySize summary) 0)
  relocateMemory summary actualBase memory

/-! ### The sections -/

def SectionPlan.Fills (plan : SectionPlan) (i : Nat) : Prop :=
  plan.virtAddr ≤ i ∧ i < plan.virtAddr + plan.copyLen
deriving Decidable

/-- The byte at an offset: that of the last section which has one for it, and zero without any. -/
def sectionByte (bytes : Bytes) (sections : List SectionPlan) (i : Nat) : UInt8 :=
  match sections.reverse.find? fun plan => plan.Fills i with
  | some plan => bytes.getD (plan.rawOffset + (i - plan.virtAddr)) 0
  | none => 0

def placed (bytes : Bytes) (sections : List SectionPlan) (size : Nat) : Bytes :=
  (range size).map (sectionByte bytes sections)

section Sections

variable {bytes : Bytes} {sections : List SectionPlan} {plan : SectionPlan} {size i : Nat}

@[simp] lemma length_placed : (placed bytes sections size).length = size := by
  simp [placed]

lemma getElem?_placed (hi : i < size) :
    (placed bytes sections size)[i]? = some (sectionByte bytes sections i) := by
  simp [placed, getElem?_map, getElem?_range hi]

lemma sectionByte_concat (bytes : Bytes) (sections : List SectionPlan) (plan : SectionPlan)
    (i : Nat) :
    sectionByte bytes (sections ++ [plan]) i =
      if plan.Fills i then bytes.getD (plan.rawOffset + (i - plan.virtAddr)) 0
      else sectionByte bytes sections i := by
  rw [sectionByte, reverse_append, reverse_singleton, singleton_append, find?_cons]
  by_cases h : plan.Fills i <;> simp [h, sectionByte]

lemma copySection_placed (hplan : CopyInside size bytes plan) :
    copySection bytes (placed bytes sections size) plan =
      .ok (placed bytes (sections ++ [plan]) size) := by
  have hdestination := hplan.destination
  unfold copySection
  split_ifs with hlen
  · -- nothing to copy
    refine congrArg ok (map_congr_left fun i _ => ?_)
    rw [sectionByte_concat, if_neg fun h => ?_]
    have := h.1
    have := h.2
    omega
  · have hsource := hplan.source hlen
    have hsrc : (bytes.part plan.rawOffset plan.copyLen).length = plan.copyLen :=
      length_part hsource
    have hrun : (do
        let src ← slice bytes plan.rawOffset (plan.rawOffset + plan.copyLen)
        let _ ← slice (placed bytes sections size) plan.virtAddr (plan.virtAddr + plan.copyLen)
        return (placed bytes sections size).patch plan.virtAddr src : PeM Bytes) =
        .ok ((placed bytes sections size).patch plan.virtAddr
          (bytes.part plan.rawOffset plan.copyLen)) := by
      rw [slice, if_pos ⟨by omega, hsource⟩, slice, if_pos ⟨by omega, by simpa using hdestination⟩,
        Nat.add_sub_cancel_left]
      rfl
    rw [hrun]
    refine congrArg ok (ext_getElem? fun i => ?_)
    have hfits : plan.virtAddr + (bytes.part plan.rawOffset plan.copyLen).length ≤
        (placed bytes sections size).length := by
      rw [hsrc, length_placed]
      exact hdestination
    by_cases hi : i < size
    · rw [getElem?_placed hi, sectionByte_concat]
      by_cases hfills : plan.Fills i
      · obtain ⟨hle, hlt⟩ := hfills
        have hbyte : plan.rawOffset + (i - plan.virtAddr) < bytes.length := by omega
        rw [if_pos ⟨hle, hlt⟩, getElem?_patch_of_mem (by omega) hle (by omega),
          getElem?_part (by omega), getD_eq_getElem?_getD, getElem?_eq_getElem hbyte]
        rfl
      · rw [if_neg hfills, ← getElem?_placed hi]
        rw [SectionPlan.Fills, not_and_or] at hfills
        rcases hfills with hfills | hfills
        · exact getElem?_patch_of_lt hfits (by omega)
        · exact getElem?_patch_of_ge hfits (by omega)
    · rw [getElem?_eq_none (by rw [length_patch hfits, length_placed]; omega),
        getElem?_eq_none (by rw [length_placed]; omega)]

lemma foldlM_copySection (h : ∀ plan ∈ sections, CopyInside size bytes plan) :
    sections.foldlM (copySection bytes) (replicate size 0) =
      .ok (placed bytes sections size) := by
  induction sections using reverseRecOn with
  | nil =>
    have hzeros : placed bytes [] size = replicate size 0 := by
      refine eq_replicate_iff.mpr ⟨length_placed, fun b hb => ?_⟩
      obtain ⟨i, -, rfl⟩ := mem_map.mp hb
      rfl
    rw [hzeros]
    rfl
  | append_singleton sections plan ih =>
    have hplan : copySection bytes (placed bytes sections size) plan =
        .ok (placed bytes (sections ++ [plan]) size) := copySection_placed (h plan (by simp))
    rw [foldlM_append, ih fun plan hplan => h plan (mem_append_left _ hplan)]
    change (copySection bytes (placed bytes sections size) plan >>= pure) = _
    rw [bind_pure, hplan]

end Sections

/-! ### The relocation -/

section Relocation

variable {s : PeSummary} {actualBase : BitVec 64} {memory memory' : Bytes} {dir : DataDir}

def relocBytes (s : PeSummary) (memory : Bytes) (dir : DataDir) : Bytes :=
  part (memory.take s.sizeOfImage) dir.virtualAddress dir.size

def relocTargets (s : PeSummary) (memory : Bytes) : List Field :=
  match s.relocDir.filter (0 < ·.size) with
  | none => []
  | some dir => fixups (relocBytes s memory dir)

lemma relocateMemory_of_none
    (h : actualBase = preferred s ∨ s.relocDir.filter (0 < ·.size) = none) :
    relocateMemory s actualBase memory = .ok memory := by
  unfold relocateMemory
  rcases h with h | h
  · rw [if_pos h]
    rfl
  · split_ifs
    · rfl
    · rw [h]
      rfl

lemma relocateMemory_eq_ok_iff (hsize : memory.length < 2 ^ 63) (hne : actualBase ≠ preferred s)
    (hdir : s.relocDir.filter (0 < ·.size) = some dir) :
    relocateMemory s actualBase memory = .ok memory' ↔
      dir.virtualAddress + dir.size ≤ (memory.take s.sizeOfImage).length ∧
      ∃ reloc image, reloc.bytes = relocBytes s memory dir ∧
        applyRelocationsToSlice (preferred s) actualBase reloc (memory.take s.sizeOfImage) =
          .ok () image ∧ memory' = image ++ memory.drop s.sizeOfImage := by
  have hlen : (memory.take s.sizeOfImage).length < 2 ^ 63 := by
    rw [length_take]
    omega
  have hw : wordSize = 2 ^ 64 := rfl
  rw [relocateMemory, if_neg hne, hdir]
  dsimp only
  unfold Checked.saturatingAdd refuseIf
  by_cases hin : dir.virtualAddress + dir.size ≤ (memory.take s.sizeOfImage).length
  · have hmin : min (dir.virtualAddress + dir.size) (wordSize - 1) =
        dir.virtualAddress + dir.size := by omega
    have hreloc : (relocBytes s memory dir).length < 2 ^ 63 := by
      rw [relocBytes, length_part hin]
      omega
    rw [hmin, if_neg (not_lt.mpr hin), slice, if_pos ⟨by omega, hin⟩, Nat.add_sub_cancel_left]
    change relocateBy s actualBase memory (relocBytes s memory dir) = _ ↔ _
    rw [relocateBy, dif_pos hreloc, and_iff_right hin]
    constructor
    · intro h
      split at h
      · next image hrun =>
        exact ⟨⟨relocBytes s memory dir, hreloc⟩, image, rfl, hrun, (ok.inj h).symm⟩
      · cases h
    · rintro ⟨⟨reloc, hfits⟩, image, rfl, hrun, rfl⟩
      rw [hrun]
      rfl
  · have hmin : (memory.take s.sizeOfImage).length <
        min (dir.virtualAddress + dir.size) (wordSize - 1) := by omega
    rw [if_pos hmin]
    exact iff_of_false (by rintro ⟨⟩) fun h => hin h.1

lemma getElem?_relocateMemory (hsize : memory.length < 2 ^ 63)
    (h : relocateMemory s actualBase memory = .ok memory') {i : Nat}
    (hi : ∀ f ∈ relocTargets s memory, ¬ f.Covers i) : memory'[i]? = memory[i]? := by
  by_cases hnone : actualBase = preferred s ∨ s.relocDir.filter (0 < ·.size) = none
  · rw [relocateMemory_of_none hnone] at h
    rw [ok.inj h]
  · rw [not_or] at hnone
    obtain ⟨dir, hdir⟩ := Option.ne_none_iff_exists'.mp hnone.2
    obtain ⟨-, reloc, image, hreloc, hrun, rfl⟩ :=
      (relocateMemory_eq_ok_iff hsize hnone.1 hdir).mp h
    have hrelocates := applyRelocationsToSlice_relocates (preferred s) actualBase reloc
      (memory.take s.sizeOfImage)
    have hfinal : final (applyRelocationsToSlice (preferred s) actualBase reloc)
        (memory.take s.sizeOfImage) = image := by
      rw [final, hrun]
    rw [hfinal] at hrelocates
    have htargets : ∀ f ∈ fixups reloc.bytes, ¬ f.Covers i := by
      rw [relocTargets, hdir] at hi
      rwa [hreloc]
    have hlength := hrelocates.length
    by_cases hlt : i < (memory.take s.sizeOfImage).length
    · rw [getElem?_append_left (by omega), hrelocates.frame i htargets,
        getElem?_take_of_lt (by rw [length_take] at hlt; omega)]
    · rw [getElem?_append_right (by omega), hlength, getElem?_drop]
      rw [length_take] at hlt ⊢
      by_cases hmemory : s.sizeOfImage ≤ memory.length
      · congr 1
        omega
      · rw [getElem?_eq_none (by omega), getElem?_eq_none (by omega)]

end Relocation

/-! ### The image -/

/-- The image in memory. Before the relocation it does not depend on the address; it is relocated
just when the address is not the preferred one and the directory is not empty; and at two addresses
it differs only inside of the targets. -/
theorem loadPe_spec {target : Target} {bytes : Bytes} {s : PeSummary}
    (hparse : parseHeaders bytes = .ok s) (hvalid : validateHeaders target s bytes = .ok ()) :
    let image := placed bytes s.sections (memorySize s)
    (∃ ntOff, Loadable target bytes ntOff s) ∧
    (∀ base, base = preferred s ∨ s.relocDir.filter (0 < ·.size) = none →
      loadPe target bytes base = .ok image) ∧
    (∀ base dir memory, base ≠ preferred s → s.relocDir.filter (0 < ·.size) = some dir →
      (loadPe target bytes base = .ok memory ↔
        dir.virtualAddress + dir.size ≤ s.sizeOfImage ∧
        ∃ reloc relocated, reloc.bytes = relocBytes s image dir ∧
          applyRelocationsToSlice (preferred s) base reloc (image.take s.sizeOfImage) =
            .ok () relocated ∧ memory = relocated ++ image.drop s.sizeOfImage)) ∧
    ∀ base base' memory memory', loadPe target bytes base = .ok memory →
      loadPe target bytes base' = .ok memory' →
        ∀ i, (∀ f ∈ relocTargets s image, ¬ f.Covers i) → memory[i]? = memory'[i]? := by
  intro image
  obtain ⟨ntOff, hsigned, hs, hplus⟩ := safe_parseHeaders.2 s hparse
  have hload := (safe_validateHeaders hsigned hs hplus).2 () hvalid
  have hmax : maxImageSize = 2 ^ 28 := rfl
  have hsmall := hload.sizeOfImage.2
  have hsize : s.sizeOfImage ≤ memorySize s ∧ memorySize s < 2 ^ 63 := by
    unfold memorySize
    omega
  have hcopies : ∀ plan ∈ s.sections, CopyInside (memorySize s) bytes plan := fun plan hplan =>
    ⟨(hload.copies plan hplan).source, (hload.copies plan hplan).destination.trans hsize.1⟩
  have hrun : ∀ base, loadPe target bytes base = relocateMemory s base image := by
    intro base
    rw [loadPe, hparse]
    change (validateHeaders target s bytes >>= _) = _
    rw [hvalid]
    change (s.sections.foldlM (copySection bytes) (replicate (memorySize s) 0) >>= _) = _
    rw [foldlM_copySection hcopies]
    rfl
  have himage : image.length < 2 ^ 63 := by
    rw [length_placed]
    exact hsize.2
  have htake : (image.take s.sizeOfImage).length = s.sizeOfImage := by
    rw [length_take, length_placed]
    omega
  refine ⟨⟨ntOff, hload⟩, fun base hbase => ?_, fun base dir memory hne hdir => ?_, ?_⟩
  · rw [hrun, relocateMemory_of_none hbase]
  · rw [hrun, relocateMemory_eq_ok_iff himage hne hdir, htake]
  · intro base base' memory memory' hmemory hmemory' i hi
    rw [hrun] at hmemory hmemory'
    rw [getElem?_relocateMemory himage hmemory hi, getElem?_relocateMemory himage hmemory' hi]

def relocatable : Bytes :=
  withFields 300
    [(0, 2, 0x5A4D), (0x3C, 4, 64), (64, 4, 0x4550), (68, 2, machineX86_64), (70, 2, 1),
      (84, 2, 160), (88, 2, pe32PlusMagic), (104, 4, 0x10), (112, 8, 0x1000), (144, 4, 0x20),
      (156, 2, subsystemEfiApplication), (196, 4, 6), (240, 4, 0x10), (244, 4, 12),
      (256, 4, 0x10), (260, 4, 0x10), (264, 4, 12), (268, 4, 288), (284, 4, imageScnMemExecute),
      (292, 4, 12), (296, 2, 0xA000)]

def relocatableSummary : PeSummary where
  machine := machineX86_64
  subsystem := subsystemEfiApplication
  preferredBase := 0x1000
  sizeOfImage := 0x20
  entryRva := 0x10
  numSections := 1
  optMagic := pe32PlusMagic
  sections := [⟨0, 0x10, 0x10, 288, 12, true⟩]
  relocDir := some ⟨0x10, 12⟩
  importDirSize := 0
  tlsDirSize := 0
  entryInExecutableSection := true

theorem loadPe_spec_relocatable :
    parseHeaders relocatable = .ok relocatableSummary ∧
    validateHeaders .x86_64 relocatableSummary relocatable = .ok () ∧
    loadPe .x86_64 relocatable 0x1000 =
      .ok (placed relocatable relocatableSummary.sections 4096) := by
  have hparse : parseHeaders relocatable = .ok relocatableSummary := by decide +kernel
  have hvalid : validateHeaders .x86_64 relocatableSummary relocatable = .ok () := by
    decide +kernel
  exact ⟨hparse, hvalid, (loadPe_spec hparse hvalid).2.1 0x1000 (Or.inl rfl)⟩

end LamBoot.Pe
