import LamBoot.Pe.Headers

/-!
# The header checks are safe

No byte string makes the parser or the checks leave the input or overflow, and the sections of an
image that passes are copied within the input and within the image.
-/

namespace LamBoot.Pe

open Bytes Checked Option List

/-! ### Fields of an image -/

/-- The number of `width` bytes at an offset, where the bytes go that far. -/
def fieldAt (width : Nat) (b : Bytes) (off : Nat) : Option Nat :=
  (get? b off (off + width)).map leNat

section Fields

variable {b bytes : Bytes} {off width n : Nat} {message : Text}

lemma fieldAt_lt (h : fieldAt width b off = some n) : n < 256 ^ width := by
  obtain ⟨s, hs, rfl⟩ := map_eq_some_iff.mp h
  unfold get? at hs
  split_ifs at hs with hrange
  obtain rfl := some.inj hs
  refine (leNat_lt _).trans_eq ?_
  rw [length_part (by omega)]
  congr 1
  omega

lemma fieldAt_eq (h : off + width ≤ b.length) :
    fieldAt width b off = some (leNat (b.part off width)) := by
  rw [fieldAt, get?, if_pos ⟨by omega, h⟩, map_some]
  congr 3
  omega

lemma safe_rd (h : off + width < wordSize) :
    Safe (rd width message b off) fun n => fieldAt width b off = some n := by
  refine .add h ?_
  unfold fieldAt
  cases get? b off (off + width) with
  | some s => exact safe_pure rfl
  | none => exact safe_refuse

lemma safe_indexU32 {start : Nat} (h : start + 4 ≤ b.length) :
    Safe (indexU32 b start (start + 4)) fun n => fieldAt 4 b start = some n := by
  refine .slice (by omega) h ?_
  refine safe_pure ?_
  rw [fieldAt_eq h, Nat.add_sub_cancel_left]

end Fields

/-- The data directory `idx` of an image whose optional header is at `optOff`. -/
def dataDirAt (bytes : Bytes) (optOff idx : Nat) : Option DataDir := do
  let count ← fieldAt 4 bytes (optOff + 0x6C)
  if count ≤ idx then none
  else
    let virtualAddress ← fieldAt 4 bytes (optOff + 0x70 + idx * 8)
    let size ← fieldAt 4 bytes (optOff + 0x70 + idx * 8 + 4)
    if virtualAddress = 0 ∧ size = 0 then none else some ⟨virtualAddress, size⟩

/-- The entry `i` of a section table at `start`. -/
structure SectionAt (bytes : Bytes) (start i : Nat) (plan : SectionPlan) : Prop where
  index : plan.index = i
  virtSize : fieldAt 4 bytes (start + i * 40 + 8) = some plan.virtSize
  virtAddr : fieldAt 4 bytes (start + i * 40 + 12) = some plan.virtAddr
  copyLen : ∃ rawSize, fieldAt 4 bytes (start + i * 40 + 16) = some rawSize ∧
    plan.copyLen = min rawSize plan.virtSize
  rawOffset : fieldAt 4 bytes (start + i * 40 + 20) = some plan.rawOffset
  executable : ∃ characteristics, fieldAt 4 bytes (start + i * 40 + 36) = some characteristics ∧
    (plan.executable = true ↔ characteristics &&& imageScnMemExecute ≠ 0)

/-- The entry point is in an executable section. -/
def EntersAt (entryRva : Nat) (plan : SectionPlan) : Prop :=
  plan.executable = true ∧ plan.virtAddr ≤ entryRva ∧ entryRva < plan.virtAddr + plan.virtSize

section Parsing

variable {bytes : Bytes} {start optOff nRva idx i count entryRva : Nat} {plan : SectionPlan}

lemma safe_tableU32 {base stop : Nat} (hw : base + start + 4 < wordSize)
    (h : base + start + 4 ≤ bytes.length) (hstop : stop = start + 4) :
    Safe (tableU32 bytes base start stop) fun n => fieldAt 4 bytes (base + start) = some n := by
  subst hstop
  refine .add (by omega) ?_
  refine .add (by omega) ?_
  rw [← Nat.add_assoc]
  exact safe_indexU32 h

lemma safe_readSection (hstart : start < 2 ^ 40) (hi : i < 2 ^ 16)
    (h : start + i * 40 + 40 ≤ bytes.length) :
    Safe (readSection bytes start i) (SectionAt bytes start i) := by
  have hw : wordSize = 2 ^ 64 := rfl
  refine .mul (by omega) ?_
  refine .add (by omega) ?_
  refine .bind (safe_tableU32 (by omega) (by omega) rfl) fun virtSize hvirtSize => ?_
  refine .bind (safe_tableU32 (by omega) (by omega) rfl) fun virtAddr hvirtAddr => ?_
  refine .bind (safe_tableU32 (by omega) (by omega) rfl) fun rawSize hrawSize => ?_
  refine .bind (safe_tableU32 (by omega) (by omega) rfl) fun rawOffset hrawOffset => ?_
  refine .bind (safe_tableU32 (by omega) (by omega) rfl) fun characteristics hchar => ?_
  exact safe_pure ⟨rfl, hvirtSize, hvirtAddr, ⟨rawSize, hrawSize, rfl⟩, hrawOffset,
    characteristics, hchar, by simp⟩

lemma safe_entryIn (hplan : SectionAt bytes start i plan) :
    Safe (entryIn entryRva plan) fun here => here = true ↔ EntersAt entryRva plan := by
  have hw : wordSize = 2 ^ 64 := rfl
  have haddr := fieldAt_lt hplan.virtAddr
  have hsize := fieldAt_lt hplan.virtSize
  unfold entryIn
  split_ifs with h
  · refine .add (by omega) ?_
    refine safe_pure ?_
    simp [EntersAt, h]
  · refine safe_pure ?_
    simp only [Bool.false_eq_true, false_iff]
    exact fun henters => h ⟨henters.1, henters.2.1⟩

lemma safe_readSections (hstart : start < 2 ^ 40) (hi : i + count < 2 ^ 16)
    (h : start + (i + count) * 40 ≤ bytes.length) :
    Safe (readSections bytes start entryRva i count) fun r =>
      List.Forall₂ (SectionAt bytes start) (range' i count) r.1 ∧
        (r.2 = true ↔ ∃ plan ∈ r.1, EntersAt entryRva plan) := by
  induction count generalizing i with
  | zero => exact safe_pure ⟨.nil, by simp⟩
  | succ count ih =>
    refine .bind (safe_readSection hstart (by omega) (by omega)) fun plan hplan => ?_
    refine .bind (safe_entryIn hplan) fun here hhere => ?_
    refine .bind (ih (by omega) (by omega)) fun r hr => ?_
    refine safe_pure ⟨?_, ?_⟩
    · rw [range'_succ]
      exact .cons hplan hr.1
    · simp [hhere, hr.2]

lemma ok?_rdU32 {off : Nat} (h : off + 4 < wordSize) :
    ok? (rdU32 bytes off) = pure (fieldAt 4 bytes off) := by
  have hadd : (add off 4 : PeM Nat) = .ok (off + 4) := if_pos h
  unfold rdU32 rd fieldAt
  rw [hadd]
  cases hget : get? bytes off (off + 4) with
  | some s => simp [bind, Except.bind, hget, ok?, pure, Except.pure]
  | none => simp [bind, Except.bind, hget, ok?, refuse]

lemma readDataDir_eq (hopt : optOff < 2 ^ 40) (hidx : idx < 16)
    (hcount : fieldAt 4 bytes (optOff + 0x6C) = some nRva) :
    readDataDir bytes (optOff + 0x70) nRva idx = pure (dataDirAt bytes optOff idx) := by
  have hw : wordSize = 2 ^ 64 := rfl
  have hmul : (mul idx 8 : PeM Nat) = pure (idx * 8) := if_pos (by omega)
  have hadd : (add (optOff + 0x70) (idx * 8) : PeM Nat) = pure (optOff + 0x70 + idx * 8) :=
    if_pos (by omega)
  have hadd' : (add (optOff + 0x70 + idx * 8) 4 : PeM Nat) = pure (optOff + 0x70 + idx * 8 + 4) :=
    if_pos (by omega)
  unfold readDataDir dataDirAt
  rw [hcount, hmul]
  by_cases hle : nRva ≤ idx
  · simp [hle]
  have hfirst : optOff + 0x70 + idx * 8 + 4 < wordSize := by omega
  have hsecond : optOff + 0x70 + idx * 8 + 4 + 4 < wordSize := by omega
  simp only [hle, if_false, pure_bind, hadd, hadd', ok?_rdU32 hfirst, ok?_rdU32 hsecond,
    bind_eq_bind, bind_some]
  cases fieldAt 4 bytes (optOff + 0x70 + idx * 8) with
  | none => rfl
  | some virtualAddress =>
    cases fieldAt 4 bytes (optOff + 0x70 + idx * 8 + 4) with
    | none => rfl
    | some size =>
      simp only [bind_some]
      split_ifs <;> rfl

/-- What the headers say, in the terms of the bytes of the image. -/
structure Describes (bytes : Bytes) (ntOff : Nat) (s : PeSummary) : Prop where
  machine : fieldAt 2 bytes (ntOff + 4) = some s.machine
  numSections : fieldAt 2 bytes (ntOff + 6) = some s.numSections
  magic : fieldAt 2 bytes (ntOff + 24) = some s.optMagic

/-- What the optional header and the section table of a PE32+ image say. -/
structure DescribesPlus (bytes : Bytes) (ntOff : Nat) (s : PeSummary) : Prop where
  entryRva : fieldAt 4 bytes (ntOff + 24 + 0x10) = some s.entryRva
  preferredBase : fieldAt 8 bytes (ntOff + 24 + 0x18) = some s.preferredBase
  sizeOfImage : fieldAt 4 bytes (ntOff + 24 + 0x38) = some s.sizeOfImage
  subsystem : fieldAt 2 bytes (ntOff + 24 + 0x44) = some s.subsystem
  importDirSize : s.importDirSize = (dataDirAt bytes (ntOff + 24) 1).elim 0 (·.size)
  relocDir : s.relocDir = dataDirAt bytes (ntOff + 24) 5
  tlsDirSize : s.tlsDirSize = (dataDirAt bytes (ntOff + 24) 9).elim 0 (·.size)
  sections : ∃ optSize, fieldAt 2 bytes (ntOff + 20) = some optSize ∧
    List.Forall₂ (SectionAt bytes (ntOff + 24 + optSize)) (range' 0 s.numSections) s.sections
  fewSections : s.numSections ≤ maxSections
  entry : s.entryInExecutableSection = true ↔ ∃ plan ∈ s.sections, EntersAt s.entryRva plan

lemma safe_parsePe32Plus {machine numSections optSize ntOff : Nat} (hnt : ntOff < 2 ^ 32)
    (hcount : fieldAt 2 bytes (ntOff + 6) = some numSections)
    (hopt : fieldAt 2 bytes (ntOff + 20) = some optSize) :
    Safe (parsePe32Plus bytes machine numSections optSize (ntOff + 24)) fun s =>
      s.machine = machine ∧ s.numSections = numSections ∧ s.optMagic = pe32PlusMagic ∧
        DescribesPlus bytes ntOff s := by
  have hw : wordSize = 2 ^ 64 := rfl
  have hcount' := fieldAt_lt hcount
  have hopt' := fieldAt_lt hopt
  refine .add (by omega) ?_
  refine .bind (safe_rd (by omega)) fun entryRva hentry => ?_
  refine .add (by omega) ?_
  refine .bind (safe_rd (by omega)) fun preferredBase hbase => ?_
  refine .add (by omega) ?_
  refine .bind (safe_rd (by omega)) fun sizeOfImage hsize => ?_
  refine .add (by omega) ?_
  refine .bind (safe_rd (by omega)) fun subsystem hsubsystem => ?_
  refine .add (by omega) ?_
  refine .bind (safe_rd (by omega)) fun nRva hnRva => ?_
  refine .add (by omega) ?_
  rw [readDataDir_eq (by omega) (by omega) hnRva, pure_bind,
    readDataDir_eq (by omega) (by omega) hnRva, pure_bind,
    readDataDir_eq (by omega) (by omega) hnRva, pure_bind]
  refine .refuseIf fun hfew => ?_
  refine .add (by omega) ?_
  refine .refuseIf fun htable => ?_
  -- the sums are far from saturation
  have htable' : ntOff + 24 + optSize + (0 + numSections) * 40 ≤ bytes.length := by
    unfold Checked.saturatingAdd Checked.saturatingMul at htable
    omega
  refine .bind (safe_readSections (by omega) (by omega) htable') fun r hr => ?_
  refine safe_pure ⟨rfl, rfl, rfl, ?_⟩
  exact {
    entryRva := hentry
    preferredBase := hbase
    sizeOfImage := hsize
    subsystem := hsubsystem
    importDirSize := rfl
    relocDir := rfl
    tlsDirSize := rfl
    sections := ⟨optSize, hopt, hr.1⟩
    fewSections := not_lt.mp hfew
    entry := hr.2 }

/-- The signatures, and where the headers are. -/
structure Signed (bytes : Bytes) (ntOff : Nat) : Prop where
  dos : bytes.part 0 2 = [0x4D, 0x5A]
  lfanew : fieldAt 4 bytes 0x3C = some ntOff
  nt : bytes.part ntOff 4 = [0x50, 0x45, 0, 0]

lemma safe_parseHeaders :
    Safe (parseHeaders bytes) fun s => ∃ ntOff, Signed bytes ntOff ∧ Describes bytes ntOff s ∧
      (s.optMagic = pe32PlusMagic → DescribesPlus bytes ntOff s) := by
  have hw : wordSize = 2 ^ 64 := rfl
  refine .refuseIf fun hlong => ?_
  refine .slice (by omega) (by omega) ?_
  refine .refuseIf fun hdos => ?_
  refine .bind (safe_indexU32 (by omega)) fun ntOff hlfanew => ?_
  have hnt := fieldAt_lt hlfanew
  refine .refuseIf fun hinside => ?_
  have hinside' : ntOff + 4 ≤ bytes.length := by
    unfold Checked.saturatingAdd at hinside
    omega
  refine .add (by omega) ?_
  refine .slice (by omega) hinside' ?_
  refine .refuseIf fun hsignature => ?_
  refine .add (by omega) ?_
  refine .bind (safe_rd (by omega)) fun machine hmachine => ?_
  refine .add (by omega) ?_
  refine .bind (safe_rd (by omega)) fun numSections hcount => ?_
  refine .add (by omega) ?_
  refine .bind (safe_rd (by omega)) fun optSize hopt => ?_
  refine .add (by omega) ?_
  refine .bind (safe_rd (by omega)) fun optMagic hmagic => ?_
  have hsigned : Signed bytes ntOff := by
    refine ⟨not_not.mp hdos, hlfanew, ?_⟩
    rw [← not_not.mp hsignature, Nat.add_sub_cancel_left]
  split_ifs with hplus
  · exact safe_pure ⟨ntOff, hsigned, ⟨hmachine, hcount, hmagic⟩, fun h => absurd h hplus⟩
  · refine (safe_parsePe32Plus hnt hcount hopt).imp ?_
    rintro s ⟨rfl, rfl, hs, hdescribes⟩
    exact ⟨ntOff, hsigned, ⟨hmachine, hcount, by rw [hs, ← not_not.mp hplus]; exact hmagic⟩,
      fun _ => hdescribes⟩

end Parsing

/-! ### The checks and the copy -/

section Checks

variable {target : Target} {bytes image : Bytes} {s : PeSummary} {plan : SectionPlan}
  {sizeOfImage : Nat}

/-- The copy of a section stays within the input and within the image. -/
structure CopyInside (sizeOfImage : Nat) (bytes : Bytes) (plan : SectionPlan) : Prop where
  source : plan.copyLen ≠ 0 → plan.rawOffset + plan.copyLen ≤ bytes.length
  destination : plan.virtAddr + plan.copyLen ≤ sizeOfImage

/-- What an image that passes the checks is. -/
structure Loadable (target : Target) (bytes : Bytes) (ntOff : Nat) (s : PeSummary) : Prop where
  signed : Signed bytes ntOff
  machine : fieldAt 2 bytes (ntOff + 4) = some target.expectedMachine
  magic : fieldAt 2 bytes (ntOff + 24) = some pe32PlusMagic
  subsystem : ∃ subsystem ∈ [subsystemEfiApplication, subsystemEfiBootServiceDriver,
    subsystemEfiRuntimeDriver], fieldAt 2 bytes (ntOff + 24 + 0x44) = some subsystem
  numSections : fieldAt 2 bytes (ntOff + 6) = some s.sections.length ∧
    s.sections.length ≤ maxSections
  sizeOfImage : fieldAt 4 bytes (ntOff + 24 + 0x38) = some s.sizeOfImage ∧
    s.sizeOfImage ≤ maxImageSize
  noImports : ∀ dir, dataDirAt bytes (ntOff + 24) 1 = some dir → dir.size = 0
  noTls : ∀ dir, dataDirAt bytes (ntOff + 24) 9 = some dir → dir.size = 0
  sections : ∃ optSize, fieldAt 2 bytes (ntOff + 20) = some optSize ∧ List.Forall₂
    (SectionAt bytes (ntOff + 24 + optSize)) (range' 0 s.sections.length) s.sections
  copies : ∀ plan ∈ s.sections, CopyInside s.sizeOfImage bytes plan
  entry : fieldAt 4 bytes (ntOff + 24 + 0x10) = some s.entryRva ∧ s.entryRva < s.sizeOfImage ∧
    ∃ plan ∈ s.sections, EntersAt s.entryRva plan

lemma safe_validateSection {start i : Nat} (hplan : SectionAt bytes start i plan) :
    Safe (validateSection sizeOfImage bytes plan) fun _ => CopyInside sizeOfImage bytes plan := by
  have hw : wordSize = 2 ^ 64 := rfl
  have haddr := fieldAt_lt hplan.virtAddr
  have hsize := fieldAt_lt hplan.virtSize
  have hraw := fieldAt_lt hplan.rawOffset
  obtain ⟨rawSize, -, hcopy⟩ := hplan.copyLen
  refine .refuseIf fun hvirt => ?_
  refine safe_refuseIf.imp fun _ hinput => ?_
  unfold Checked.saturatingAdd at hvirt hinput
  exact ⟨fun _ => by omega, by omega⟩

lemma elim_size_eq_zero {dir? : Option DataDir} (h : dir?.elim 0 (·.size) = 0) :
    ∀ dir, dir? = some dir → dir.size = 0 := by
  rintro dir rfl
  exact h

lemma safe_validateHeaders {ntOff : Nat} (hsigned : Signed bytes ntOff)
    (hs : Describes bytes ntOff s)
    (hplus : s.optMagic = pe32PlusMagic → DescribesPlus bytes ntOff s) :
    Safe (validateHeaders target s bytes) fun _ => Loadable target bytes ntOff s := by
  refine .refuseIf fun hmachine => ?_
  refine .refuseIf fun _ => ?_
  refine .refuseIf fun hmagic => ?_
  have hd := hplus (not_not.mp hmagic)
  obtain ⟨optSize, hopt, hsections⟩ := hd.sections
  have hlength : s.sections.length = s.numSections := by
    rw [← hsections.length_eq, length_range']
  refine .refuseIf fun hsubsystem => ?_
  refine .refuseIf fun hsize => ?_
  refine .refuseIf fun himports => ?_
  refine .refuseIf fun htls => ?_
  have hcheck : ∀ plan ∈ s.sections, Safe (validateSection s.sizeOfImage bytes plan)
      fun _ => CopyInside s.sizeOfImage bytes plan := by
    intro plan hplan
    obtain ⟨i, hi, rfl⟩ := getElem_of_mem hplan
    exact safe_validateSection (hsections.get (hsections.length_eq ▸ hi) hi)
  refine .bind (safe_forM hcheck) fun _ hcopies => ?_
  refine .refuseIf fun hentry => ?_
  refine safe_refuseIf.imp fun _ hexec => ?_
  exact {
    signed := hsigned
    machine := not_not.mp hmachine ▸ hs.machine
    magic := not_not.mp hmagic ▸ hs.magic
    subsystem := ⟨s.subsystem, by simpa [or_iff_not_imp_left] using hsubsystem, hd.subsystem⟩
    numSections := hlength ▸ ⟨hs.numSections, hd.fewSections⟩
    sizeOfImage := ⟨hd.sizeOfImage, not_lt.mp hsize⟩
    noImports := elim_size_eq_zero (hd.importDirSize ▸ not_not.mp himports)
    noTls := elim_size_eq_zero (hd.tlsDirSize ▸ not_not.mp htls)
    sections := ⟨optSize, hopt, hlength ▸ hsections⟩
    copies := hcopies
    entry := ⟨hd.entryRva, not_le.mp hentry, hd.entry.mp (by simpa using hexec)⟩ }

lemma safe_copySection (hplan : CopyInside image.length bytes plan) :
    Safe (copySection bytes image plan) fun image' => image'.length = image.length := by
  unfold copySection
  split_ifs with h
  · exact safe_pure rfl
  have hsource := hplan.source h
  have hdestination := hplan.destination
  refine .slice (by omega) hsource ?_
  refine .slice (by omega) hdestination ?_
  refine safe_pure (length_patch ?_)
  rw [length_part (by omega)]
  omega

end Checks

/-- No input makes the parser, the checks or the copy of the sections leave the input, the image or
the range of a word. What is copied into an image of its own size is an image that loads. -/
theorem loadSections_safe (target : Target) (bytes : Bytes) :
    Safe (loadSections target bytes) fun (s, image) =>
      image.length = s.sizeOfImage ∧ ∃ ntOff, Loadable target bytes ntOff s := by
  refine .bind safe_parseHeaders fun s ⟨ntOff, hsigned, hs, hplus⟩ => ?_
  refine .bind (safe_validateHeaders hsigned hs hplus) fun _ hload => ?_
  have hcopies : ∀ image : Bytes, image.length = s.sizeOfImage → ∀ plan ∈ s.sections,
      Safe (copySection bytes image plan) fun image' => image'.length = s.sizeOfImage := by
    intro image himage plan hplan
    rw [← himage]
    exact safe_copySection (himage ▸ hload.copies plan hplan)
  refine .bind (safe_foldlM length_replicate hcopies) fun image himage => ?_
  exact safe_pure ⟨himage, ntOff, hload⟩

def withFields (size : Nat) (fields : List (Nat × Nat × Nat)) : Bytes :=
  fields.foldl (fun b (off, width, n) => b.patch off (leBytes width n)) (replicate size 0)

-- an image with one executable section, of which eight bytes are in the file
example : (loadSections .x86_64 (withFields 240
    [(0, 2, 0x5A4D), (0x3C, 4, 64), (64, 4, 0x4550), (68, 2, machineX86_64), (70, 2, 1),
      (84, 2, 0x70), (88, 2, pe32PlusMagic), (104, 4, 0x10), (144, 4, 0x20),
      (156, 2, subsystemEfiApplication), (208, 4, 0x20), (216, 4, 8), (220, 4, 64),
      (236, 4, imageScnMemExecute)])).map Prod.snd =
    .ok ([0x50, 0x45, 0, 0, 0x64, 0x86, 1, 0] ++ replicate 24 0) := by
  decide +kernel

end LamBoot.Pe
