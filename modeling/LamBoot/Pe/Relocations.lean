import LamBoot.Library.Fields
import LamBoot.Library.Stateful
import LamBoot.Pe.Safety

/-!
# Base relocations

`apply_relocations_to_slice` of `pe_loader_pure.rs` on any image, directory and pair of bases. The
image is the state, so that an error leaves the image as far as it has been changed. The loop over
the blocks has fuel, and running out of it is a trap.
-/

namespace LamBoot.Pe

open List Bytes Checked Stateful

def relAbsolute : Nat := 0
def relHighlow : Nat := 3
def relDir64 : Nat := 10

/-- A slice in memory, which has less than `2 ^ 63` bytes. -/
structure Slice where
  bytes : Bytes
  fits : bytes.length < 2 ^ 63

abbrev RelocM := EStateM (Fault PeLoadError) Bytes

def check {α : Type} (x : PeM α) : RelocM α :=
  MonadExcept.ofExcept x

/-- The body of a fixup: `delta` is added to the number at `targetRva`, modulo its size. -/
def addDelta (width : Nat) (message : Text) (imageSize delta targetRva : Nat) : RelocM Unit := do
  let stop ← check (add targetRva width)
  check (refuseIf (imageSize < stop) (.relocationMalformed message))
  let image ← get
  let slot ← check (slice image targetRva stop)
  let sum := (leNat slot + delta % 256 ^ width) % 256 ^ width
  set (image.patch targetRva (leBytes width sum))

def applyEntry (imageSize delta virtAddr entry : Nat) : RelocM Unit :=
  let relocType := entry >>> 12
  let withinPage := entry &&& 0x0FFF
  let targetRva := Checked.saturatingAdd virtAddr withinPage
  if relocType = relAbsolute then pure ()
  else if relocType = relDir64 then
    addDelta 8 "DIR64 fixup target out of bounds" imageSize delta targetRva
  else if relocType = relHighlow then
    addDelta 4 "HIGHLOW fixup target out of bounds" imageSize delta targetRva
  -- REL_HIGH and REL_LOW are refused with the same error as the other types
  else throw (.failed (.unsupportedRelocationType relocType))

/-- The entry `i` of the block at `cursor`. -/
def readEntry (reloc : Bytes) (cursor i : Nat) : PeM Nat := do
  let entryOffset ← add (← add cursor 8) (← mul i 2)
  return leNat (← slice reloc entryOffset (← add entryOffset 2))

/-- The loop over the entries of a block, from entry `i` on. -/
def applyEntries (imageSize delta : Nat) (reloc : Bytes) (cursor virtAddr : Nat) :
    Nat → Nat → RelocM Unit
  | _, 0 => pure ()
  | i, count + 1 => do
    let entry ← check (readEntry reloc cursor i)
    applyEntry imageSize delta virtAddr entry
    applyEntries imageSize delta reloc cursor virtAddr (i + 1) count

/-- The page and the size of the block at `cursor`. -/
def blockHeader (reloc : Bytes) (cursor : Nat) : PeM (Nat × Nat) := do
  refuseIf (reloc.length < (← add cursor 8)) (.relocationMalformed "block header truncated")
  let virtAddr ← indexU32 reloc cursor (← add cursor 4)
  let sizeOfBlock ← indexU32 reloc (← add cursor 4) (← add cursor 8)
  return (virtAddr, sizeOfBlock)

/-- The number of entries of the block at `cursor`. -/
def entryCount (reloc : Bytes) (cursor sizeOfBlock : Nat) : PeM Nat := do
  refuseIf (sizeOfBlock < 8) (.relocationMalformed "SizeOfBlock < 8")
  refuseIf (reloc.length < (← add cursor sizeOfBlock))
    (.relocationMalformed "block extends past directory")
  let entriesBytes := sizeOfBlock - 8
  refuseIf (entriesBytes % 2 ≠ 0) (.relocationMalformed "odd entries_bytes")
  return entriesBytes / 2

/-- The loop over the blocks, from `cursor` on. -/
def applyBlocks (imageSize delta : Nat) (reloc : Bytes) : Nat → Nat → RelocM Unit
  | 0, _ => throw .trap
  | fuel + 1, cursor =>
    if cursor < reloc.length then do
      let (virtAddr, sizeOfBlock) ← check (blockHeader reloc cursor)
      if sizeOfBlock = 0 then pure ()
      else do
        let count ← check (entryCount reloc cursor sizeOfBlock)
        applyEntries imageSize delta reloc cursor virtAddr 0 count
        let next ← check (add cursor sizeOfBlock)
        applyBlocks imageSize delta reloc fuel next
    else pure ()

/-- `apply_relocations_to_slice`. Every block but the last takes eight bytes or more, which the fuel
suffices for. -/
def applyRelocationsToSlice (preferredBase actualBase : BitVec 64) (reloc : Slice) :
    RelocM Unit := do
  let delta := (actualBase - preferredBase).toNat
  if delta = 0 then pure ()
  else do
    let image ← get
    applyBlocks image.length delta reloc.bytes (reloc.bytes.length + 1) 0

/-! ### What a directory lists -/

def fixup (virtAddr entry : Nat) : List Field :=
  if entry >>> 12 = relDir64 then [⟨virtAddr + entry % 4096, 8⟩]
  else if entry >>> 12 = relHighlow then [⟨virtAddr + entry % 4096, 4⟩]
  else []

/-- The places of `count` entries of the block at `cursor`, from entry `i` on. -/
def entryFixups (reloc : Bytes) (cursor virtAddr i count : Nat) : List Field :=
  (List.range' i count).flatMap fun j => fixup virtAddr (leNat (reloc.part (cursor + 8 + j * 2) 2))

/-- The blocks of a directory from `cursor` on, up to the terminator or the first one that is
malformed. -/
def fixupsFrom (reloc : Bytes) (cursor : Nat) : List Field :=
  let virtAddr := leNat (reloc.part cursor 4)
  let sizeOfBlock := leNat (reloc.part (cursor + 4) 4)
  if _h : 8 ≤ sizeOfBlock ∧ cursor + sizeOfBlock ≤ reloc.length ∧ sizeOfBlock % 2 = 0 then
    entryFixups reloc cursor virtAddr 0 ((sizeOfBlock - 8) / 2) ++
      fixupsFrom reloc (cursor + sizeOfBlock)
  else []
termination_by reloc.length - cursor
decreasing_by omega

def fixups (reloc : Bytes) : List Field :=
  fixupsFrom reloc 0

/-! ### The effect of the loops -/

def ended (error : Option PeLoadError) (image : Bytes) :
    EStateM.Result (Fault PeLoadError) Bytes Unit :=
  match error with
  | none => .ok () image
  | some e => .error (.failed e) image

/-- For any image of the given size and any `delta`, the computation adds to the first ones of the
fields, which are in the image. It stops before the last only with an error, and never traps. -/
def Applies (imageSize : Nat) (x : Nat → RelocM Unit) (fields : List Field) : Prop :=
  ∃ done error, done <+: fields ∧ (error = none → done = fields) ∧
    ∀ delta (image : Bytes), image.length = imageSize →
      (∀ f ∈ done, f.Inside image) ∧ x delta image = ended error (Field.addAll delta image done)

section Ended

variable {x : RelocM Unit} {image image' : Bytes} {error : Option PeLoadError}

lemma final_of_ended (h : x image = ended error image') : final x image = image' := by
  cases error <;> simp only [final, h, ended]

lemma ended_ne_trap {image'' : Bytes} : ended error image' ≠ .error .trap image'' := by
  cases error <;> nofun

lemma eq_none_of_ended_eq_ok {image'' : Bytes} (h : ended error image' = .ok () image'') :
    error = none := by
  cases error with
  | none => rfl
  | some e => exact nomatch h

end Ended

section Effect

variable {imageSize cursor virtAddr entry : Nat} {reloc : Bytes} {fields fields' : List Field}

lemma applies_pure : Applies imageSize (fun _ => pure ()) [] :=
  ⟨[], none, nil_prefix, fun _ => rfl, fun _ _ _ => ⟨nofun, rfl⟩⟩

lemma applies_of_error {x : Nat → RelocM Unit} {e : PeLoadError}
    (h : ∀ delta image, x delta image = .error (.failed e) image) : Applies imageSize x fields :=
  ⟨[], some e, nil_prefix, nofun, fun delta image _ => ⟨nofun, h delta image⟩⟩

lemma applies_check {α : Type} {x : PeM α} {f : Nat → α → RelocM Unit} {post : α → Prop}
    (hx : Safe x post) (hf : ∀ a, post a → Applies imageSize (fun delta => f delta a) fields) :
    Applies imageSize (fun delta => check x >>= f delta) fields := by
  rcases x with (_ | e) | a
  · exact absurd rfl hx.1
  · exact applies_of_error fun delta image => bind_of_error rfl
  · exact hf a (hx.2 a rfl)

lemma applies_seq {x y : Nat → RelocM Unit} (hx : Applies imageSize x fields)
    (hy : Applies imageSize y fields') :
    Applies imageSize (fun delta => x delta >>= fun _ => y delta) (fields ++ fields') := by
  obtain ⟨done, error, hdone, hall, hrun⟩ := hx
  cases error with
  | some e =>
    refine ⟨done, some e, hdone.trans (prefix_append _ _), nofun, fun delta image himage => ?_⟩
    obtain ⟨hin, h⟩ := hrun delta image himage
    exact ⟨hin, bind_of_error h⟩
  | none =>
    obtain rfl := hall rfl
    obtain ⟨done', error', hdone', hall', hrun'⟩ := hy
    refine ⟨done ++ done', error', (prefix_append_right_inj _).mpr hdone',
      fun h => by rw [hall' h], fun delta image himage => ?_⟩
    obtain ⟨hin, h⟩ := hrun delta image himage
    have hlen : (Field.addAll delta image done).length = image.length := Field.length_addAll hin
    obtain ⟨hin', h'⟩ := hrun' delta _ (hlen.trans himage)
    refine ⟨forall_mem_append.mpr ⟨hin, fun f hf => ?_⟩, ?_⟩
    · exact (Field.inside_congr hlen).mp (hin' f hf)
    · rw [Field.addAll_append, ← h']
      exact bind_of_ok h

lemma applies_addDelta {width targetRva : Nat} {message : Text}
    (h : targetRva + width < wordSize) :
    Applies imageSize (fun delta => addDelta width message imageSize delta targetRva)
      [⟨targetRva, width⟩] := by
  refine applies_check (safe_add h) fun stop hstop => ?_
  refine applies_check safe_refuseIf fun _ hinside => ?_
  refine ⟨_, none, prefix_rfl, fun _ => rfl, fun delta image himage => ?_⟩
  have hstop' : stop ≤ image.length := by omega
  have hslice : (slice image targetRva stop : PeM Bytes) = .ok (image.part targetRva width) := by
    rw [slice, if_pos ⟨by omega, hstop'⟩, hstop, Nat.add_sub_cancel_left]
  refine ⟨forall_mem_singleton.mpr (hstop.symm.trans_le hstop'), ?_⟩
  refine (bind_of_ok rfl).trans ?_
  rw [hslice]
  refine (bind_of_ok rfl).trans (congrArg (EStateM.Result.ok ()) ?_)
  rw [Nat.add_mod_mod, leBytes_mod]
  rfl

lemma applies_applyEntry (hvirt : virtAddr < 2 ^ 32) :
    Applies imageSize (fun delta => applyEntry imageSize delta virtAddr entry)
      (fixup virtAddr entry) := by
  have hw : wordSize = 2 ^ 64 := rfl
  have hpage : entry &&& 0x0FFF = entry % 4096 := Nat.and_two_pow_sub_one_eq_mod entry 12
  have htarget : Checked.saturatingAdd virtAddr (entry &&& 0x0FFF) = virtAddr + entry % 4096 := by
    unfold Checked.saturatingAdd
    omega
  unfold applyEntry fixup
  dsimp only
  rw [htarget]
  by_cases habsolute : entry >>> 12 = relAbsolute
  · simp only [habsolute, if_true, show relAbsolute ≠ relDir64 by decide,
      show relAbsolute ≠ relHighlow by decide, if_false]
    exact applies_pure
  by_cases hdir64 : entry >>> 12 = relDir64
  · simp only [hdir64, if_true, show relDir64 ≠ relAbsolute by decide, if_false]
    exact applies_addDelta (by omega)
  by_cases hhighlow : entry >>> 12 = relHighlow
  · simp only [hhighlow, if_true, show relHighlow ≠ relAbsolute by decide,
      show relHighlow ≠ relDir64 by decide, if_false]
    exact applies_addDelta (by omega)
  · simp only [habsolute, hdir64, hhighlow, if_false]
    exact applies_of_error fun _ _ => rfl

lemma safe_readEntry {i : Nat} (hfits : reloc.length < 2 ^ 63)
    (h : cursor + 8 + i * 2 + 2 ≤ reloc.length) :
    Safe (readEntry reloc cursor i) (· = leNat (reloc.part (cursor + 8 + i * 2) 2)) := by
  have hw : wordSize = 2 ^ 64 := rfl
  refine .add (by omega) ?_
  refine .mul (by omega) ?_
  refine .add (by omega) ?_
  refine .add (by omega) ?_
  refine .slice (by omega) (by omega) ?_
  exact safe_pure (by rw [Nat.add_sub_cancel_left])

lemma applies_applyEntries {i count : Nat} (hfits : reloc.length < 2 ^ 63)
    (hvirt : virtAddr < 2 ^ 32) (h : cursor + 8 + (i + count) * 2 ≤ reloc.length) :
    Applies imageSize (fun delta => applyEntries imageSize delta reloc cursor virtAddr i count)
      (entryFixups reloc cursor virtAddr i count) := by
  induction count generalizing i with
  | zero => exact applies_pure
  | succ count ih =>
    unfold entryFixups
    rw [List.range'_succ, flatMap_cons]
    refine applies_check (safe_readEntry hfits (by omega)) fun _ h => h ▸ ?_
    exact applies_seq (applies_applyEntry hvirt) (ih (by omega))

lemma safe_blockHeader (hfits : reloc.length < 2 ^ 63) (h : cursor < reloc.length) :
    Safe (blockHeader reloc cursor) fun r => cursor + 8 ≤ reloc.length ∧
      r.1 < 2 ^ 32 ∧ r.2 < 2 ^ 32 ∧
      r = (leNat (reloc.part cursor 4), leNat (reloc.part (cursor + 4) 4)) := by
  have hw : wordSize = 2 ^ 64 := rfl
  refine .add (by omega) ?_
  refine .refuseIf fun hlong => ?_
  refine .add (by omega) ?_
  refine .bind (safe_indexU32 (by omega)) fun virtAddr hvirt => ?_
  refine .add (by omega) ?_
  refine .add (by omega) ?_
  rw [show cursor + 8 = cursor + 4 + 4 from rfl]
  refine .bind (safe_indexU32 (by omega)) fun sizeOfBlock hsize => ?_
  have hvirt' := fieldAt_lt hvirt
  have hsize' := fieldAt_lt hsize
  rw [fieldAt_eq (by omega)] at hvirt hsize
  refine safe_pure ⟨by omega, hvirt', hsize', ?_⟩
  rw [Option.some.inj hvirt, Option.some.inj hsize]

lemma safe_entryCount {sizeOfBlock : Nat} (hfits : reloc.length < 2 ^ 63)
    (h : cursor < reloc.length) (hsize : sizeOfBlock < 2 ^ 32) :
    Safe (entryCount reloc cursor sizeOfBlock) fun count => 8 ≤ sizeOfBlock ∧
      cursor + sizeOfBlock ≤ reloc.length ∧ sizeOfBlock % 2 = 0 ∧
      count = (sizeOfBlock - 8) / 2 := by
  have hw : wordSize = 2 ^ 64 := rfl
  refine .refuseIf fun hmin => ?_
  refine .add (by omega) ?_
  refine .refuseIf fun hinside => ?_
  refine .refuseIf fun heven => ?_
  exact safe_pure ⟨by omega, by omega, by omega, rfl⟩

lemma fixupsFrom_of_block {sizeOfBlock : Nat}
    (hsize : leNat (reloc.part (cursor + 4) 4) = sizeOfBlock)
    (h : 8 ≤ sizeOfBlock ∧ cursor + sizeOfBlock ≤ reloc.length ∧ sizeOfBlock % 2 = 0) :
    fixupsFrom reloc cursor =
      entryFixups reloc cursor (leNat (reloc.part cursor 4)) 0 ((sizeOfBlock - 8) / 2) ++
        fixupsFrom reloc (cursor + sizeOfBlock) := by
  subst hsize
  rw [fixupsFrom, dif_pos h]

lemma fixupsFrom_of_not_block
    (h : leNat (reloc.part (cursor + 4) 4) < 8 ∨ reloc.length ≤ cursor) :
    fixupsFrom reloc cursor = [] := by
  rw [fixupsFrom, dif_neg (by omega)]

lemma applies_applyBlocks {fuel : Nat} (hfits : reloc.length < 2 ^ 63)
    (hcursor : cursor ≤ reloc.length) (hfuel : reloc.length < cursor + fuel) :
    Applies imageSize (fun delta => applyBlocks imageSize delta reloc fuel cursor)
      (fixupsFrom reloc cursor) := by
  induction fuel generalizing cursor with
  | zero => omega
  | succ fuel ih =>
    unfold applyBlocks
    split_ifs with hcursor
    · refine applies_check (safe_blockHeader hfits hcursor) ?_
      rintro _ ⟨hlong, hvirt, hsize, rfl⟩
      dsimp only at hvirt hsize ⊢
      split_ifs with hzero
      · rw [fixupsFrom_of_not_block (by omega)]
        exact applies_pure
      · refine applies_check (safe_entryCount hfits hcursor hsize) ?_
        rintro _ ⟨hmin, hinside, heven, rfl⟩
        rw [fixupsFrom_of_block rfl ⟨hmin, hinside, heven⟩]
        refine applies_seq (applies_applyEntries hfits hvirt (by omega)) ?_
        have hw : wordSize = 2 ^ 64 := rfl
        refine applies_check (safe_add (by omega)) ?_
        rintro _ rfl
        exact ih hinside (by omega)
    · rw [fixupsFrom_of_not_block (by omega)]
      exact applies_pure

end Effect

/-! ### Relocation -/

section Relocation

variable {preferredBase actualBase : BitVec 64} {reloc : Slice} {image : Bytes}

lemma applyRelocationsToSlice_self :
    applyRelocationsToSlice actualBase actualBase reloc image = .ok () image := by
  rw [applyRelocationsToSlice, if_pos (by simp)]
  rfl

lemma toNat_sub_add_toNat_sub (hne : preferredBase ≠ actualBase) :
    (actualBase - preferredBase).toNat + (preferredBase - actualBase).toNat = 2 ^ 64 := by
  have hne' : preferredBase.toNat ≠ actualBase.toNat := fun h => hne (BitVec.eq_of_toNat_eq h)
  have hp := preferredBase.isLt
  have ha := actualBase.isLt
  rw [BitVec.toNat_sub, BitVec.toNat_sub]
  omega

lemma applyRelocationsToSlice_of_ne (imageSize : Nat) (reloc : Slice) :
    ∃ done error, done <+: fixups reloc.bytes ∧ (error = none → done = fixups reloc.bytes) ∧
      ∀ preferredBase actualBase (image : Bytes), preferredBase ≠ actualBase →
        image.length = imageSize → (∀ f ∈ done, f.Inside image) ∧
          applyRelocationsToSlice preferredBase actualBase reloc image =
            ended error (Field.addAll (actualBase - preferredBase).toNat image done) := by
  have hblocks : Applies imageSize (fun delta => applyBlocks imageSize delta reloc.bytes
      (reloc.bytes.length + 1) 0) (fixups reloc.bytes) :=
    applies_applyBlocks reloc.fits (Nat.zero_le _) (by omega)
  obtain ⟨done, error, hdone, hall, hrun⟩ := hblocks
  refine ⟨done, error, hdone, hall, fun preferredBase actualBase image hne himage => ?_⟩
  have hdelta : (actualBase - preferredBase).toNat ≠ 0 := by
    have hsum := toNat_sub_add_toNat_sub hne
    have hlt := (preferredBase - actualBase).isLt
    omega
  obtain ⟨hin, h⟩ := hrun (actualBase - preferredBase).toNat image himage
  refine ⟨hin, ?_⟩
  rw [applyRelocationsToSlice, if_neg hdelta, ← h, ← himage]
  rfl

lemma width_of_mem_fixup {virtAddr entry : Nat} {f : Field} (h : f ∈ fixup virtAddr entry) :
    f.width = 4 ∨ f.width = 8 := by
  unfold fixup at h
  split_ifs at h
  · rw [mem_singleton.mp h]
    exact .inr rfl
  · rw [mem_singleton.mp h]
    exact .inl rfl
  · exact absurd h not_mem_nil

lemma width_of_mem_fixupsFrom {b : Bytes} {cursor : Nat} {f : Field}
    (h : f ∈ fixupsFrom b cursor) : f.width = 4 ∨ f.width = 8 := by
  induction cursor using fixupsFrom.induct b with
  | case1 cursor size hblock ih =>
    rw [fixupsFrom_of_block rfl hblock] at h
    rcases mem_append.mp h with h | h
    · obtain ⟨j, -, hj⟩ := mem_flatMap.mp h
      exact width_of_mem_fixup hj
    · exact ih h
  | case2 cursor size hblock =>
    rw [fixupsFrom, dif_neg hblock] at h
    exact absurd h not_mem_nil

lemma delta_add_mod (hne : preferredBase ≠ actualBase) :
    ∀ f ∈ fixups reloc.bytes, ((actualBase - preferredBase).toNat +
      (preferredBase - actualBase).toNat) % 256 ^ f.width = 0 := by
  intro f hf
  rw [toNat_sub_add_toNat_sub hne]
  rcases width_of_mem_fixupsFrom hf with hwidth | hwidth <;> norm_num [hwidth]

lemma fieldAt_addAll {delta : Nat} {fields : List Field} (h : ∀ f ∈ fields, f.Inside image)
    (hd : fields.Pairwise Field.Disjoint) {f : Field} (hf : f ∈ fields) :
    fieldAt f.width (Field.addAll delta image fields) f.off =
      (fieldAt f.width image f.off).map fun n => (n + delta) % 256 ^ f.width := by
  have hlen : (Field.addAll delta image fields).length = image.length := Field.length_addAll h
  rw [fieldAt_eq ((Field.inside_congr hlen).mpr (h f hf)), fieldAt_eq (h f hf), Option.map_some]
  exact congrArg some (Field.value_addAll h hd hf)

end Relocation

/-- What relocating an image from one base to another does, if it succeeds and if it does not. -/
structure Relocates (preferredBase actualBase : BitVec 64) (reloc : Slice) (image image' : Bytes) :
    Prop where
  /-- No access outside of the image or the directory, no overflow, and the loop ends. -/
  noTrap : ∀ b, applyRelocationsToSlice preferredBase actualBase reloc image ≠ .error .trap b
  length : image'.length = image.length
  /-- Only targets change. -/
  frame : ∀ i, (∀ f ∈ fixups reloc.bytes, ¬ f.Covers i) → image'[i]? = image[i]?
  same : preferredBase = actualBase →
    applyRelocationsToSlice preferredBase actualBase reloc image = .ok () image
  once : applyRelocationsToSlice preferredBase actualBase reloc image = .ok () image' →
    (fixups reloc.bytes).Pairwise Field.Disjoint → ∀ f ∈ fixups reloc.bytes,
      fieldAt f.width image' f.off = (fieldAt f.width image f.off).map
        fun n => (n + (actualBase - preferredBase).toNat) % 256 ^ f.width
  back : applyRelocationsToSlice preferredBase actualBase reloc image = .ok () image' →
    (fixups reloc.bytes).Pairwise Field.Disjoint →
      applyRelocationsToSlice actualBase preferredBase reloc image' = .ok () image

lemma relocates_self (base : BitVec 64) (reloc : Slice) (image : Bytes) :
    Relocates base base reloc image image where
  noTrap b := by
    rw [applyRelocationsToSlice_self]
    nofun
  length := rfl
  frame _ _ := rfl
  same _ := applyRelocationsToSlice_self
  once _ _ f _ := by
    cases hfield : fieldAt f.width image f.off with
    | none => rfl
    | some n => simp [Nat.mod_eq_of_lt (fieldAt_lt hfield)]
  back _ _ := applyRelocationsToSlice_self

/-- Nothing outside of the image is touched, and only the targets change, also when an error is
reported. Targets that do not meet are each moved once, and moving back restores the image. -/
theorem applyRelocationsToSlice_relocates (preferredBase actualBase : BitVec 64) (reloc : Slice)
    (image : Bytes) : Relocates preferredBase actualBase reloc image
      (final (applyRelocationsToSlice preferredBase actualBase reloc) image) := by
  by_cases hne : preferredBase = actualBase
  · subst hne
    have hrun : applyRelocationsToSlice preferredBase preferredBase reloc image =
        ended none image := applyRelocationsToSlice_self
    rw [final_of_ended hrun]
    exact relocates_self preferredBase reloc image
  obtain ⟨done, error, hdone, hall, hruns⟩ := applyRelocationsToSlice_of_ne image.length reloc
  obtain ⟨hin, hrun⟩ := hruns preferredBase actualBase image hne rfl
  have hlen : (Field.addAll (actualBase - preferredBase).toNat image done).length =
    image.length := Field.length_addAll hin
  rw [final_of_ended hrun]
  constructor
  case noTrap => exact fun b => hrun ▸ ended_ne_trap
  case length => exact hlen
  case frame =>
    exact fun i hi => Field.getElem?_addAll hin fun f hf => hi f (hdone.mem hf)
  case same => exact fun h => absurd h hne
  case once =>
    intro hok hd f hf
    obtain rfl := hall (eq_none_of_ended_eq_ok (hrun.symm.trans hok))
    exact fieldAt_addAll hin hd hf
  case back =>
    intro hok hd
    have herror := eq_none_of_ended_eq_ok (hrun.symm.trans hok)
    obtain rfl := hall herror
    obtain ⟨-, hback⟩ := hruns actualBase preferredBase _ (Ne.symm hne) hlen
    rw [hback, herror, Field.addAll_addAll hin hd (delta_add_mod hne)]
    rfl

-- a directory of one block, with an entry for a number of eight bytes and one of padding
example : final (applyRelocationsToSlice 0x1000 0x2100
      ⟨[0, 0, 0, 0, 12, 0, 0, 0, 1, 0xA0, 0, 0], by decide⟩)
    [7, 0, 0x10, 0, 0, 0, 0, 0, 0, 7] = [7, 0, 0x21, 0, 0, 0, 0, 0, 0, 7] := by
  decide +kernel

end LamBoot.Pe
