import LamBoot.Fs.BlockSource
import LamBoot.Fs.Path

/-!
# Finding the file system of a source

`probe_source_superblock` and `probe_udf_anchor` of `fs_backend_lvm_dispatch.rs`, on any source that
is a view of a byte string, however it cuts its reads.
-/

namespace LamBoot

open List Bytes Stateful Text

inductive ProbedFs where
  | ext4
  | btrfs
  | xfs
  | fat
  | erofs
  | iso9660
  | cramfs
  | romfs
  | squashfs
  | udf
  | unknown
deriving DecidableEq, Repr

/-! ### Signatures -/

def hasMagic (b : Bytes) (offset : Nat) (magic : Bytes) : Bool :=
  decide (offset + magic.length ≤ b.length) && b.part offset magic.length == magic

def ext4Magic : Bytes := [0x53, 0xEF]
def btrfsMagic : Bytes := utf8 "_BHRfS_M"
def xfsMagic : Bytes := utf8 "XFSB"
def erofsMagic : Bytes := [0xE2, 0xE1, 0xF5, 0xE0]
def isoMagic : Bytes := utf8 "CD001"
def cramfsMagic : Bytes := [0x45, 0x3D, 0xCD, 0x28]
def romfsMagic : Bytes := utf8 "-rom1fs-"
def squashfsMagic : Bytes := [0x68, 0x73, 0x71, 0x73]

/-- The signature of a boot sector, with the type string of FAT12 and FAT16 or of FAT32. -/
def hasFat (b : Bytes) : Bool :=
  hasMagic b 510 [0x55, 0xAA] &&
    (hasMagic b 0x36 (utf8 "FAT") || hasMagic b 0x52 (utf8 "FAT"))

def hasUdfAnchor (b : Bytes) : Bool :=
  hasMagic b (256 * 2048) [2, 0]

def signatures : List (ProbedFs × (Bytes → Bool)) :=
  [(.ext4, fun b => hasMagic b (1024 + 56) ext4Magic),
    (.btrfs, fun b => hasMagic b (0x10000 + 0x40) btrfsMagic),
    (.xfs, fun b => hasMagic b 0 xfsMagic), (.erofs, fun b => hasMagic b 1024 erofsMagic),
    (.iso9660, fun b => hasMagic b 0x8001 isoMagic), (.cramfs, fun b => hasMagic b 0 cramfsMagic),
    (.romfs, fun b => hasMagic b 0 romfsMagic), (.squashfs, fun b => hasMagic b 0 squashfsMagic),
    (.fat, hasFat), (.udf, hasUdfAnchor)]

/-- The file system that a byte string holds: the first one of which the signature is there. -/
def firstMatch (content : Bytes) : ProbedFs :=
  ((signatures.find? fun sig => sig.2 content).map Prod.fst).getD .unknown

/-! ### The program -/

def probeBytes : Nat := 65536 + 4096

section Program

variable {ε σ : Type} (source : BlockSource ε σ)

/-- The error of a read or a seek that failed. Its text is that of a literal with its quotes. -/
def ioErr (_ : ε) : FsError :=
  .unsupported "\"LV probe I/O error\""

def seekOrErr (pos : UInt64) : EStateM FsError σ Unit := do
  let _ ← EStateM.adaptExcept ioErr (source.seek (.start pos))

/-- The loop that fills a buffer, with `left` bytes still to read. It gives the bytes that there
were. -/
def fillUpTo (left : Nat) : EStateM FsError σ Bytes :=
  if _hleft : left = 0 then pure []
  else do
    let got ← EStateM.adaptExcept ioErr (source.read left)
    if _hgot : got.length = 0 then return []
    else do
      let rest ← fillUpTo (left - got.length)
      return got ++ rest
termination_by left
decreasing_by omega

def matchWindow (buf : Bytes) : Option ProbedFs :=
  if hasMagic buf (1024 + 56) ext4Magic then some .ext4
  else if hasMagic buf (0x10000 + 0x40) btrfsMagic then some .btrfs
  else if hasMagic buf 0 xfsMagic then some .xfs
  else if hasMagic buf 1024 erofsMagic then some .erofs
  else if hasMagic buf 0x8001 isoMagic then some .iso9660
  else if hasMagic buf 0 cramfsMagic then some .cramfs
  else if hasMagic buf 0 romfsMagic then some .romfs
  else if hasMagic buf 0 squashfsMagic then some .squashfs
  else if hasFat buf then some .fat
  else none

def probeUdfAnchor : EStateM FsError σ Bool := do
  seekOrErr source (256 * 2048)
  let tag ← fillUpTo source 2
  seekOrErr source 0
  -- a source that ends before the tag is not UDF
  return decide (tag.length = 2) && leNat tag == 2

def probeSourceSuperblock : EStateM FsError σ ProbedFs := do
  seekOrErr source 0
  let buf ← fillUpTo source probeBytes
  seekOrErr source 0
  match matchWindow buf with
  | some fs => return fs
  | none => if ← probeUdfAnchor source then return .udf else return .unknown

end Program

/-! ### Sources that may fail -/

/-- The source is a view of a byte string: a read gives a part of the content at the position, empty
only at the end, and the position moves by as much. It only fails if `mayFail`. -/
structure SourceView {ε σ : Type} (source : BlockSource ε σ) (content : Bytes) (Valid : σ → Prop)
    (pos : σ → Nat) (mayFail : Prop) : Prop where
  seek_start : ∀ x, Triple Valid (source.seek (.start x))
    (fun _ t => Valid t ∧ pos t = x.toNat) fun _ _ => mayFail
  read : ∀ s len, Valid s → Triple (· = s) (source.read len)
    (fun got t => Valid t ∧ got <+: content.part (pos s) len ∧
      (got = [] → len = 0 ∨ content.length ≤ pos s) ∧ (got ≠ [] → pos t = pos s + got.length))
    fun _ _ => mayFail

section View

variable {ε σ : Type} {source : BlockSource ε σ} {content : Bytes} {Valid : σ → Prop}
  {pos : σ → Nat} {mayFail : Prop}

lemma ByteView.sourceView (hview : ByteView source content Valid pos) :
    SourceView source content Valid pos False where
  seek_start x s hs := by
    obtain ⟨t, hseek, ht⟩ := hview.seek_start x hs
    simpa only [hseek] using ht
  read s len hs := by
    intro u hu
    rw [show u = s from hu]
    rcases Nat.eq_zero_or_pos len with rfl | hlen
    · simpa only [hview.read_empty] using
        ⟨hs, nil_prefix, fun _ => .inl trivial, fun h => absurd rfl h⟩
    by_cases hpos : pos s < content.length
    · obtain ⟨got, t, hread, hne, hprefix, ht, hpos'⟩ := hview.read_inside hs hlen hpos
      simpa only [hread] using ⟨ht, hprefix, fun h => absurd h hne, fun _ => hpos'⟩
    · obtain ⟨t, hread, ht⟩ := hview.read_end len hs (not_lt.mp hpos)
      simpa only [hread] using
        ⟨ht, nil_prefix, fun _ => .inr (not_lt.mp hpos), fun h => absurd rfl h⟩

lemma SourceView.mono {mayFail' : Prop} (hview : SourceView source content Valid pos mayFail)
    (h : mayFail → mayFail') : SourceView source content Valid pos mayFail' where
  seek_start x := (hview.seek_start x).imp_stopped fun _ _ => h
  read s len hs := (hview.read s len hs).imp_stopped fun _ _ => h

lemma triple_adaptExcept {ε' α : Type} {pre : σ → Prop} {f : ε → ε'} {x : EStateM ε σ α}
    {post : α → σ → Prop} (h : Triple pre x post fun _ _ => mayFail) :
    Triple pre (EStateM.adaptExcept f x) post fun _ _ => mayFail := by
  intro s hs
  cases hx : x s with
  | ok a t => simpa only [EStateM.adaptExcept, hx] using h.ok hs hx
  | error e t => simpa only [EStateM.adaptExcept, hx] using h.error hs hx

lemma SourceView.seekOrErr_spec (hview : SourceView source content Valid pos mayFail)
    (x : UInt64) : Triple Valid (seekOrErr source x)
      (fun _ t => Valid t ∧ pos t = x.toNat) fun _ _ => mayFail :=
  Triple.bind (triple_adaptExcept (hview.seek_start x)) fun _ _ ht => triple_pure fun _ h => h ▸ ht

lemma SourceView.fillUpTo_spec (hview : SourceView source content Valid pos mayFail) (left : Nat)
    (s : σ) (hs : Valid s) : Triple (· = s) (fillUpTo source left)
      (fun b t => b = content.part (pos s) left ∧ Valid t) fun _ _ => mayFail := by
  induction left using Nat.strong_induction_on generalizing s with
  | _ left ih =>
    rw [fillUpTo]
    split_ifs with hleft
    · refine triple_pure fun t ht => ⟨?_, ht ▸ hs⟩
      rw [hleft, part, take_zero]
    refine Triple.bind (triple_adaptExcept (hview.read s left hs)) ?_
    rintro got t ⟨ht, hprefix, hend, hpos⟩
    split_ifs with hgot
    · -- the source has ended
      have hnil : got = [] := length_eq_zero_iff.mp hgot
      have hle : content.length ≤ pos s := (hend hnil).resolve_left hleft
      refine triple_pure fun u hu => ⟨?_, hu ▸ ht⟩
      rw [part, drop_eq_nil_of_le hle, take_nil]
    · have hne : got ≠ [] := fun h => hgot (length_eq_zero_iff.mpr h)
      have hle : got.length ≤ left := hprefix.length_le.trans (length_take_le _ _)
      refine Triple.bind (ih (left - got.length) (by omega) t ht) ?_
      rintro rest u ⟨hrest, hu⟩
      refine triple_pure fun v hv => ⟨?_, hv ▸ hu⟩
      have hparts := part_add content (pos s) got.length (left - got.length)
      rw [Nat.add_sub_cancel' hle, ← eq_part_of_prefix hprefix, ← hpos hne, ← hrest] at hparts
      exact hparts.symm

lemma hasMagic_part {n offset : Nat} {magic : Bytes} (h : offset + magic.length ≤ n) :
    hasMagic (content.part 0 n) offset magic = hasMagic content offset magic := by
  have hpart : (content.part 0 n).part offset magic.length = content.part offset magic.length := by
    rw [part_part h, Nat.zero_add]
  have hlen : offset + magic.length ≤ (content.part 0 n).length ↔
      offset + magic.length ≤ content.length := by
    rw [part_zero, length_take]
    omega
  rw [hasMagic, hasMagic, hpart, decide_eq_decide.mpr hlen]

lemma hasFat_part : hasFat (content.part 0 probeBytes) = hasFat content := by
  rw [hasFat, hasFat, hasMagic_part (by decide), hasMagic_part (by decide),
    hasMagic_part (by decide)]

lemma firstMatch_eq (content : Bytes) : firstMatch content =
    (matchWindow (content.part 0 probeBytes)).getD
      (if hasUdfAnchor content then .udf else .unknown) := by
  rw [matchWindow, hasMagic_part (by decide), hasMagic_part (by decide), hasMagic_part (by decide),
    hasMagic_part (by decide), hasMagic_part (by decide), hasMagic_part (by decide),
    hasMagic_part (by decide), hasMagic_part (by decide), hasFat_part]
  simp only [firstMatch, signatures, List.find?_cons]
  split_ifs <;> simp_all

lemma udfTag_eq (content : Bytes) :
    (decide ((content.part (256 * 2048) 2).length = 2) &&
      leNat (content.part (256 * 2048) 2) == 2) = hasUdfAnchor content := by
  rw [Bool.eq_iff_iff, hasUdfAnchor, hasMagic, Bool.and_eq_true, Bool.and_eq_true,
    decide_eq_true_eq, decide_eq_true_eq, beq_iff_eq, beq_iff_eq]
  have hlen : ([2, 0] : Bytes).length = 2 := rfl
  rw [hlen]
  set tag := content.part (256 * 2048) 2 with htag
  constructor
  · rintro ⟨htwo, hvalue⟩
    have hback : leBytes tag.length (leNat tag) = tag := leBytes_leNat tag
    rw [htwo, hvalue] at hback
    refine ⟨?_, hback.symm⟩
    rw [htag, part, length_take, length_drop] at htwo
    omega
  · rintro ⟨-, hbytes⟩
    rw [hbytes]
    exact ⟨rfl, by decide⟩

lemma SourceView.probeUdfAnchor_spec (hview : SourceView source content Valid pos mayFail) :
    Triple Valid (probeUdfAnchor source)
      (fun found t => found = hasUdfAnchor content ∧ Valid t ∧ pos t = 0) fun _ _ => mayFail := by
  refine Triple.bind (hview.seekOrErr_spec _) ?_
  rintro _ s ⟨hs, hpos⟩
  refine Triple.bind (hview.fillUpTo_spec 2 s hs) ?_
  rintro tag t ⟨htag, ht⟩
  refine Triple.bind ((hview.seekOrErr_spec 0).of_pre fun _ h => h ▸ ht) ?_
  rintro _ u ⟨hu, hzero⟩
  refine triple_pure fun v hv => ⟨?_, hv ▸ hu, hv ▸ hzero⟩
  rw [htag, hpos]
  exact udfTag_eq content

lemma SourceView.probeSourceSuperblock_spec
    (hview : SourceView source content Valid pos mayFail) :
    Triple Valid (probeSourceSuperblock source)
      (fun fs t => fs = firstMatch content ∧ Valid t ∧ pos t = 0) fun _ _ => mayFail := by
  refine Triple.bind (hview.seekOrErr_spec 0) ?_
  rintro _ s ⟨hs, hpos⟩
  refine Triple.bind (hview.fillUpTo_spec probeBytes s hs) ?_
  rintro buf t ⟨hbuf, ht⟩
  refine Triple.bind ((hview.seekOrErr_spec 0).of_pre fun _ h => h ▸ ht) ?_
  rintro _ u ⟨hu, hzero⟩
  have hwindow : buf = content.part 0 probeBytes := by rw [hbuf, hpos]; rfl
  rw [firstMatch_eq, ← hwindow]
  cases matchWindow buf with
  | some fs => exact triple_pure fun v hv => ⟨rfl, hv ▸ hu, hv ▸ hzero⟩
  | none =>
    refine Triple.bind (hview.probeUdfAnchor_spec.of_pre fun _ h => h ▸ hu) ?_
    rintro found v ⟨rfl, hv, hvzero⟩
    split_ifs <;> exact triple_pure fun w hw => ⟨rfl, hw ▸ hv, hw ▸ hvzero⟩

end View

/-- However the source cuts its reads, the answer depends on the bytes only: it is the first file
system whose signature is there, and the source is at its start again. -/
theorem probeSourceSuperblock_answers {ε σ : Type} {source : BlockSource ε σ} {content : Bytes}
    {Valid : σ → Prop} {pos : σ → Nat} :
    (SourceView source content Valid pos True → ∀ s fs t, Valid s →
      probeSourceSuperblock source s = .ok fs t → fs = firstMatch content ∧ pos t = 0) ∧
    (SourceView source content Valid pos False → ∀ s, Valid s →
      ∃ t, probeSourceSuperblock source s = .ok (firstMatch content) t ∧ pos t = 0) := by
  constructor
  · intro hview s fs t hs hprobe
    obtain ⟨hfs, -, hpos⟩ := hview.probeSourceSuperblock_spec.ok hs hprobe
    exact ⟨hfs, hpos⟩
  · intro hview s hs
    cases hprobe : probeSourceSuperblock source s with
    | ok fs t =>
      obtain ⟨rfl, -, hpos⟩ := hview.probeSourceSuperblock_spec.ok hs hprobe
      exact ⟨t, rfl, hpos⟩
    | error e t => exact (hview.probeSourceSuperblock_spec.error hs hprobe).elim

def xfsFile : BackendFile where
  content := xfsMagic
  readAt _ offset _ := some (xfsMagic.part offset 1)
  fits := by decide
  readAt_short _ offset len hlen hoffset :=
    ⟨_, rfl, ne_nil_of_length_pos (by rw [length_part (by omega)]; decide),
      part_prefix_part hlen⟩

theorem probeSourceSuperblock_xfsFile :
    (∀ fs t, probeSourceSuperblock (FileBlockSource.source xfsFile) (FileBlockSource.new xfsFile) =
      .ok fs t → fs = .xfs) ∧
    ∃ t, probeSourceSuperblock (FileBlockSource.source xfsFile) (FileBlockSource.new xfsFile) =
      .ok .xfs t ∧ t.position = 0 := by
  have hview := (byteView_fileBlockSource xfsFile).sourceView
  have hxfs : firstMatch xfsFile.content = .xfs := by decide +kernel
  have hs : FileBlockSource.Valid xfsFile (FileBlockSource.new xfsFile) := ⟨rfl⟩
  rw [← hxfs]
  exact ⟨fun fs t h => (probeSourceSuperblock_answers.1 (hview.mono False.elim) _ fs t hs h).1,
    probeSourceSuperblock_answers.2 hview _ hs⟩

end LamBoot
