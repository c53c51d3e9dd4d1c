import LamBoot.Fs.Probe

/-!
# Finding the file system of a disk

`probe_superblock` of `partitions.rs`, which reads whole blocks from the firmware, and its agreement
with the probe of sources.
-/

namespace LamBoot

open List Bytes Text Option

inductive FsType where
  | ext4
  | btrfs
  | xfs
  | f2fs
  | zfs
  | exFat
  | unknown
deriving DecidableEq, Repr

structure FsInfo where
  fsType : FsType
  uuid : Option Text
deriving DecidableEq, Repr

/-! ### The program -/

def formatFsUuid (bytes : Bytes) : Text :=
  if bytes.length < 16 then "unknown"
  else join "-" [hexEncode (bytes.part 0 4), hexEncode (bytes.part 4 2), hexEncode (bytes.part 6 2),
    hexEncode (bytes.part 8 2), hexEncode (bytes.part 10 6)]

/-- `parse_ext4_superblock`, on the bytes from the superblock on. -/
def parseExt4Superblock (sb : Bytes) : Option FsInfo :=
  if sb.length < 0x78 then none
  else if leNat (sb.part 0x38 2) ≠ 0xEF53 then none
  else some ⟨.ext4, some (formatFsUuid (sb.part 0x68 16))⟩

def upperHex (n : Nat) : Text :=
  [n / 4096 % 16, n / 256 % 16, n / 16 % 16, n % 16].map fun d => (Nat.digitChar d).toUpper

section Program

variable (io : BlockIo)

/-- The number of bytes of the blocks that hold `size` bytes. -/
def blockBytes (size : Nat) : Nat :=
  (size + io.blockSize - 1) / io.blockSize * io.blockSize

/-- The blocks for `size` bytes, from the one with the byte at `start` on. -/
def readFrom (start size : Nat) : Option Bytes :=
  io.readBlocks io.mediaId (start / io.blockSize) (blockBytes io size)

def probeExt4 : Option FsInfo := do
  parseExt4Superblock ((← readFrom io 1024 4096).drop (1024 % io.blockSize))

def probeBtrfs : Option FsInfo := do
  let buf ← readFrom io 0x10000 4096
  let sbOffset := 0x10000 % io.blockSize
  if sbOffset + 0x200 ≤ buf.length then
    if buf.part (sbOffset + 0x40) 8 = btrfsMagic then
      some ⟨.btrfs, some (formatFsUuid (buf.part (sbOffset + 0x20) 16))⟩
    else none
  else none

def readSector0 : Option Bytes :=
  io.readBlocks io.mediaId 0 (max io.blockSize 512)

def probeXfs : Option FsInfo := do
  let buf ← readSector0 io
  if 0x60 ≤ buf.length ∧ buf.part 0 4 = xfsMagic then
    some ⟨.xfs, some (formatFsUuid (buf.part 0x20 16))⟩
  else none

def probeExFat : Option FsInfo :=
  let buf := (readSector0 io).getD (replicate (max io.blockSize 512) 0)
  if 0x68 ≤ buf.length ∧ buf.part 3 8 = utf8 "EXFAT   " then
    let serial := leNat (buf.part 100 4)
    some ⟨.exFat, some (upperHex (serial / 2 ^ 16) ++ '-' :: upperHex (serial % 2 ^ 16))⟩
  else none

def probeF2fs : Option FsInfo :=
  let buf := (readFrom io 1024 4096).getD (replicate (blockBytes io 4096) 0)
  let sbOffset := 1024 % io.blockSize
  if sbOffset + 4 ≤ buf.length ∧ leNat (buf.part sbOffset 4) = 0xF2F52010 ∧
      sbOffset + 0x7C ≤ buf.length then
    some ⟨.f2fs, some (formatFsUuid (buf.part (sbOffset + 0x6C) 16))⟩
  else none

def zfsUberblockMagic : Nat := 0x00bab10c

/-- A slot of the array of uberblocks that starts with the magic, in either byte order. -/
def isUberblock (slot : Bytes) : Bool :=
  leNat slot == zfsUberblockMagic || leNat slot.reverse == zfsUberblockMagic

def probeZfs : Option FsInfo := do
  let buf ← readFrom io 0x20000 (128 * 1024)
  if (range (buf.length / 1024 + 1)).any fun i =>
      decide (i * 1024 + 8 ≤ buf.length) && isUberblock (buf.part (i * 1024) 8) then
    some ⟨.zfs, none⟩
  else none

def probeSuperblock : Option FsInfo :=
  if io.blockSize = 0 then none
  else probeExt4 io <|> probeBtrfs io <|> probeXfs io <|> probeExFat io <|> probeF2fs io <|>
    probeZfs io

end Program

/-! ### Agreement -/

/-- The disks that the two probes are compared on. -/
structure Probeable (io : BlockIo) : Prop where
  powerOfTwo : ∃ k, io.blockSize = 2 ^ k
  blockSize : 512 ≤ io.blockSize
  length : 256 * 1024 ≤ io.content.length

section Agreement

variable {io : BlockIo}

lemma Probeable.blockSize_cases (h : Probeable io) :
    (io.blockSize ∣ 0x10000 ∧ io.blockSize ≤ 0x10000) ∨ 0x20000 ≤ io.blockSize := by
  obtain ⟨k, hk⟩ := h.powerOfTwo
  rcases Nat.lt_or_ge k 17 with hlt | hge
  · have hdvd : io.blockSize ∣ 0x10000 := hk ▸ pow_dvd_pow 2 (show k ≤ 16 by omega)
    exact .inl ⟨hdvd, Nat.le_of_dvd (by decide) hdvd⟩
  · exact .inr (hk ▸ Nat.pow_le_pow_right Nat.two_pos hge)

lemma le_blockBytes (size : Nat) : size ≤ blockBytes io size := by
  have hpos := io.blockSize_pos
  have hlt := Nat.lt_div_mul_add (a := size + io.blockSize - 1) hpos
  rw [blockBytes]
  omega

lemma blockBytes_lt (size : Nat) : blockBytes io size < size + io.blockSize := by
  have hpos := io.blockSize_pos
  have hle := Nat.div_mul_le_self (size + io.blockSize - 1) io.blockSize
  rw [blockBytes]
  omega

lemma blockSize_le_length : io.blockSize ≤ io.content.length := by
  rw [io.length_content]
  exact Nat.le_mul_of_pos_left _ (Nat.succ_pos _)

lemma Probeable.window (h : Probeable io) {start : Nat} (hstart : start = 1024 ∨ start = 0x10000) :
    (start / io.blockSize) * io.blockSize + blockBytes io 4096 ≤ io.content.length ∧
      start % io.blockSize + 0x200 ≤ blockBytes io 4096 := by
  have hle : 4096 ≤ blockBytes io 4096 := le_blockBytes 4096
  have hlt : blockBytes io 4096 < 4096 + io.blockSize := blockBytes_lt 4096
  have hdiv := Nat.div_mul_le_self start io.blockSize
  have hlen := h.length
  rcases h.blockSize_cases with ⟨hdvd, hsmall⟩ | hlarge
  · have hmod : start % io.blockSize ≤ 1024 := by
      rcases hstart with rfl | rfl
      · exact Nat.mod_le _ _
      · rw [Nat.mod_eq_zero_of_dvd hdvd]
        exact Nat.zero_le _
    omega
  · -- the first block holds everything
    have hone : blockBytes io 4096 = io.blockSize := by
      have hquot : (4096 + io.blockSize - 1) / io.blockSize = 1 :=
        Nat.div_eq_of_lt_le (by omega) (by omega)
      rw [blockBytes, hquot, Nat.one_mul]
    have hfirst : start / io.blockSize = 0 := Nat.div_eq_of_lt (by omega)
    have hmod : start % io.blockSize = start := Nat.mod_eq_of_lt (by omega)
    have hdisk : io.blockSize ≤ io.content.length := blockSize_le_length
    rw [hone, hfirst, hmod]
    omega

lemma Probeable.readFrom_eq (h : Probeable io) {start : Nat}
    (hstart : start = 1024 ∨ start = 0x10000) :
    readFrom io start 4096 =
      some (io.content.part (start / io.blockSize * io.blockSize) (blockBytes io 4096)) := by
  have hwindow := (h.window hstart).1
  exact io.readBlocks_eq (start / io.blockSize) ((4096 + io.blockSize - 1) / io.blockSize)
    (by rwa [Nat.add_mul])

lemma part_window {start offset size : Nat}
    (hsize : start % io.blockSize + offset + size ≤ blockBytes io 4096) :
    (io.content.part (start / io.blockSize * io.blockSize) (blockBytes io 4096)).part
      (start % io.blockSize + offset) size = io.content.part (start + offset) size := by
  rw [part_part hsize, ← Nat.add_assoc, Nat.div_add_mod']

lemma hasMagic_iff {offset n : Nat} {magic : Bytes} (hn : magic.length = n)
    (h : offset + n ≤ io.content.length) :
    hasMagic io.content offset magic = true ↔ io.content.part offset n = magic := by
  subst hn
  rw [hasMagic, decide_eq_true h, Bool.true_and, beq_iff_eq]

lemma leNat_eq_iff {b : Bytes} (n : Nat) (hn : n < 256 ^ b.length) :
    leNat b = n ↔ b = leBytes b.length n := by
  constructor
  · rintro rfl
    exact (leBytes_leNat b).symm
  · intro h
    rw [h, leNat_leBytes, Nat.mod_eq_of_lt hn]

lemma Probeable.fsType_probeExt4 (h : Probeable io) : (probeExt4 io).map FsInfo.fsType =
    if hasMagic io.content (1024 + 56) ext4Magic then some .ext4 else none := by
  have hstart : 1024 = 1024 ∨ 1024 = 0x10000 := .inl rfl
  obtain ⟨hin, hwindow⟩ := h.window hstart
  have hlen := h.length
  set buf := io.content.part (1024 / io.blockSize * io.blockSize) (blockBytes io 4096) with hbuf
  have hbufLen : buf.length = blockBytes io 4096 := length_part hin
  have hmagic : part (buf.drop (1024 % io.blockSize)) 0x38 2 = io.content.part (1024 + 56) 2 := by
    rw [part_drop, hbuf, part_window (by omega)]
  have htwo : (io.content.part (1024 + 56) 2).length = 2 := length_part (by omega)
  have hiff : leNat (io.content.part (1024 + 56) 2) = 0xEF53 ↔
      hasMagic io.content (1024 + 56) ext4Magic = true := by
    rw [hasMagic_iff rfl (show 1024 + 56 + 2 ≤ io.content.length by omega),
      leNat_eq_iff _ (by rw [htwo]; decide), htwo]
    exact Iff.rfl
  have hparse : probeExt4 io = parseExt4Superblock (buf.drop (1024 % io.blockSize)) := by
    rw [probeExt4, h.readFrom_eq hstart]
    rfl
  rw [hparse, parseExt4Superblock, if_neg (by rw [length_drop]; omega), hmagic]
  by_cases hext4 : leNat (io.content.part (1024 + 56) 2) = 0xEF53
  · rw [if_neg (not_not.mpr hext4), if_pos (hiff.mp hext4)]
    rfl
  · rw [if_pos hext4, if_neg (mt hiff.mpr hext4)]
    rfl

lemma Probeable.fsType_probeBtrfs (h : Probeable io) : (probeBtrfs io).map FsInfo.fsType =
    if hasMagic io.content (0x10000 + 0x40) btrfsMagic then some .btrfs else none := by
  have hstart : 0x10000 = 1024 ∨ 0x10000 = 0x10000 := .inr rfl
  obtain ⟨hin, hwindow⟩ := h.window hstart
  have hlen := h.length
  have hbufLen : (io.content.part (0x10000 / io.blockSize * io.blockSize)
    (blockBytes io 4096)).length = blockBytes io 4096 := length_part hin
  have hiff : io.content.part (0x10000 + 0x40) 8 = btrfsMagic ↔
      hasMagic io.content (0x10000 + 0x40) btrfsMagic = true :=
    (hasMagic_iff (by decide) (by omega)).symm
  rw [probeBtrfs, h.readFrom_eq hstart, bind_eq_bind, bind_some]
  dsimp only
  rw [hbufLen, if_pos hwindow, part_window (by omega)]
  by_cases hbtrfs : io.content.part (0x10000 + 0x40) 8 = btrfsMagic
  · rw [if_pos hbtrfs, if_pos (hiff.mp hbtrfs)]
    rfl
  · rw [if_neg hbtrfs, if_neg (mt hiff.mpr hbtrfs)]
    rfl

lemma Probeable.fsType_probeXfs (h : Probeable io) : (probeXfs io).map FsInfo.fsType =
    if hasMagic io.content 0 xfsMagic then some .xfs else none := by
  have hlen := h.length
  have hsize := h.blockSize
  have hdisk : io.blockSize ≤ io.content.length := blockSize_le_length
  have hread : readSector0 io = some (io.content.part 0 io.blockSize) := by
    have hblock := io.readBlocks_eq 0 1 (by rw [Nat.zero_add, Nat.one_mul]; exact hdisk)
    rw [Nat.one_mul, Nat.zero_mul] at hblock
    rw [readSector0, max_eq_left hsize]
    exact hblock
  have hbufLen : (io.content.part 0 io.blockSize).length = io.blockSize := length_part (by omega)
  have hiff : io.content.part 0 4 = xfsMagic ↔ hasMagic io.content 0 xfsMagic = true :=
    (hasMagic_iff (by decide) (by omega)).symm
  rw [probeXfs, hread, bind_eq_bind, bind_some, hbufLen, part_part (by omega)]
  by_cases hxfs : io.content.part 0 4 = xfsMagic
  · rw [if_pos ⟨by omega, hxfs⟩, if_pos (hiff.mp hxfs)]
    rfl
  · rw [if_neg fun h => hxfs h.2, if_neg (mt hiff.mpr hxfs)]
    rfl

lemma fsType_of_rest {info : FsInfo}
    (h : (probeExFat io <|> probeF2fs io <|> probeZfs io) = some info) :
    info.fsType = .exFat ∨ info.fsType = .f2fs ∨ info.fsType = .zfs := by
  have hexFat : ∀ info, probeExFat io = some info → info.fsType = .exFat := by
    intro info hinfo
    rw [probeExFat] at hinfo
    split_ifs at hinfo
    exact some.inj hinfo ▸ rfl
  have hf2fs : ∀ info, probeF2fs io = some info → info.fsType = .f2fs := by
    intro info hinfo
    rw [probeF2fs] at hinfo
    split_ifs at hinfo
    exact some.inj hinfo ▸ rfl
  have hzfs : ∀ info, probeZfs io = some info → info.fsType = .zfs := by
    intro info hinfo
    obtain ⟨buf, -, hinfo⟩ := bind_eq_some_iff.mp hinfo
    split_ifs at hinfo
    exact some.inj hinfo ▸ rfl
  cases hx : probeExFat io with
  | some a =>
    rw [hx] at h
    exact .inl (hexFat info (hx.trans h))
  | none =>
    rw [hx] at h
    cases hf : probeF2fs io with
    | some a =>
      rw [hf] at h
      exact .inr (.inl (hf2fs info (hf.trans h)))
    | none =>
      rw [hf] at h
      exact .inr (.inr (hzfs info h))

lemma map_orElse (x y : Option FsInfo) :
    (x <|> y).map FsInfo.fsType = (x.map FsInfo.fsType <|> y.map FsInfo.fsType) := by
  cases x <;> rfl

lemma Probeable.fsType_probeSuperblock (h : Probeable io) :
    (probeSuperblock io).map FsInfo.fsType =
      if hasMagic io.content (1024 + 56) ext4Magic then some .ext4
      else if hasMagic io.content (0x10000 + 0x40) btrfsMagic then some .btrfs
      else if hasMagic io.content 0 xfsMagic then some .xfs
      else (probeExFat io <|> probeF2fs io <|> probeZfs io).map FsInfo.fsType := by
  rw [probeSuperblock, if_neg io.blockSize_pos.ne', map_orElse, map_orElse, map_orElse,
    h.fsType_probeExt4, h.fsType_probeBtrfs, h.fsType_probeXfs]
  split_ifs <;> rfl

lemma firstMatch_cases (content : Bytes) : firstMatch content =
      (if hasMagic content (1024 + 56) ext4Magic then .ext4
      else if hasMagic content (0x10000 + 0x40) btrfsMagic then .btrfs
      else if hasMagic content 0 xfsMagic then .xfs
      else ((signatures.drop 3).find? fun sig => sig.2 content).map Prod.fst |>.getD .unknown) := by
  rw [firstMatch, signatures]
  split_ifs with hext4 hbtrfs hxfs
  · rw [find?_cons_of_pos (by exact hext4)]
    rfl
  · rw [find?_cons_of_neg (by exact hext4), find?_cons_of_pos (by exact hbtrfs)]
    rfl
  · rw [find?_cons_of_neg (by exact hext4), find?_cons_of_neg (by exact hbtrfs),
      find?_cons_of_pos (by exact hxfs)]
    rfl
  · rw [find?_cons_of_neg (by exact hext4), find?_cons_of_neg (by exact hbtrfs),
      find?_cons_of_neg (by exact hxfs)]
    rfl

lemma firstMatch_rest {content : Bytes} {fs : ProbedFs}
    (h : (((signatures.drop 3).find? fun sig => sig.2 content).map Prod.fst).getD .unknown = fs) :
    fs ≠ .ext4 ∧ fs ≠ .btrfs ∧ fs ≠ .xfs := by
  have hrest : ∀ sig ∈ signatures.drop 3,
      Prod.fst sig ≠ .ext4 ∧ Prod.fst sig ≠ .btrfs ∧ Prod.fst sig ≠ .xfs := by
    simp [signatures]
  subst h
  cases hfind : (signatures.drop 3).find? fun sig => sig.2 content with
  | none => decide
  | some sig => exact hrest sig (mem_of_find?_eq_some hfind)

end Agreement

/-- The type that a probe of a disk reports for what the other probe finds. -/
structure Agree (info : Option FsInfo) (fs : ProbedFs) : Prop where
  ext4 : info.map FsInfo.fsType = some .ext4 ↔ fs = .ext4
  btrfs : info.map FsInfo.fsType = some .btrfs ↔ fs = .btrfs
  xfs : info.map FsInfo.fsType = some .xfs ↔ fs = .xfs

/-- A disk of 256 KiB or more with blocks of any power of two from 512 on: both probes agree on
ext4, btrfs and XFS, whichever of the signatures are there. -/
theorem probes_agree {io : BlockIo} (hio : Probeable io) {ε σ : Type} {source : BlockSource ε σ}
    {Valid : σ → Prop} {pos : σ → Nat} (hview : ByteView source io.content Valid pos) {s : σ}
    (hs : Valid s) :
    ∃ fs t, probeSourceSuperblock source s = .ok fs t ∧ Agree (probeSuperblock io) fs := by
  have hspec := hview.sourceView.probeSourceSuperblock_spec
  cases hprobe : probeSourceSuperblock source s with
  | error e t => exact (hspec.error hs hprobe).elim
  | ok fs t =>
    obtain ⟨rfl, -⟩ := hspec.ok hs hprobe
    refine ⟨_, t, rfl, ?_⟩
    have htype := hio.fsType_probeSuperblock
    rw [firstMatch_cases]
    split_ifs at htype ⊢ with hext4 hbtrfs hxfs
    · constructor <;> rw [htype] <;> decide
    · constructor <;> rw [htype] <;> decide
    · constructor <;> rw [htype] <;> decide
    · obtain ⟨hne4, hneb, hnex⟩ := firstMatch_rest rfl
      have hother : ∀ fsType, fsType = .ext4 ∨ fsType = .btrfs ∨ fsType = .xfs →
          (probeSuperblock io).map FsInfo.fsType ≠ some fsType := by
        intro fsType hfs h
        rw [htype] at h
        obtain ⟨info, hinfo, rfl⟩ := map_eq_some_iff.mp h
        rcases fsType_of_rest hinfo with h | h | h <;> simp [h] at hfs
      exact ⟨iff_of_false (hother _ (.inl rfl)) hne4,
        iff_of_false (hother _ (.inr (.inl rfl))) hneb,
        iff_of_false (hother _ (.inr (.inr rfl))) hnex⟩

def twoSignatures : BlockIo where
  mediaId := 0
  blockSize := 512
  lastBlock := 511
  content := xfsMagic ++ replicate 1076 0 ++ ext4Magic ++ replicate 261062 0
  readBlocks _ first len := some (part
    (xfsMagic ++ replicate 1076 0 ++ ext4Magic ++ replicate 261062 0) (first * 512) len)
  blockSize_pos := by decide
  length_content := by
    have hxfs : xfsMagic.length = 4 := by decide
    have hext4 : ext4Magic.length = 2 := rfl
    rw [length_append, length_append, length_append, length_replicate,
      length_replicate, hxfs, hext4]
  fits := by
    have hxfs : xfsMagic.length = 4 := by decide
    have hext4 : ext4Magic.length = 2 := rfl
    rw [length_append, length_append, length_append, length_replicate,
      length_replicate, hxfs, hext4]
    decide
  readBlocks_eq _ _ _ := rfl

theorem probes_agree_twoSignatures : Probeable twoSignatures ∧
    ∃ s fs t, BlockIoSource.fromBlockIo twoSignatures = .ok s ∧
      probeSourceSuperblock (BlockIoSource.source twoSignatures) s = .ok fs t ∧
      Agree (probeSuperblock twoSignatures) fs := by
  have hio : Probeable twoSignatures :=
    ⟨⟨9, rfl⟩, le_rfl, by rw [twoSignatures.length_content]; decide⟩
  obtain ⟨s, hs, hvalid⟩ := fromBlockIo_eq twoSignatures
  obtain ⟨fs, t, hprobe, hagree⟩ :=
    probes_agree hio (byteView_blockIoSource twoSignatures) hvalid
  exact ⟨hio, s, fs, t, hs, hprobe, hagree⟩

end LamBoot
