import LamBoot.Acpi.Dmar
import LamBoot.Library.Selection

/-!
# The IVRS table

`parse_ivrs` of `acpi.rs`. It takes the segment from where the base address of an IVHD block is, and
the base address from where the segment is.
-/

namespace LamBoot.Acpi

open List Bytes Checked

def IsIvhd (blockType : UInt8) : Prop :=
  blockType = 0x10 ∨ blockType = 0x11 ∨ blockType = 0x40
deriving Decidable

def readBlock (table : Bytes) (info : IommuInfo) (offset size : Nat) : AcpiM IommuInfo := do
  let blockType ← index table offset
  if IsIvhd blockType then
    if 24 ≤ size then
      let segment ← readU16 table (offset + 8)
      let base ← readU64 table (offset + 16)
      return { info with
        drhdUnits := info.drhdUnits ++
          [{ segment, registerBase := base, includePciAll := false, deviceScopes := [] }] }
    else return info
  else return info

def parseIvrs (memory : Bytes) (info : IommuInfo) : AcpiM IommuInfo := do
  match ← mapTable memory with
  | none => return info
  | some table =>
    structureFormat.walk table.length (fun offset => readLe 2 table (offset + 2))
      (readBlock table) (table.length + 1) 48 { info with amdVi := true }

/-! ### What the bytes say -/

def blockUnits (r : Bytes) : List DrhdUnit :=
  if IsIvhd (r.getD 0 0) ∧ 24 ≤ r.length then
    [{ segment := u16Of r 8, registerBase := u64Of r 16, includePciAll := false,
       deviceScopes := [] }]
  else []

def addBlock (info : IommuInfo) (r : Bytes) : IommuInfo :=
  { info with drhdUnits := info.drhdUnits ++ blockUnits r }

lemma foldl_addBlock (rs : List Bytes) (info : IommuInfo) :
    rs.foldl addBlock info =
      { info with drhdUnits := info.drhdUnits ++ rs.flatMap blockUnits } := by
  induction rs generalizing info with
  | nil => simp
  | cons r rs ih => rw [foldl_cons, ih]; simp [addBlock]

section Parser

variable {table memory : Bytes}

lemma u64Of_part {i n k : Nat} (h : k + 8 ≤ n) :
    u64Of (table.part i n) k = u64Of table (i + k) := by
  rw [u64Of, part_part h, u64Of]

lemma readBlock_eq_ok {info : IommuInfo} {offset size : Nat} (hsize : 4 ≤ size)
    (h : offset + size ≤ table.length) :
    readBlock table info offset size = .ok (addBlock info (table.part offset size)) := by
  have htype : (table.part offset size).getD 0 0 = table.getD offset 0 := getD_part (by omega)
  rw [readBlock, index_eq_ok (by omega), ok_bind, addBlock, blockUnits, htype, length_part h]
  by_cases hivhd : IsIvhd (table.getD offset 0)
  · by_cases hlen : 24 ≤ size
    · rw [if_pos hivhd, if_pos hlen, if_pos ⟨hivhd, hlen⟩, readU16_eq_ok (by omega), ok_bind,
        readU64_eq_ok (by omega), ok_bind, u16Of_part (by omega), u64Of_part (by omega)]
      rfl
    · rw [if_pos hivhd, if_neg hlen, if_neg fun h => hlen h.2, append_nil]
      rfl
  · rw [if_neg hivhd, if_neg fun h => hivhd h.1, append_nil]
    rfl

lemma parseIvrs_eq_ok (h : Declared memory) (info : IommuInfo) :
    parseIvrs memory info = .ok
      (if memory.length < 48 ∨ maxAcpiTableLen < memory.length then info
      else
        (structureFormat.records (memory.drop 48)).foldl addBlock { info with amdVi := true }) := by
  split_ifs with hlen
  · rw [parseIvrs, mapTable_eq_none h hlen]
    rfl
  · rw [parseIvrs, mapTable_eq_some h (by omega) (by omega), ok_bind]
    refine Format.walk_eq_foldl (fun i hi => ?_) (fun info i n hn hi => ?_) (by omega)
    · have hi : i + 4 ≤ memory.length := hi
      rw [readLe_eq_ok (by omega)]
      simp only [structureFormat, part_drop]
    · exact readBlock_eq_ok hn hi

end Parser

/-! ### Well-formed IVRS tables -/

/-- A block of an IVRS table. The header of an IVHD block has the base address at offset 8 and the
segment at offset 16. -/
inductive Block where
  | ivhd (blockType flags : UInt8) (deviceId capability : UInt16) (base : UInt64)
      (segment : UInt16) (rest : Bytes) (htype : IsIvhd blockType)
  | other (blockType flags : UInt8) (payload : Bytes) (htype : ¬ IsIvhd blockType)

namespace Block

def blockType : Block → UInt8
  | ivhd blockType .. => blockType
  | other blockType .. => blockType

def flags : Block → UInt8
  | ivhd _ flags .. => flags
  | other _ flags .. => flags

def payload : Block → Bytes
  | ivhd _ _ deviceId capability base segment rest _ =>
    leBytes 2 deviceId.toNat ++ leBytes 2 capability.toNat ++ leBytes 8 base.toNat ++
      leBytes 2 segment.toNat ++ rest
  | other _ _ payload _ => payload

def bytes (b : Block) : Bytes :=
  [b.blockType, b.flags] ++ leBytes 2 (4 + b.payload.length) ++ b.payload

def units : Block → List (UInt16 × UInt64)
  | ivhd _ _ _ _ base segment _ _ => [(segment, base)]
  | other .. => []

/-- The eight bytes from offset 16 on are there and are those from offset 8 on, so that it does not
matter which of the two are read. -/
def Repeats : Block → Prop
  | ivhd _ _ _ _ base segment rest _ =>
    6 ≤ rest.length ∧ leBytes 8 base.toNat = leBytes 2 segment.toNat ++ rest.take 6
  | other .. => True

end Block

/-- An IVRS table: a header, and blocks that are short enough for their sizes. -/
structure IvrsTable extends Sdt where
  blocks : List Block
  blocks_fit : ∀ b ∈ blocks, 4 + b.payload.length < 2 ^ 16
  body_eq : body = blocks.flatMap Block.bytes

def IvrsTable.units (t : IvrsTable) : List (UInt16 × UInt64) :=
  t.blocks.flatMap Block.units

def IommuInfo.listed (info : IommuInfo) : List (UInt16 × UInt64) :=
  info.drhdUnits.map fun u => (u.segment, u.registerBase)

def Block.read (b : Block) : List (UInt16 × UInt64) :=
  (blockUnits b.bytes).map fun u => (u.segment, u.registerBase)

section Written

lemma Block.length_bytes (b : Block) : b.bytes.length = 4 + b.payload.length := by
  simp [Block.bytes]
  omega

lemma Block.proper {b : Block} (h : 4 + b.payload.length < 2 ^ 16) :
    structureFormat.Proper b.bytes where
  head_le := by
    rw [b.length_bytes]
    exact Nat.le_add_right 4 _
  size_eq c := by
    have hpart : (b.bytes ++ c).part 2 2 = leBytes 2 (4 + b.payload.length) := rfl
    change leNat ((b.bytes ++ c).part 2 2) = _
    rw [hpart, leNat_leBytes, b.length_bytes]
    exact Nat.mod_eq_of_lt h

lemma Block.length_read_le (b : Block) : b.read.length ≤ b.units.length := by
  rw [Block.read, length_map, blockUnits]
  split_ifs with h
  · cases b with
    | ivhd => exact le_rfl
    | other blockType flags payload htype => exact absurd h.1 htype
  · exact Nat.zero_le _

lemma u64_eq_iff {b : Bytes} (h : b.length = 8) (n : UInt64) :
    UInt64.ofNat (leNat b) = n ↔ leBytes 8 n.toNat = b := by
  constructor
  · rintro rfl
    have hlt : leNat b < 2 ^ 64 := by
      have hpow : 256 ^ b.length = 2 ^ 64 := by rw [h]; rfl
      exact hpow ▸ leNat_lt b
    have hback : leBytes b.length (leNat b) = b := leBytes_leNat b
    rw [UInt64.toNat_ofNat', Nat.mod_eq_of_lt hlt, ← h, hback]
  · rintro rfl
    exact ofNat_leNat_eight n

lemma Block.read_eq_units_iff (b : Block) : b.read = b.units ↔ b.Repeats := by
  cases b with
  | other blockType flags payload htype =>
    exact iff_of_true (congrArg (map _) (if_neg fun h => htype h.1)) trivial
  | ivhd blockType flags deviceId capability base segment rest htype =>
    set b := Block.ivhd blockType flags deviceId capability base segment rest htype with hb
    have hlen : b.bytes.length = 18 + rest.length := by
      rw [b.length_bytes, hb]
      simp only [Block.payload, length_append, length_leBytes]
      omega
    by_cases hlong : 6 ≤ rest.length
    · have hunits : blockUnits b.bytes = [⟨u16Of b.bytes 8, u64Of b.bytes 16, false, []⟩] :=
        if_pos ⟨htype, by omega⟩
      have hbytes : (leBytes 2 segment.toNat ++ rest.take 6).length = 8 := by
        rw [length_append, length_leBytes, length_take]
        omega
      have hsegment : u16Of b.bytes 8 =
          UInt16.ofNat (leNat ((leBytes 8 base.toNat).take 2)) := rfl
      have hbase : u64Of b.bytes 16 =
          UInt64.ofNat (leNat (leBytes 2 segment.toNat ++ rest.take 6)) := rfl
      have hrepeats : b.Repeats ↔
          6 ≤ rest.length ∧ leBytes 8 base.toNat = leBytes 2 segment.toNat ++ rest.take 6 := Iff.rfl
      rw [Block.read, hunits, hrepeats, hsegment, hbase, ← u64_eq_iff hbytes base]
      constructor
      · intro h
        exact ⟨hlong, (Prod.mk.inj (cons.inj h).1).2⟩
      · rintro ⟨-, h⟩
        have hsame := (u64_eq_iff hbytes base).mp h
        have htake : (leBytes 2 segment.toNat ++ rest.take 6).take 2 =
            leBytes 2 segment.toNat := rfl
        rw [map_singleton, h, hsame, htake, ofNat_leNat_two]
        rfl
    · refine iff_of_false (fun h => ?_) fun h => hlong h.1
      have hunits : blockUnits b.bytes = [] := if_neg fun h => by omega
      rw [Block.read, hunits] at h
      exact cons_ne_nil _ _ h.symm

variable (t : IvrsTable)

lemma records_ivrs :
    structureFormat.records (t.bytes.drop 48) = t.blocks.map Block.bytes := by
  rw [t.drop_bytes, t.body_eq, flatMap_def]
  refine Format.records_flatten fun r hr => ?_
  obtain ⟨b, hb, rfl⟩ := mem_map.mp hr
  exact Block.proper (t.blocks_fit b hb)

lemma parseIvrs_bytes (info : IommuInfo) : ∃ info', parseIvrs t.bytes info = .ok info' ∧
    info'.listed = info.listed ++
      if t.length ≤ maxAcpiTableLen then t.blocks.flatMap Block.read else [] := by
  refine ⟨_, parseIvrs_eq_ok t.declared info, ?_⟩
  rw [t.length_bytes]
  by_cases hlen : t.length ≤ maxAcpiTableLen
  · have hmin : ¬ (t.length < 48 ∨ maxAcpiTableLen < t.length) := by
      have : 48 ≤ t.length := Nat.le_add_right 48 _
      omega
    rw [if_neg hmin, if_pos hlen, records_ivrs, foldl_addBlock, flatMap_map]
    simp only [IommuInfo.listed, map_append, map_flatMap]
    rfl
  · rw [if_pos (.inr (by omega)), if_neg hlen, append_nil]

end Written

/-- Each IVHD block is listed with its own segment and base address just if there are none, or the
table has at most one MiB and their bytes repeat. Any bytes of the declared length are parsed. -/
theorem parseIvrs_iff (t : IvrsTable) (memory : Bytes) (info : IommuInfo) :
    ((∃ info', parseIvrs t.bytes info = .ok info' ∧ info'.listed = info.listed ++ t.units) ↔
      t.units = [] ∨ t.length ≤ maxAcpiTableLen ∧ ∀ b ∈ t.blocks, b.Repeats) ∧
    (Declared memory → ∃ info', parseIvrs memory info = .ok info') := by
  refine ⟨?_, fun h => ⟨_, parseIvrs_eq_ok h info⟩⟩
  obtain ⟨info', hinfo', hlisted⟩ := parseIvrs_bytes t info
  have hiff : (∃ info', parseIvrs t.bytes info = .ok info' ∧
      info'.listed = info.listed ++ t.units) ↔ info'.listed = info.listed ++ t.units := by
    rw [hinfo']
    constructor
    · rintro ⟨_, h, hunits⟩
      rwa [Except.ok.inj h]
    · exact fun h => ⟨info', rfl, h⟩
  rw [hiff, hlisted, append_cancel_left_eq]
  have hrepeats : t.blocks.flatMap Block.read = t.units ↔ ∀ b ∈ t.blocks, b.Repeats := by
    rw [IvrsTable.units, flatMap_eq_flatMap_iff Block.length_read_le]
    exact forall₂_congr fun b _ => b.read_eq_units_iff
  by_cases hlen : t.length ≤ maxAcpiTableLen
  · rw [if_pos hlen, hrepeats]
    refine ⟨fun h => .inr ⟨hlen, h⟩, ?_⟩
    rintro (hnil | h)
    · -- without IVHD blocks there is nothing to repeat
      intro b hb
      cases b with
      | ivhd => exact absurd (flatMap_eq_nil_iff.mp hnil _ hb) (cons_ne_nil _ _)
      | other => trivial
    · exact h.2
  · rw [if_neg hlen]
    exact ⟨fun h => .inl h.symm, fun h => h.elim Eq.symm fun h => absurd h.1 hlen⟩

lemma length_zeros : (replicate 40 (0 : UInt8)).length = 40 :=
  rfl

/-- The table of one block, with nothing in its header but the signature and the length. -/
def ivrsTable (b : Block) (hfit : 4 + b.payload.length < 2 ^ 16) : IvrsTable where
  signature := [0x49, 0x56, 0x52, 0x53]
  signature_length := rfl
  rest := replicate 40 0
  rest_length := length_zeros
  blocks := [b]
  blocks_fit c hc := mem_singleton.mp hc ▸ hfit
  body := b.bytes
  body_eq := (append_nil _).symm
  fits := by
    rw [b.length_bytes]
    omega

def repeatedUnit : IvrsTable :=
  ivrsTable (.ivhd 0x10 0 0 0 5 5 [0, 0, 0, 0, 0, 0] (.inl rfl)) (by decide)

theorem parseIvrs_iff_repeatedUnit :
    (∃ info', parseIvrs repeatedUnit.bytes {} = .ok info' ∧ info'.listed = [(5, 5)]) ∧
    ∃ info', parseIvrs repeatedUnit.bytes {} = .ok info' := by
  obtain ⟨hlists, hends⟩ := parseIvrs_iff repeatedUnit repeatedUnit.bytes {}
  refine ⟨hlists.mpr (.inr ⟨by decide, ?_⟩), hends repeatedUnit.declared⟩
  exact forall_mem_singleton.mpr ⟨le_rfl, by decide⟩

def oneUnit : IvrsTable :=
  ivrsTable (.ivhd 0x10 0 0 0 0xFEB80000 0 [0, 0, 0, 0, 0, 0] (.inl rfl)) (by decide)

/-- The unit at 0xFEB80000 is listed with the base address zero. -/
theorem parseIvrs_oneUnit :
    oneUnit.units = [(0, 0xFEB80000)] ∧
    parseIvrs oneUnit.bytes {} = .ok { amdVi := true, drhdUnits := [⟨0, 0, false, []⟩] } := by
  decide +kernel

end LamBoot.Acpi
