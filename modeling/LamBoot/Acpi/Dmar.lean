import LamBoot.Library.Walk

/-!
# The DMAR table

`parse_dmar` of `acpi.rs` with the parsers it calls. Memory from the address of a table on is a byte
string, and reading beyond its end is a trap, as is an index that is out of range. The sums of
positions stay below `2 ^ 32`, so they are not taken modulo the word.
-/

namespace LamBoot.Acpi

open List Bytes Checked

abbrev AcpiM := Checked Empty

def maxAcpiTableLen : Nat := 1024 * 1024

structure DeviceScope where
  scopeType : UInt8
  enumerationId : UInt8
  startBus : UInt8
  /-- Device and function, from the start bus to the device. -/
  path : List (UInt8 × UInt8)
deriving DecidableEq, Repr

structure DrhdUnit where
  segment : UInt16
  registerBase : UInt64
  includePciAll : Bool
  deviceScopes : List DeviceScope
deriving DecidableEq, Repr

structure RmrrRegion where
  baseAddress : UInt64
  limitAddress : UInt64
  segment : UInt16
  deviceScopes : List DeviceScope
deriving DecidableEq, Repr

structure IommuInfo where
  intelVtD : Bool := false
  amdVi : Bool := false
  drhdUnits : List DrhdUnit := []
  rmrrRegions : List RmrrRegion := []
deriving DecidableEq, Repr

/-! ### The parsers -/

/-- `u16::from_le_bytes` of the bytes at a position. -/
def readU16 (b : Bytes) (i : Nat) : AcpiM UInt16 := do
  return UInt16.ofNat (← readLe 2 b i)

/-- `u64::from_le_bytes` of the bytes at a position. -/
def readU64 (b : Bytes) (i : Nat) : AcpiM UInt64 := do
  return UInt64.ofNat (← readLe 8 b i)

def scopeFormat : Format where
  head := 6
  head_pos := by decide
  size b := (b.getD 1 0).toNat

def structureFormat : Format where
  head := 4
  head_pos := by decide
  size b := leNat (b.part 2 2)

/-- The pairs of a PCI path, `count` of them from `start` on. -/
def readPath (data : Bytes) (start count : Nat) : AcpiM (List (UInt8 × UInt8)) :=
  (range count).foldlM (fun path i => do
    let p := start + i * 2
    if p + 1 < data.length then
      return path ++ [(← index data p, ← index data (p + 1))]
    else return path) []

/-- The scope of `size` bytes at `offset`. -/
def readScope (data : Bytes) (offset size : Nat) : AcpiM DeviceScope := do
  let scopeType ← index data offset
  let enumerationId ← index data (offset + 4)
  let startBus ← index data (offset + 5)
  let path ← readPath data (offset + 6) ((size - 6) / 2)
  return { scopeType, enumerationId, startBus, path }

def parseDeviceScopes (data : Bytes) : AcpiM (List DeviceScope) :=
  scopeFormat.walk data.length (fun offset => return (← index data (offset + 1)).toNat)
    (fun scopes offset size => return scopes ++ [← readScope data offset size])
    (data.length + 1) 0 []

def parseDrhd (data : Bytes) : AcpiM (Option DrhdUnit) := do
  if data.length < 16 then return none
  let flags ← index data 4
  let segment ← readU16 data 6
  let registerBase ← readU64 data 8
  let deviceScopes ← parseDeviceScopes (← slice data 16 data.length)
  return some { segment, registerBase, includePciAll := flags &&& 0x01 != 0, deviceScopes }

def parseRmrr (data : Bytes) : AcpiM (Option RmrrRegion) := do
  if data.length < 24 then return none
  let segment ← readU16 data 6
  let baseAddress ← readU64 data 8
  let limitAddress ← readU64 data 16
  let deviceScopes ← parseDeviceScopes (← slice data 24 data.length)
  return some { baseAddress, limitAddress, segment, deviceScopes }

def dmarTypeDrhd : UInt16 := 0
def dmarTypeRmrr : UInt16 := 1

def readStructure (table : Bytes) (info : IommuInfo) (offset size : Nat) : AcpiM IommuInfo := do
  let structType ← readU16 table offset
  if structType = dmarTypeDrhd then
    match ← parseDrhd (← slice table offset (offset + size)) with
    | some drhd => return { info with drhdUnits := info.drhdUnits ++ [drhd] }
    | none => return info
  else if structType = dmarTypeRmrr then
    match ← parseRmrr (← slice table offset (offset + size)) with
    | some rmrr => return { info with rmrrRegions := info.rmrrRegions ++ [rmrr] }
    | none => return info
  else return info

/-- The bytes of a table that the walkers are run on: its declared length is read first, and a
length that is not plausible ends the parsing. -/
def mapTable (memory : Bytes) : AcpiM (Option Bytes) := do
  let header ← slice memory 0 8
  let tableLength := leNat (header.part 4 4)
  if tableLength < 48 ∨ maxAcpiTableLen < tableLength then return none
  return some (← slice memory 0 tableLength)

def parseDmar (memory : Bytes) (info : IommuInfo) : AcpiM IommuInfo := do
  match ← mapTable memory with
  | none => return info
  | some table =>
    -- the address width and the flags only go to the log
    let _hostAddrWidth ← index table 36
    let _flags ← index table 37
    structureFormat.walk table.length (fun offset => readLe 2 table (offset + 2))
      (readStructure table) (table.length + 1) 48 { info with intelVtD := true }

/-! ### What the bytes say

Each parser is a function of the bytes, whatever they are. -/

def pairs : Bytes → List (UInt8 × UInt8)
  | device :: function :: rest => (device, function) :: pairs rest
  | _ => []

def scopeOf (r : Bytes) : DeviceScope where
  scopeType := r.getD 0 0
  enumerationId := r.getD 4 0
  startBus := r.getD 5 0
  path := pairs (r.drop 6)

def scopesOf (data : Bytes) : List DeviceScope :=
  (scopeFormat.records data).map scopeOf

def u16Of (b : Bytes) (i : Nat) : UInt16 := UInt16.ofNat (leNat (b.part i 2))

def u64Of (b : Bytes) (i : Nat) : UInt64 := UInt64.ofNat (leNat (b.part i 8))

def drhdOf (r : Bytes) : Option DrhdUnit :=
  if r.length < 16 then none
  else some
    { segment := u16Of r 6
      registerBase := u64Of r 8
      includePciAll := r.getD 4 0 &&& 0x01 != 0
      deviceScopes := scopesOf (r.drop 16) }

def rmrrOf (r : Bytes) : Option RmrrRegion :=
  if r.length < 24 then none
  else some
    { baseAddress := u64Of r 8
      limitAddress := u64Of r 16
      segment := u16Of r 6
      deviceScopes := scopesOf (r.drop 24) }

def unitsOf (r : Bytes) : List DrhdUnit :=
  if u16Of r 0 = dmarTypeDrhd then (drhdOf r).toList else []

def regionsOf (r : Bytes) : List RmrrRegion :=
  if u16Of r 0 = dmarTypeRmrr then (rmrrOf r).toList else []

section Parsers

variable {data table : Bytes}

lemma readU16_eq_ok {i : Nat} (h : i + 2 ≤ data.length) : readU16 data i = .ok (u16Of data i) := by
  rw [readU16, readLe_eq_ok h]
  rfl

lemma readU64_eq_ok {i : Nat} (h : i + 8 ≤ data.length) : readU64 data i = .ok (u64Of data i) := by
  rw [readU64, readLe_eq_ok h]
  rfl

lemma pairs_append_pair {b : Bytes} {device function : UInt8} (h : b.length % 2 = 0) :
    pairs (b ++ [device, function]) = pairs b ++ [(device, function)] := by
  fun_induction pairs b with
  | case1 device' function' rest ih =>
    have hrest : rest.length % 2 = 0 := by
      rw [length_cons, length_cons] at h
      omega
    rw [cons_append, cons_append, pairs, ih hrest, cons_append]
  | case2 b hb =>
    rcases b with _ | ⟨a, _ | ⟨a', b⟩⟩
    · rfl
    · exact absurd h Nat.one_ne_zero
    · exact absurd rfl (hb a a' b)

lemma pairs_take (b : Bytes) : pairs (b.take (2 * (b.length / 2))) = pairs b := by
  fun_induction pairs b with
  | case1 device function rest ih =>
    have hlen : 2 * ((device :: function :: rest).length / 2) = 2 * (rest.length / 2) + 2 := by
      rw [length_cons, length_cons]
      omega
    rw [hlen, take_succ_cons, take_succ_cons, pairs, ih]
  | case2 b hb =>
    rcases b with _ | ⟨a, _ | ⟨a', b⟩⟩
    · rfl
    · simp [pairs]
    · exact absurd rfl (hb a a' b)

lemma part_two {i : Nat} (h : i + 2 ≤ data.length) :
    data.part i 2 = [data.getD i 0, data.getD (i + 1) 0] := by
  have hlen : (data.part i 2).length = 2 := length_part h
  obtain ⟨a, a', ha⟩ := length_eq_two.mp hlen
  have h0 : (data.part i 2).getD 0 0 = data.getD i 0 := getD_part Nat.two_pos
  have h1 : (data.part i 2).getD 1 0 = data.getD (i + 1) 0 := getD_part Nat.one_lt_two
  rw [← h0, ← h1, ha]
  rfl

lemma readPath_eq_ok {start count : Nat} (h : start + 2 * count ≤ data.length) :
    readPath data start count = .ok (pairs (data.part start (2 * count))) := by
  induction count with
  | zero => rfl
  | succ count ih =>
    have hin : start + count * 2 + 1 < data.length := by omega
    have hlen : (data.part start (2 * count)).length = 2 * count := length_part (by omega)
    have hpart : data.part start (2 * (count + 1)) = data.part start (2 * count) ++
        [data.getD (start + count * 2) 0, data.getD (start + count * 2 + 1) 0] := by
      rw [Nat.mul_succ, part_add, Nat.mul_comm 2 count, part_two (by omega)]
    rw [hpart, pairs_append_pair (by omega), readPath, range_succ, foldlM_append]
    rw [readPath] at ih
    rw [ih (by omega), ok_bind, foldlM_cons, if_pos hin, index_eq_ok (by omega), index_eq_ok hin]
    rfl

lemma readScope_eq_ok {offset size : Nat} (hsize : 6 ≤ size) (h : offset + size ≤ data.length) :
    readScope data offset size = .ok (scopeOf (data.part offset size)) := by
  have hpath : pairs (data.part (offset + 6) (2 * ((size - 6) / 2))) =
      pairs ((data.part offset size).drop 6) := by
    rw [← pairs_take ((data.part offset size).drop 6), length_drop, length_part h]
    simp only [part, drop_take, drop_drop, take_take]
    rw [Nat.min_eq_left (by omega)]
  rw [readScope, index_eq_ok (by omega), ok_bind, index_eq_ok (by omega), ok_bind,
    index_eq_ok (by omega), ok_bind, readPath_eq_ok (by omega), ok_bind, hpath, scopeOf,
    getD_part (by omega), getD_part (by omega), getD_part (by omega)]
  rfl

lemma parseDeviceScopes_eq_ok (data : Bytes) : parseDeviceScopes data = .ok (scopesOf data) := by
  refine (Format.walk_eq_foldl (f := fun scopes r => scopes ++ [scopeOf r]) (fun i hi => ?_)
    (fun scopes i n hn hi => ?_) (by omega)).trans ?_
  · have hi : i + 6 ≤ data.length := hi
    rw [index_eq_ok (by omega)]
    simp [scopeFormat]
  · rw [readScope_eq_ok hn hi]
    rfl
  · rw [foldl_append_eq_append, nil_append, ← flatMap_def, ← map_eq_flatMap]
    rfl

lemma parseDrhd_eq_ok (data : Bytes) : parseDrhd data = .ok (drhdOf data) := by
  unfold parseDrhd drhdOf
  split_ifs with h
  · rfl
  · rw [index_eq_ok (by omega), ok_bind, readU16_eq_ok (by omega), ok_bind,
      readU64_eq_ok (by omega), ok_bind, slice_from_eq_ok (by omega), ok_bind,
      parseDeviceScopes_eq_ok, ok_bind]
    rfl

lemma parseRmrr_eq_ok (data : Bytes) : parseRmrr data = .ok (rmrrOf data) := by
  unfold parseRmrr rmrrOf
  split_ifs with h
  · rfl
  · rw [readU16_eq_ok (by omega), ok_bind, readU64_eq_ok (by omega), ok_bind,
      readU64_eq_ok (by omega), ok_bind, slice_from_eq_ok (by omega), ok_bind,
      parseDeviceScopes_eq_ok, ok_bind]
    rfl

def addStructure (info : IommuInfo) (r : Bytes) : IommuInfo :=
  { info with
    drhdUnits := info.drhdUnits ++ unitsOf r
    rmrrRegions := info.rmrrRegions ++ regionsOf r }

lemma foldl_addStructure (rs : List Bytes) (info : IommuInfo) :
    rs.foldl addStructure info =
      { info with
        drhdUnits := info.drhdUnits ++ rs.flatMap unitsOf
        rmrrRegions := info.rmrrRegions ++ rs.flatMap regionsOf } := by
  induction rs generalizing info with
  | nil => simp
  | cons r rs ih => rw [foldl_cons, ih]; simp [addStructure]

lemma u16Of_part {i n k : Nat} (h : k + 2 ≤ n) :
    u16Of (table.part i n) k = u16Of table (i + k) := by
  rw [u16Of, part_part h, u16Of]

lemma readStructure_eq_ok {info : IommuInfo} {offset size : Nat} (hsize : 4 ≤ size)
    (h : offset + size ≤ table.length) :
    readStructure table info offset size = .ok (addStructure info (table.part offset size)) := by
  have htype : u16Of (table.part offset size) 0 = u16Of table offset := u16Of_part (by omega)
  have hne : dmarTypeDrhd ≠ dmarTypeRmrr := by decide
  rw [readStructure, readU16_eq_ok (by omega), ok_bind, slice_eq_ok h, ok_bind, ok_bind,
    parseDrhd_eq_ok, parseRmrr_eq_ok, ok_bind, ok_bind, addStructure, unitsOf, regionsOf, htype]
  by_cases hdrhd : u16Of table offset = dmarTypeDrhd
  · rw [if_pos hdrhd, if_pos hdrhd, if_neg (hdrhd ▸ hne)]
    cases drhdOf (table.part offset size) <;> simp <;> rfl
  · rw [if_neg hdrhd, if_neg hdrhd]
    by_cases hrmrr : u16Of table offset = dmarTypeRmrr
    · rw [if_pos hrmrr, if_pos hrmrr]
      cases rmrrOf (table.part offset size) <;> simp <;> rfl
    · rw [if_neg hrmrr, if_neg hrmrr]
      simp
      rfl

end Parsers

/-! ### Tables -/

/-- The bytes are those of a table of the length that it declares. -/
structure Declared (memory : Bytes) : Prop where
  header : 8 ≤ memory.length
  length : leNat (memory.part 4 4) = memory.length

/-- A table with the header of 48 bytes that DMAR and IVRS have. -/
structure Sdt where
  signature : Bytes
  signature_length : signature.length = 4
  /-- What the header has behind the length. -/
  rest : Bytes
  rest_length : rest.length = 40
  body : Bytes
  fits : 48 + body.length < 2 ^ 32

namespace Sdt

variable (t : Sdt)

def length : Nat := 48 + t.body.length

def header : Bytes := t.signature ++ leBytes 4 t.length ++ t.rest

def bytes : Bytes := t.header ++ t.body

lemma length_header : t.header.length = 48 := by
  simp [header, t.signature_length, t.rest_length]

lemma length_bytes : t.bytes.length = t.length := by
  rw [bytes, length_append, length_header, length]

lemma drop_bytes : t.bytes.drop 48 = t.body := by
  rw [bytes, ← t.length_header, drop_left]

lemma declared : Declared t.bytes where
  header := by
    rw [length_bytes, length]
    omega
  length := by
    have hpart : t.bytes.part 4 4 = leBytes 4 t.length := by
      rw [part, bytes, header, append_assoc, append_assoc, ← t.signature_length,
        drop_left, t.signature_length]
      exact take_left' (length_leBytes 4 t.length)
    rw [hpart, leNat_leBytes, length_bytes]
    exact Nat.mod_eq_of_lt t.fits

end Sdt

section Tables

variable {memory : Bytes}

lemma mapTable_eq_none (h : Declared memory)
    (hlen : memory.length < 48 ∨ maxAcpiTableLen < memory.length) :
    mapTable memory = .ok none := by
  rw [mapTable, slice_to_eq_ok h.header, ok_bind, part_part (by decide), h.length, if_pos hlen]
  rfl

lemma mapTable_eq_some (h : Declared memory) (hmin : 48 ≤ memory.length)
    (hmax : memory.length ≤ maxAcpiTableLen) : mapTable memory = .ok (some memory) := by
  rw [mapTable, slice_to_eq_ok h.header, ok_bind, part_part (by decide), h.length,
    if_neg (by omega), slice_from_eq_ok (Nat.zero_le _)]
  rfl

lemma parseDmar_eq_ok (h : Declared memory) (info : IommuInfo) :
    parseDmar memory info = .ok
      (if memory.length < 48 ∨ maxAcpiTableLen < memory.length then info
      else
        (structureFormat.records (memory.drop 48)).foldl addStructure
          { info with intelVtD := true }) := by
  split_ifs with hlen
  · rw [parseDmar, mapTable_eq_none h hlen]
    rfl
  · rw [parseDmar, mapTable_eq_some h (by omega) (by omega), ok_bind]
    dsimp only
    rw [index_eq_ok (by omega), ok_bind, index_eq_ok (by omega), ok_bind]
    refine Format.walk_eq_foldl (fun i hi => ?_) (fun info i n hn hi => ?_) (by omega)
    · have hi : i + 4 ≤ memory.length := hi
      rw [readLe_eq_ok (by omega)]
      simp only [structureFormat, part_drop]
    · exact readStructure_eq_ok hn hi

end Tables

/-! ### Well-formed DMAR tables -/

/-- A device scope as it is written: with its reserved bytes, and short enough for its size. -/
structure Scope extends DeviceScope where
  reserved : UInt8 × UInt8
  fits : 6 + 2 * path.length < 2 ^ 8

def Scope.bytes (s : Scope) : Bytes :=
  [s.scopeType, UInt8.ofNat (6 + 2 * s.path.length), s.reserved.1, s.reserved.2, s.enumerationId,
    s.startBus] ++ s.path.flatMap fun p => [p.1, p.2]

/-- What a remapping structure has behind its type and its size. -/
inductive Remapping where
  | drhd (flags size : UInt8) (segment : UInt16) (registerBase : UInt64) (scopes : List Scope)
  | rmrr (reserved : UInt8 × UInt8) (segment : UInt16) (baseAddress limitAddress : UInt64)
      (scopes : List Scope)
  | other (structType : UInt16) (payload : Bytes) (hdrhd : structType ≠ dmarTypeDrhd)
      (hrmrr : structType ≠ dmarTypeRmrr)

namespace Remapping

def structType : Remapping → UInt16
  | drhd .. => dmarTypeDrhd
  | rmrr .. => dmarTypeRmrr
  | other structType .. => structType

def payload : Remapping → Bytes
  | drhd flags size segment registerBase scopes =>
    [flags, size] ++ leBytes 2 segment.toNat ++ leBytes 8 registerBase.toNat ++
      scopes.flatMap Scope.bytes
  | rmrr reserved segment baseAddress limitAddress scopes =>
    [reserved.1, reserved.2] ++ leBytes 2 segment.toNat ++ leBytes 8 baseAddress.toNat ++
      leBytes 8 limitAddress.toNat ++ scopes.flatMap Scope.bytes
  | other _ payload .. => payload

def bytes (r : Remapping) : Bytes :=
  leBytes 2 r.structType.toNat ++ leBytes 2 (4 + r.payload.length) ++ r.payload

def units : Remapping → List DrhdUnit
  | drhd flags _ segment registerBase scopes =>
    [{ segment, registerBase, includePciAll := flags &&& 0x01 != 0,
       deviceScopes := scopes.map Scope.toDeviceScope }]
  | _ => []

def regions : Remapping → List RmrrRegion
  | rmrr _ segment baseAddress limitAddress scopes =>
    [{ baseAddress, limitAddress, segment, deviceScopes := scopes.map Scope.toDeviceScope }]
  | _ => []

end Remapping

/-- A DMAR table: a header, and remapping structures that are short enough for their sizes. -/
structure DmarTable extends Sdt where
  structures : List Remapping
  structures_fit : ∀ r ∈ structures, 4 + r.payload.length < 2 ^ 16
  body_eq : body = structures.flatMap Remapping.bytes

def DmarTable.units (t : DmarTable) : List DrhdUnit :=
  t.structures.flatMap Remapping.units

def DmarTable.regions (t : DmarTable) : List RmrrRegion :=
  t.structures.flatMap Remapping.regions

section Written

lemma ofNat_leNat_two (n : UInt16) : UInt16.ofNat (leNat (leBytes 2 n.toNat)) = n := by
  have hn : n.toNat < 256 ^ 2 := n.toNat_lt
  rw [leNat_leBytes, Nat.mod_eq_of_lt hn, UInt16.ofNat_toNat]

lemma ofNat_leNat_eight (n : UInt64) : UInt64.ofNat (leNat (leBytes 8 n.toNat)) = n := by
  have hn : n.toNat < 256 ^ 8 := n.toNat_lt
  rw [leNat_leBytes, Nat.mod_eq_of_lt hn, UInt64.ofNat_toNat]

lemma pairs_flatMap (path : List (UInt8 × UInt8)) :
    pairs (path.flatMap fun p => [p.1, p.2]) = path := by
  induction path with
  | nil => rfl
  | cons p path ih => exact congrArg (p :: ·) ih

lemma Scope.length_bytes (s : Scope) : s.bytes.length = 6 + 2 * s.path.length := by
  simp [Scope.bytes, length_flatMap]
  omega

lemma Scope.proper (s : Scope) : scopeFormat.Proper s.bytes where
  head_le := by
    rw [s.length_bytes]
    exact Nat.le_add_right 6 _
  size_eq b := by
    rw [s.length_bytes]
    exact Nat.mod_eq_of_lt s.fits

lemma scopeOf_bytes (s : Scope) : scopeOf s.bytes = s.toDeviceScope := by
  have hpath : pairs (s.bytes.drop 6) = s.path := pairs_flatMap s.path
  rw [scopeOf, hpath]
  rfl

lemma scopesOf_flatMap (scopes : List Scope) :
    scopesOf (scopes.flatMap Scope.bytes) = scopes.map Scope.toDeviceScope := by
  rw [scopesOf, Format.records_flatMap Scope.proper, map_map]
  exact map_congr_left fun s _ => scopeOf_bytes s

lemma Remapping.length_bytes (r : Remapping) : r.bytes.length = 4 + r.payload.length := by
  simp [Remapping.bytes]
  omega

lemma Remapping.proper {r : Remapping} (h : 4 + r.payload.length < 2 ^ 16) :
    structureFormat.Proper r.bytes where
  head_le := by
    rw [r.length_bytes]
    exact Nat.le_add_right 4 _
  size_eq b := by
    have hpart : (r.bytes ++ b).part 2 2 = leBytes 2 (4 + r.payload.length) := rfl
    change leNat ((r.bytes ++ b).part 2 2) = _
    rw [hpart, leNat_leBytes, r.length_bytes]
    exact Nat.mod_eq_of_lt h

lemma u16Of_bytes (r : Remapping) : u16Of r.bytes 0 = r.structType :=
  ofNat_leNat_two r.structType

lemma drhdOf_bytes (flags size : UInt8) (segment : UInt16) (registerBase : UInt64)
    (scopes : List Scope) :
    (drhdOf (Remapping.drhd flags size segment registerBase scopes).bytes).toList =
      (Remapping.drhd flags size segment registerBase scopes).units := by
  set r := Remapping.drhd flags size segment registerBase scopes with hr
  have hlen : ¬ r.bytes.length < 16 := by
    rw [r.length_bytes, hr]
    simp only [Remapping.payload, length_append, length_cons, length_nil, length_leBytes]
    omega
  have hsegment : u16Of r.bytes 6 = segment := ofNat_leNat_two segment
  have hbase : u64Of r.bytes 8 = registerBase := ofNat_leNat_eight registerBase
  have hflags : r.bytes.getD 4 0 = flags := rfl
  have hscopes : scopesOf (r.bytes.drop 16) = scopes.map Scope.toDeviceScope :=
    scopesOf_flatMap scopes
  rw [drhdOf, if_neg hlen, hsegment, hbase, hflags, hscopes]
  rfl

lemma rmrrOf_bytes (reserved : UInt8 × UInt8) (segment : UInt16)
    (baseAddress limitAddress : UInt64) (scopes : List Scope) :
    (rmrrOf (Remapping.rmrr reserved segment baseAddress limitAddress scopes).bytes).toList =
      (Remapping.rmrr reserved segment baseAddress limitAddress scopes).regions := by
  set r := Remapping.rmrr reserved segment baseAddress limitAddress scopes with hr
  have hlen : ¬ r.bytes.length < 24 := by
    rw [r.length_bytes, hr]
    simp only [Remapping.payload, length_append, length_cons, length_nil, length_leBytes]
    omega
  have hsegment : u16Of r.bytes 6 = segment := ofNat_leNat_two segment
  have hbase : u64Of r.bytes 8 = baseAddress := ofNat_leNat_eight baseAddress
  have hlimit : u64Of r.bytes 16 = limitAddress := ofNat_leNat_eight limitAddress
  have hscopes : scopesOf (r.bytes.drop 24) = scopes.map Scope.toDeviceScope :=
    scopesOf_flatMap scopes
  rw [rmrrOf, if_neg hlen, hsegment, hbase, hlimit, hscopes]
  rfl

lemma unitsOf_bytes (r : Remapping) : unitsOf r.bytes = r.units := by
  rw [unitsOf, u16Of_bytes]
  cases r with
  | drhd flags size segment registerBase scopes =>
    exact (if_pos rfl).trans (drhdOf_bytes flags size segment registerBase scopes)
  | rmrr => exact if_neg (show dmarTypeRmrr ≠ dmarTypeDrhd by decide)
  | other structType payload hdrhd => exact if_neg hdrhd

lemma regionsOf_bytes (r : Remapping) : regionsOf r.bytes = r.regions := by
  rw [regionsOf, u16Of_bytes]
  cases r with
  | drhd => exact if_neg (show dmarTypeDrhd ≠ dmarTypeRmrr by decide)
  | rmrr reserved segment baseAddress limitAddress scopes =>
    exact (if_pos rfl).trans (rmrrOf_bytes reserved segment baseAddress limitAddress scopes)
  | other structType payload hdrhd hrmrr => exact if_neg hrmrr

variable (t : DmarTable)

lemma records_dmar :
    structureFormat.records (t.bytes.drop 48) = t.structures.map Remapping.bytes := by
  rw [t.drop_bytes, t.body_eq, flatMap_def]
  refine Format.records_flatten fun r hr => ?_
  obtain ⟨r', hr', rfl⟩ := mem_map.mp hr
  exact Remapping.proper (t.structures_fit r' hr')

def DmarTable.added (info : IommuInfo) : IommuInfo :=
  { info with
    intelVtD := true
    drhdUnits := info.drhdUnits ++ t.units
    rmrrRegions := info.rmrrRegions ++ t.regions }

lemma parseDmar_of_le (info : IommuInfo) (h : t.length ≤ maxAcpiTableLen) :
    parseDmar t.bytes info = .ok (t.added info) := by
  have hlen : ¬ (t.bytes.length < 48 ∨ maxAcpiTableLen < t.bytes.length) := by
    rw [t.length_bytes, Sdt.length] at *
    omega
  rw [parseDmar_eq_ok t.declared, if_neg hlen, records_dmar, foldl_addStructure,
    flatMap_map, flatMap_map]
  simp only [unitsOf_bytes, regionsOf_bytes]
  rfl

lemma parseDmar_of_gt (info : IommuInfo) (h : maxAcpiTableLen < t.length) :
    parseDmar t.bytes info = .ok info := by
  rw [parseDmar_eq_ok t.declared, if_pos (.inr (t.length_bytes ▸ h))]

end Written

/-- The units and regions of any table of at most one MiB are listed in order with their scopes, and
a larger table is ignored. Any bytes of the declared length are parsed, and nothing outside of them
is read. -/
theorem parseDmar_spec :
    (∀ (t : DmarTable) (info : IommuInfo), t.length ≤ maxAcpiTableLen →
      parseDmar t.bytes info = .ok (t.added info)) ∧
    (∀ (t : DmarTable) (info : IommuInfo), maxAcpiTableLen < t.length →
      parseDmar t.bytes info = .ok info) ∧
    ∀ (memory : Bytes) (info : IommuInfo), Declared memory →
      ∃ info', parseDmar memory info = .ok info' :=
  ⟨parseDmar_of_le, parseDmar_of_gt, fun _ info h => ⟨_, parseDmar_eq_ok h info⟩⟩

lemma length_flatMap_bytes (structures : List Remapping) :
    (structures.flatMap Remapping.bytes).length =
      (structures.map fun r => 4 + r.payload.length).sum := by
  simp only [length_flatMap, Remapping.length_bytes]

/-- The table of given structures, with nothing in its header but the signature and the length. -/
def dmarTable (structures : List Remapping)
    (hfit : ∀ r ∈ structures, 4 + r.payload.length < 2 ^ 16)
    (hlen : 48 + (structures.map fun r => 4 + r.payload.length).sum < 2 ^ 32) : DmarTable where
  signature := [0x44, 0x4D, 0x41, 0x52]
  signature_length := rfl
  rest := replicate 40 0
  rest_length := rfl
  structures := structures
  structures_fit := hfit
  body := structures.flatMap Remapping.bytes
  body_eq := rfl
  fits := length_flatMap_bytes structures ▸ hlen

/-- A unit with a bridge and a device behind it, a structure of another type, and a region. -/
def smallTable : DmarTable :=
  dmarTable
    [.drhd 0 0 0 0xFED90000 [⟨⟨1, 0, 0, [(0x1C, 0), (0, 1)]⟩, (0, 0), by decide⟩],
      .other 2 [0, 0, 0, 0] (by decide) (by decide),
      .rmrr (0, 0) 1 0x1000 0x1FFF [⟨⟨1, 0, 0, [(0x14, 0)]⟩, (0, 0), by decide⟩]]
    (by decide) (by decide)

def filler : Remapping :=
  .other 2 (replicate 65531 0) (by decide) (by decide)

lemma length_filler : 4 + filler.payload.length = 65535 := by
  rw [filler, Remapping.payload, length_replicate]

/-- A unit, and seventeen structures of the greatest length behind it. -/
def largeTable : DmarTable :=
  dmarTable (.drhd 0 0 0 0xFED90000 [] :: replicate 17 filler)
    (fun r hr => by
      rcases mem_cons.mp hr with rfl | hr
      · decide
      · rw [eq_of_mem_replicate hr, length_filler]
        decide)
    (by
      rw [map_cons, map_replicate, length_filler]
      decide)

lemma lt_length_largeTable : maxAcpiTableLen < largeTable.length := by
  have hbody : largeTable.body.length =
      ((Remapping.drhd 0 0 0 0xFED90000 [] :: replicate 17 filler).map
        fun r => 4 + r.payload.length).sum := length_flatMap_bytes _
  rw [Sdt.length, hbody, map_cons, map_replicate, length_filler]
  decide

theorem parseDmar_spec_smallTable :
    smallTable.length ≤ maxAcpiTableLen ∧ maxAcpiTableLen < largeTable.length ∧
    Declared smallTable.bytes ∧
    parseDmar smallTable.bytes {} = .ok
      { intelVtD := true
        drhdUnits := [⟨0, 0xFED90000, false, [⟨1, 0, 0, [(0x1C, 0), (0, 1)]⟩]⟩]
        rmrrRegions := [⟨0x1000, 0x1FFF, 1, [⟨1, 0, 0, [(0x14, 0)]⟩]⟩] } ∧
    parseDmar largeTable.bytes {} = .ok {} ∧
    ∃ info', parseDmar smallTable.bytes {} = .ok info' := by
  have hlen : smallTable.length ≤ maxAcpiTableLen := by decide
  exact ⟨hlen, lt_length_largeTable, smallTable.declared, parseDmar_spec.1 smallTable {} hlen,
    parseDmar_spec.2.1 largeTable {} lt_length_largeTable,
    parseDmar_spec.2.2 smallTable.bytes {} smallTable.declared⟩

/-- A table of more than one MiB is taken for corrupt, and its unit is not listed. -/
theorem parseDmar_largeTable :
    parseDmar largeTable.bytes {} = .ok {} ∧ largeTable.units = [⟨0, 0xFED90000, false, []⟩] :=
  ⟨parseDmar_of_gt largeTable {} lt_length_largeTable, rfl⟩

end LamBoot.Acpi
