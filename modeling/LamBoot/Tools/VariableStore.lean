import LamBoot.Tools.Monitor

/-!
# What the monitor finds in a variable store

The image of an authenticated variable store, record by record, and the values that
`extract_uefi_vars` takes from it.
-/

namespace LamBoot.Monitor

open List Bytes Text Search Option

/-! ### The store -/

/-- A variable of an authenticated variable store. -/
structure VariableRecord where
  state : UInt8
  reserved : UInt8
  attributes : Nat
  monotonicCount : Nat
  timeStamp : Bytes
  pubKeyIndex : Nat
  vendor : Bytes
  name : List UInt16
  data : Bytes
  padding : Bytes
  timeStamp_length : timeStamp.length = 16
  vendor_length : vendor.length = 16
  zero_notMem_name : 0 ∉ name
  name_fits : 2 * (name.length + 1) < 2 ^ 32
  data_fits : data.length < 2 ^ 32
  -- the next record is aligned to four bytes
  padding_length : padding.length = (4 - (2 * (name.length + 1) + data.length) % 4) % 4

namespace VariableRecord

/-- The header of a record up to the GUID: the start id, the state, what authenticates the record,
and the sizes of the name and of the data. -/
def head (r : VariableRecord) : Bytes :=
  leBytes 2 0x55AA ++ [r.state, r.reserved] ++ leBytes 4 r.attributes ++
    leBytes 8 r.monotonicCount ++ r.timeStamp ++ leBytes 4 r.pubKeyIndex ++
    leBytes 4 (2 * (r.name.length + 1)) ++ leBytes 4 r.data.length

def encode (r : VariableRecord) : Bytes :=
  r.head ++ r.vendor ++ r.name.flatMap le16 ++ [0, 0] ++ r.data ++ r.padding

def added : UInt8 := 0x3F

def IsLiveOf (r : VariableRecord) (v : Variable) : Prop :=
  r.state = added ∧ r.vendor = lambootGuid ∧ r.name = utf16 v.name
deriving Decidable

lemma length_head (r : VariableRecord) : r.head.length = 44 := by
  simp [head, r.timeStamp_length]

end VariableRecord

/-- An image with a variable store: what comes before the records, the records, and what comes
behind them. -/
structure VariableStore where
  header : Bytes
  records : List VariableRecord
  rest : Bytes
  header_aligned : header.length % 4 = 0

namespace VariableStore

def image (store : VariableStore) : Bytes :=
  store.header ++ store.records.flatMap VariableRecord.encode ++ store.rest

/-- Each variable has one live record. -/
def OneLive (store : VariableStore) : Prop :=
  ∀ v ∈ lambootVariables, (store.records.filter fun r => r.IsLiveOf v).length = 1
deriving Decidable

def namePos (store : VariableStore) (before : List VariableRecord) : Nat :=
  store.header.length + (before.flatMap VariableRecord.encode).length + 60

end VariableStore

/-! ### Values -/

def decode : VarType → Bytes → Option Value
  | .u8, [b] => some (.u8 b)
  | .u8, _ => none
  | .u32, raw => if raw.length = 4 then some (.u32 (leNat raw)) else none
  | .utf8, raw => some (.utf8 raw)
  | .timestamp, raw => if raw.length = 8 then some (.timestamp (formatTimestamp raw)) else none

/-- At the start of `rest`, the bytes `raw` are what is read as a value. -/
def Stands : VarType → Bytes → Bytes → Prop
  | .u8, raw, rest => raw.length = 1 ∧ raw <+: rest
  | .u32, raw, rest => raw.length = 4 ∧ raw <+: rest
  | .utf8, raw, rest => raw ≠ [] ∧ raw.length < 128 ∧ 0 ∉ raw ∧ raw ++ [0] <+: rest
  | .timestamp, raw, rest => raw.length = 8 ∧ raw <+: rest ∧ 2000 < year raw

/-- Data that is read back when a byte `next` follows: it has the length of its type, a string is
not empty, below 128 bytes and NUL-terminated, and a timestamp is after 2000. -/
def Fits : VarType → Bytes → Option UInt8 → Prop
  | .u8, raw, _ => raw.length = 1
  | .u32, raw, _ => raw.length = 4
  | .utf8, raw, next => raw ≠ [] ∧ raw.length < 128 ∧ 0 ∉ raw ∧ next = some 0
  | .timestamp, raw, _ => raw.length = 8 ∧ 2000 < year raw

variable {data raw raw' rest : Bytes} {off : Nat} {type : VarType} {v : Variable} {value : Value}

lemma stands_append_iff : Stands type raw (raw ++ rest) ↔ Fits type raw rest.head? := by
  cases type with
  | u8 => simp [Stands, Fits]
  | u32 => simp [Stands, Fits]
  | timestamp => simp [Stands, Fits]
  | utf8 =>
    have hnext : [(0 : UInt8)] <+: rest ↔ rest.head? = some 0 := by
      cases rest with
      | nil => simp
      | cons b rest => simp [eq_comm]
    simp only [Stands, Fits, prefix_append_right_inj, hnext]

lemma Stands.exists_decode (h : Stands type raw rest) : ∃ value, decode type raw = some value := by
  cases type with
  | u8 =>
    obtain ⟨b, rfl⟩ := length_eq_one_iff.mp h.1
    exact ⟨_, rfl⟩
  | u32 => exact ⟨_, if_pos h.1⟩
  | utf8 => exact ⟨_, rfl⟩
  | timestamp => exact ⟨_, if_pos h.1⟩

lemma Stands.ne_nil (h : Stands type raw rest) : rest ≠ [] := by
  rintro rfl
  cases type with
  | utf8 => simp [Stands] at h
  | _ =>
    have hlen := h.1
    simp [Stands] at h
    simp [h] at hlen

lemma length_eq_and_prefix_iff {k : Nat} (hk : 0 < k) :
    raw.length = k ∧ raw <+: data.drop off ↔ off + k ≤ data.length ∧ raw = data.part off k := by
  constructor
  · rintro ⟨rfl, h⟩
    have hlen := h.length_le
    rw [length_drop] at hlen
    exact ⟨by omega, prefix_iff_eq_take.mp h⟩
  · rintro ⟨hlen, rfl⟩
    exact ⟨length_part hlen, take_prefix ..⟩

lemma find_nul_eq_some_iff {len : Nat} : find [0] (data.part off 128) = some len ↔
    ∃ raw : Bytes, raw.length = len ∧ len < 128 ∧ 0 ∉ raw ∧ raw ++ [0] <+: data.drop off := by
  rw [find_singleton_eq_some_iff]
  constructor
  · rintro ⟨raw, u, hpart, hraw, rfl⟩
    have hprefix : raw ++ [0] <+: (data.drop off).take 128 := ⟨u, by rw [← part, hpart]; simp⟩
    obtain ⟨hdrop, hlen⟩ := prefix_take_iff.mp hprefix
    rw [length_append, length_singleton] at hlen
    exact ⟨raw, rfl, by omega, hraw, hdrop⟩
  · rintro ⟨raw, rfl, hlt, hraw, hdrop⟩
    have hlen : (raw ++ [0]).length ≤ 128 := by
      rw [length_append, length_singleton]
      omega
    obtain ⟨u, hu⟩ := prefix_take_iff.mpr ⟨hdrop, hlen⟩
    exact ⟨raw, u, by rw [part, ← hu]; simp, hraw, rfl⟩

lemma readValue_utf8_eq_some_iff : readValue data off .utf8 = some value ↔
    ∃ raw, Stands .utf8 raw (data.drop off) ∧ value = .utf8 raw := by
  have hpart : ∀ {raw : Bytes}, raw ++ [0] <+: data.drop off → data.part off raw.length = raw :=
    fun {raw} h => (prefix_iff_eq_take.mp ((prefix_append raw [0]).trans h)).symm
  simp only [readValue]
  constructor
  · intro h
    split_ifs at h with hguard
    split at h
    · next len hfind =>
      split_ifs at h with hpos
      obtain ⟨raw, rfl, hlt, hraw, hdrop⟩ := find_nul_eq_some_iff.mp hfind
      rw [hpart hdrop, some.injEq] at h
      exact ⟨raw, ⟨length_pos_iff.mp hpos, hlt, hraw, hdrop⟩, h.symm⟩
    · cases h
  · rintro ⟨raw, ⟨hne, hlt, hraw, hdrop⟩, rfl⟩
    have hpos := length_pos_iff.mpr hne
    have hlen := hdrop.length_le
    simp only [length_append, length_singleton, length_drop] at hlen
    rw [if_pos (by omega), find_nul_eq_some_iff.mpr ⟨raw, rfl, hlt, hraw, hdrop⟩]
    simp only [if_pos hpos, hpart hdrop]

lemma readValue_eq_some_iff : readValue data off type = some value ↔
    ∃ raw, Stands type raw (data.drop off) ∧ decode type raw = some value := by
  cases type with
  | u8 =>
    rw [readValue, ← head?_drop]
    cases data.drop off with
    | nil => simp [Stands, length_eq_one_iff]
    | cons b rest => simp [Stands, length_eq_one_iff, decode]
  | u32 =>
    simp only [readValue, Stands, length_eq_and_prefix_iff (k := 4) (by decide)]
    constructor
    · intro h
      split_ifs at h with hlen
      exact ⟨_, ⟨hlen, rfl⟩, by rw [decode, if_pos (length_part hlen), h]⟩
    · rintro ⟨raw, ⟨hlen, rfl⟩, hdecode⟩
      rw [decode, if_pos (length_part hlen)] at hdecode
      rw [if_pos hlen, hdecode]
  | utf8 =>
    rw [readValue_utf8_eq_some_iff]
    simp only [decode, some.injEq, eq_comm]
  | timestamp =>
    simp only [readValue, Stands, ← and_assoc, length_eq_and_prefix_iff (k := 8) (by decide)]
    constructor
    · intro h
      split_ifs at h with hlen hyear
      exact ⟨_, ⟨⟨hlen, rfl⟩, hyear⟩, by rw [decode, if_pos (length_part hlen), h]⟩
    · rintro ⟨raw, ⟨⟨hlen, rfl⟩, hyear⟩, hdecode⟩
      rw [decode, if_pos (length_part hlen)] at hdecode
      rw [if_pos hlen, if_pos hyear, hdecode]

lemma Stands.eq_of_decode_eq (h : Stands type raw' (raw ++ rest))
    (hdecode : decode type raw' = decode type raw) : raw' = raw := by
  have heq : raw'.length = raw.length → raw' <+: raw ++ rest → raw' = raw := by
    intro hlen hprefix
    rw [prefix_iff_eq_take.mp hprefix, hlen, take_left]
  cases type with
  | u8 =>
    obtain ⟨b, rfl⟩ := length_eq_one_iff.mp h.1
    cases raw with
    | nil => cases hdecode
    | cons c raw =>
      cases raw with
      | nil => exact heq rfl h.2
      | cons d raw => cases hdecode
  | u32 =>
    rw [decode, decode, if_pos h.1] at hdecode
    split_ifs at hdecode with hlen
    exact heq (h.1.trans hlen.symm) h.2
  | utf8 => exact Value.utf8.inj (some.inj hdecode)
  | timestamp =>
    rw [decode, decode, if_pos h.1] at hdecode
    split_ifs at hdecode with hlen
    exact heq (h.1.trans hlen.symm) h.2.1

lemma valueNear_eq_some_iff {pos : Nat} : valueNear data v pos = some value ↔
    ∃ namePos, nameNear data v pos = some namePos ∧
      ∃ raw, Stands v.type raw (data.drop (v.valueOffset namePos)) ∧
        decode v.type raw = some value := by
  unfold valueNear
  cases nameNear data v pos with
  | none => simp
  | some namePos =>
    simp only [some.injEq, exists_eq_left', ← readValue_eq_some_iff]
    split_ifs with hend
    · -- nothing stands behind the end
      refine ⟨fun h => (nomatch h), fun h => ?_⟩
      obtain ⟨raw, hstands, -⟩ := readValue_eq_some_iff.mp h
      exact absurd (drop_eq_nil_of_le hend) hstands.ne_nil
    · exact Iff.rfl

/-! ### The record of a variable -/

/-- The value that the bytes decode to is returned. -/
def Returns (data : Bytes) (v : Variable) (raw : Bytes) : Prop :=
  ∃ value, decode v.type raw = some value ∧ extractUefiVars data v.name = some value

/-- The last time that a value stands behind the first name near the GUID, it is `raw`. -/
def LastStanding (data : Bytes) (v : Variable) (raw : Bytes) : Prop :=
  ∃ earlier pos later namePos, hits data = earlier ++ pos :: later ∧
    nameNear data v pos = some namePos ∧
    Stands v.type raw (data.drop (v.valueOffset namePos)) ∧
    ∀ q ∈ later, ∀ p, nameNear data v q = some p →
      ∀ raw', ¬ Stands v.type raw' (data.drop (v.valueOffset p))

/-- The last time that there is the name near the GUID, the first one is at `namePos`. -/
def LastNear (data : Bytes) (v : Variable) (namePos : Nat) : Prop :=
  ∃ earlier pos later, hits data = earlier ++ pos :: later ∧
    nameNear data v pos = some namePos ∧ ∀ q ∈ later, nameNear data v q = none

/-- Whenever there is the name near the GUID, the first one is at `namePos`. -/
def AlwaysNear (data : Bytes) (v : Variable) (namePos : Nat) : Prop :=
  ∀ pos ∈ hits data, ∀ p, nameNear data v pos = some p → p = namePos

lemma extractUefiVars_eq_some_iff (hv : v ∈ lambootVariables) :
    extractUefiVars data v.name = some value ↔
      ∃ raw, LastStanding data v raw ∧ decode v.type raw = some value := by
  rw [extractUefiVars_eq hv, getLast?_filterMap, findSome?_eq_some_iff]
  constructor
  · rintro ⟨later, pos, earlier, hhits, hpos, hlater⟩
    obtain ⟨namePos, hname, raw, hstands, hdecode⟩ := valueNear_eq_some_iff.mp hpos
    refine ⟨raw, ⟨earlier.reverse, pos, later.reverse, namePos, ?_, hname, hstands, ?_⟩, hdecode⟩
    · rw [← reverse_reverse (hits data), hhits]
      simp
    · intro q hq p hp raw' hstands'
      obtain ⟨value', hvalue'⟩ := hstands'.exists_decode
      have hsome := valueNear_eq_some_iff.mpr ⟨p, hp, raw', hstands', hvalue'⟩
      rw [hlater q (mem_reverse.mp hq)] at hsome
      cases hsome
  · rintro ⟨raw, ⟨earlier, pos, later, namePos, hhits, hname, hstands, hlater⟩, hdecode⟩
    refine ⟨later.reverse, pos, earlier.reverse, ?_, ?_, ?_⟩
    · rw [hhits]
      simp
    · exact valueNear_eq_some_iff.mpr ⟨namePos, hname, raw, hstands, hdecode⟩
    · intro q hq
      cases hnear : valueNear data v q with
      | none => rfl
      | some value' =>
        obtain ⟨p, hp, raw', hstands', -⟩ := valueNear_eq_some_iff.mp hnear
        exact absurd hstands' (hlater q (mem_reverse.mp hq) p hp raw')

lemma returns_iff (hv : v ∈ lambootVariables) : Returns data v raw ↔
    ∃ raw', LastStanding data v raw' ∧ decode v.type raw' = decode v.type raw := by
  simp only [Returns, extractUefiVars_eq_some_iff hv]
  constructor
  · rintro ⟨value, hvalue, raw', hlast, hdecode⟩
    exact ⟨raw', hlast, hdecode.trans hvalue.symm⟩
  · rintro ⟨raw', hlast, hdecode⟩
    have hcopy := hlast
    obtain ⟨_, _, _, _, _, _, hstands, _⟩ := hcopy
    obtain ⟨value, hvalue⟩ := hstands.exists_decode
    exact ⟨value, hdecode ▸ hvalue, raw', hlast, hvalue⟩

lemma length_nameBytes_le : ∀ v ∈ lambootVariables, v.nameBytes.length ≤ 34 := by
  decide

/-- Data stands at the place of its name. -/
structure Placed (data : Bytes) (v : Variable) (namePos : Nat) (raw rest : Bytes) : Prop where
  guid : lambootGuid <+: data.drop (namePos - 16)
  start : 16 ≤ namePos
  name : data.drop namePos = v.nameBytes ++ 0 :: 0 :: (raw ++ rest)

namespace Placed

variable {namePos : Nat}

lemma drop_valueOffset (h : Placed data v namePos raw rest) :
    data.drop (v.valueOffset namePos) = raw ++ rest := by
  rw [Variable.valueOffset, ← drop_drop, ← drop_drop, h.name, drop_left]
  rfl

lemma mem_hits (h : Placed data v namePos raw rest) : namePos - 16 ∈ hits data :=
  Monitor.mem_hits.mpr h.guid

lemma exists_nameNear (h : Placed data v namePos raw rest) (hv : v ∈ lambootVariables) :
    ∃ p, nameNear data v (namePos - 16) = some p := by
  have hname := length_nameBytes_le v hv
  have hstart := h.start
  have hlen := congrArg length h.name
  simp only [length_drop, length_append, length_cons] at hlen
  have hoccurs : v.nameBytes <+: (data.part (namePos - 16 - 256)
      (min data.length (namePos - 16 + 256) - (namePos - 16 - 256))).drop
        (namePos - (namePos - 16 - 256)) := by
    rw [part, drop_take, drop_drop, Nat.add_sub_cancel' (by omega), h.name]
    exact prefix_take_iff.mpr ⟨prefix_append .., by omega⟩
  cases hfind : find v.nameBytes (data.part (namePos - 16 - 256)
      (min data.length (namePos - 16 + 256) - (namePos - 16 - 256))) with
  | none => exact absurd hoccurs (find_eq_none_iff.mp hfind _)
  | some i => exact ⟨_, by simp only [nameNear, hfind]; rfl⟩

lemma returns_of_lastNear (h : Placed data v namePos raw rest) (hv : v ∈ lambootVariables)
    (hlast : LastNear data v namePos) (hfits : Fits v.type raw rest.head?) :
    Returns data v raw := by
  obtain ⟨earlier, pos, later, hhits, hname, hlater⟩ := hlast
  refine (returns_iff hv).mpr ⟨raw, ⟨earlier, pos, later, namePos, hhits, hname, ?_, ?_⟩, rfl⟩
  · rw [h.drop_valueOffset]
    exact stands_append_iff.mpr hfits
  · intro q hq p hp
    rw [hlater q hq] at hp
    cases hp

lemma lastNear_of_alwaysNear (h : Placed data v namePos raw rest) (hv : v ∈ lambootVariables)
    (halways : AlwaysNear data v namePos) : LastNear data v namePos := by
  obtain ⟨p₀, hp₀⟩ := h.exists_nameNear hv
  cases hfind : (hits data).reverse.findSome? (nameNear data v) with
  | none =>
    have hnone := findSome?_eq_none_iff.mp hfind _ (mem_reverse.mpr h.mem_hits)
    rw [hp₀] at hnone
    cases hnone
  | some p =>
    obtain ⟨later, pos, earlier, hhits, hname, hlater⟩ := findSome?_eq_some_iff.mp hfind
    have heq : hits data = earlier.reverse ++ pos :: later.reverse := by
      rw [← reverse_reverse (hits data), hhits]
      simp
    have hpos := halways pos (heq ▸ mem_append_right _ (mem_cons_self ..)) p hname
    exact ⟨_, pos, _, heq, hpos ▸ hname, fun q hq => hlater q (mem_reverse.mp hq)⟩

lemma returns_iff_fits (h : Placed data v namePos raw rest) (hv : v ∈ lambootVariables)
    (halways : AlwaysNear data v namePos) : Returns data v raw ↔ Fits v.type raw rest.head? := by
  refine ⟨fun hreturns => ?_, h.returns_of_lastNear hv (h.lastNear_of_alwaysNear hv halways)⟩
  obtain ⟨raw', ⟨earlier, pos, later, p, hhits, hname, hstands, -⟩, hdecode⟩ :=
    (returns_iff hv).mp hreturns
  have hp := halways pos (hhits ▸ mem_append_right _ (mem_cons_self ..)) p hname
  rw [hp, h.drop_valueOffset] at hstands
  rw [hstands.eq_of_decode_eq hdecode] at hstands
  exact stands_append_iff.mp hstands

end Placed

variable {live : VariableRecord} {before after : List VariableRecord}

def VariableStore.follows (store : VariableStore) (live : VariableRecord)
    (after : List VariableRecord) : Bytes :=
  live.padding ++ (after.flatMap VariableRecord.encode ++ store.rest)

lemma VariableStore.placed (store : VariableStore)
    (hrecords : store.records = before ++ live :: after) (hlive : live.IsLiveOf v) :
    Placed store.image v (store.namePos before) live.data (store.follows live after) := by
  obtain ⟨-, hvendor, hname⟩ := hlive
  have himage : store.image = store.header ++ before.flatMap VariableRecord.encode ++
      (live.head ++ (lambootGuid ++ (v.nameBytes ++
        0 :: 0 :: (live.data ++ store.follows live after)))) := by
    simp [image, hrecords, VariableRecord.encode, hvendor, hname, Variable.nameBytes, follows]
  have hguid : lambootGuid.length = 16 := hvendor ▸ live.vendor_length
  have hpos : store.namePos before =
      (store.header ++ before.flatMap VariableRecord.encode).length + (44 + 16) := by
    rw [namePos, length_append]
  refine ⟨?_, by omega, ?_⟩
  · have hsub : (store.header ++ before.flatMap VariableRecord.encode).length + (44 + 16) - 16 =
        (store.header ++ before.flatMap VariableRecord.encode).length + 44 := by omega
    rw [himage, hpos, hsub, ← drop_drop, drop_left, drop_left' live.length_head]
    exact prefix_append ..
  · rw [himage, hpos, ← drop_drop, drop_left, ← drop_drop,
      drop_left' live.length_head, drop_left' hguid]

/-- The value of the live record is returned just when it stands last behind the first name near the
GUID. So it is when the data fits and its name is the first near the last such GUID; and where no
other name is ever the first, only then. -/
theorem extractUefiVars_spec (store : VariableStore) (hv : v ∈ lambootVariables)
    (hrecords : store.records = before ++ live :: after) (hlive : live.IsLiveOf v) :
    (Returns store.image v live.data ↔
      ∃ raw, LastStanding store.image v raw ∧ decode v.type raw = decode v.type live.data) ∧
    (LastNear store.image v (store.namePos before) →
      Fits v.type live.data (store.follows live after).head? → Returns store.image v live.data) ∧
    (AlwaysNear store.image v (store.namePos before) →
      (Returns store.image v live.data ↔
        Fits v.type live.data (store.follows live after).head?)) := by
  have hplaced := store.placed hrecords hlive
  exact ⟨returns_iff hv, hplaced.returns_of_lastNear hv, hplaced.returns_iff_fits hv⟩

def plainRecord (state : UInt8) (v : Variable) (raw padding : Bytes) (hv : v ∈ lambootVariables)
    (hraw : raw.length < 2 ^ 32)
    (hpadding : padding.length = (4 - (2 * ((utf16 v.name).length + 1) + raw.length) % 4) % 4) :
    VariableRecord where
  state := state
  reserved := 0
  attributes := 7
  monotonicCount := 0
  timeStamp := replicate 16 0
  pubKeyIndex := 0
  vendor := lambootGuid
  name := utf16 v.name
  data := raw
  padding := padding
  timeStamp_length := rfl
  vendor_length := by rw [lambootGuid_eq]; rfl
  zero_notMem_name := (by decide : ∀ v ∈ lambootVariables, 0 ∉ utf16 v.name) v hv
  name_fits := (by decide : ∀ v ∈ lambootVariables, 2 * ((utf16 v.name).length + 1) < 2 ^ 32) v hv
  data_fits := hraw
  padding_length := hpadding

def stateVariable : Variable := ⟨"LamBootState", .u8⟩

def stateRecord (state n : UInt8) : VariableRecord :=
  plainRecord state stateVariable [n] [0xFF] (by decide) (Nat.one_lt_two_pow (by decide))
    (by simp only [length_singleton]; decide)

def otherRecords : List VariableRecord :=
  [plainRecord VariableRecord.added ⟨"LamBootCrashCount", .u8⟩ [0] [0xFF, 0xFF, 0xFF] (by decide)
      (by decide) (by decide),
    plainRecord VariableRecord.added ⟨"LamBootLastEntry", .utf8⟩ (utf8 "arch") [0xFF, 0xFF]
      (by decide) (by decide) (by decide),
    plainRecord VariableRecord.added ⟨"LamBootTimestamp", .timestamp⟩ [0xEA, 7, 1, 2, 3, 4, 5, 0]
      [0xFF, 0xFF] (by decide) (by decide) (by decide),
    plainRecord VariableRecord.added ⟨"LamBootVersion", .u32⟩ [0, 8, 0, 0] [0xFF, 0xFF]
      (by decide) (by decide) (by decide)]

def storeOf (records : List VariableRecord) : VariableStore where
  header := []
  records := records
  rest := [0xFF]
  header_aligned := rfl

def fullStore : VariableStore :=
  storeOf (stateRecord 0x3D 1 :: otherRecords ++ [stateRecord VariableRecord.added 2])

/-- The live state is returned, where the deleted one stands far enough before it. -/
theorem extractUefiVars_spec_fullStore :
    fullStore.OneLive ∧ Returns fullStore.image stateVariable [2] := by
  have hlast : LastNear fullStore.image stateVariable
      (fullStore.namePos (stateRecord 0x3D 1 :: otherRecords)) :=
    ⟨[44, 132, 232, 332, 436], 532, [], by decide +kernel, by decide +kernel, nofun⟩
  have hspec := extractUefiVars_spec fullStore (v := stateVariable) (by decide)
    (rfl : fullStore.records = (stateRecord 0x3D 1 :: otherRecords) ++
      stateRecord VariableRecord.added 2 :: []) (by decide)
  exact ⟨by decide +kernel, hspec.2.1 hlast rfl⟩

def staleStore : VariableStore :=
  storeOf (otherRecords ++ [stateRecord 0x3D 1, stateRecord VariableRecord.added 2])

/-- The state of the deleted record is returned; and to the last entry, which has no NUL, belongs
what comes before the next one in the image. -/
theorem extractUefiVars_staleStore :
    staleStore.OneLive ∧ stateRecord VariableRecord.added 2 ∈ staleStore.records ∧
      (stateRecord VariableRecord.added 2).IsLiveOf stateVariable ∧
      (stateRecord VariableRecord.added 2).data = [2] ∧
      extractUefiVars staleStore.image stateVariable.name = some (.u8 1) ∧
      extractUefiVars staleStore.image "LamBootLastEntry" =
        some (.utf8 (utf8 "arch" ++ [0xFF, 0xFF, 0xAA, 0x55, 0x3F])) := by
  refine ⟨?_, by simp [staleStore, storeOf], ?_, rfl, ?_, ?_⟩
  · decide +kernel
  · decide +kernel
  · decide +kernel
  · decide +kernel

end LamBoot.Monitor
