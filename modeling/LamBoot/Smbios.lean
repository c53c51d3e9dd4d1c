import LamBoot.Library.Checked
import LamBoot.Library.Selection
import LamBoot.Library.Utf8

/-!
# The SMBIOS structure table

`walk_smbios_structures` of `smbios.rs` with the two scans of the strings behind a structure. Memory
from the address of the table on is a byte string, and reading beyond it is a trap, as is a loop
that does not end.
-/

namespace LamBoot.Smbios

open List Bytes Checked Text Except

abbrev SmbiosM := Checked Empty

structure SystemInfo where
  manufacturer : Option Text := none
  productName : Option Text := none
  version : Option Text := none
  serialNumber : Option Text := none
  family : Option Text := none
deriving DecidableEq

/-- What the walk fills in. -/
structure Found where
  sysInfo : SystemInfo := {}
  oemStrings : List Text := []
deriving DecidableEq

def maxSmbiosTableLen : Nat := 1024 * 1024

/-! ### The program -/

/-- The inner loop of `collect_strings`: the position of the next NUL, or the end. -/
def findNul (table : Bytes) (maxLen : Nat) : Nat → Nat → SmbiosM Nat
  | 0, _ => .error .trap
  | fuel + 1, pos =>
    if pos < maxLen then do
      if (← index table pos) ≠ 0 then findNul table maxLen fuel (pos + 1) else return pos
    else return pos

/-- The loop of `collect_strings`. -/
def collectLoop (table : Bytes) (maxLen : Nat) : Nat → Nat → List Text → SmbiosM (List Text)
  | 0, _, _ => .error .trap
  | fuel + 1, pos, strings =>
    if pos < maxLen then do
      if (← index table pos) = 0 then return strings
      else
        let strStart := pos
        let pos ← findNul table maxLen (maxLen + 1) pos
        let strings := match ofUtf8 (← slice table strStart pos) with
          | some s => strings ++ [s]
          | none => strings
        collectLoop table maxLen fuel (if pos < maxLen then pos + 1 else pos) strings
    else return strings

def collectStrings (table : Bytes) (start maxLen : Nat) : SmbiosM (List Text) :=
  collectLoop table maxLen (maxLen + 1) start []

/-- The loop of `find_strings_end`. -/
def findDoubleNul (table : Bytes) (maxLen : Nat) : Nat → Nat → SmbiosM Nat
  | 0, _ => .error .trap
  | fuel + 1, pos =>
    if pos + 1 < maxLen then do
      if (← index table pos) = 0 ∧ (← index table (pos + 1)) = 0 then return pos + 2
      else findDoubleNul table maxLen fuel (pos + 1)
    else return maxLen

def findStringsEnd (table : Bytes) (start maxLen : Nat) : SmbiosM Nat := do
  if start < maxLen then
    if (← index table start) = 0 then return start + 2
  findDoubleNul table maxLen (maxLen + 1) start

def getString (strings : List Text) (index : UInt8) : Option Text :=
  if index = 0 then none else strings[(index - 1).toNat]?

/-- One field of the system information, which is left as it is if the structure is too short. -/
def readField (table : Bytes) (offset structLength : Nat) (strings : List Text) (position : Nat)
    (old : Option Text) : SmbiosM (Option Text) := do
  if position < structLength then return getString strings (← index table (offset + position))
  else return old

def readSystemInfo (table : Bytes) (offset structLength : Nat) (strings : List Text)
    (info : SystemInfo) : SmbiosM SystemInfo := do
  let manufacturer ← readField table offset structLength strings 4 info.manufacturer
  let productName ← readField table offset structLength strings 5 info.productName
  let version ← readField table offset structLength strings 6 info.version
  let serialNumber ← readField table offset structLength strings 7 info.serialNumber
  let family ← readField table offset structLength strings 26 info.family
  return { manufacturer, productName, version, serialNumber, family }

def readStructure (table : Bytes) (offset structLength : Nat) (structType : UInt8)
    (strings : List Text) (found : Found) : SmbiosM Found := do
  if structType = 1 then
    return { found with
      sysInfo := ← readSystemInfo table offset structLength strings found.sysInfo }
  else if structType = 11 ∧ 4 < structLength then
    let count := (← index table (offset + 4)).toNat
    return { found with
      oemStrings := found.oemStrings ++ strings.take (min count strings.length) }
  else return found

def walkLoop (table : Bytes) (tableLength : Nat) : Nat → Nat → Found → SmbiosM Found
  | 0, _, _ => .error .trap
  | fuel + 1, offset, found =>
    if offset + 4 ≤ tableLength then do
      let structType ← index table offset
      let structLength := (← index table (offset + 1)).toNat
      if structType = 127 then return found
      else if structLength < 4 ∨ tableLength < offset + structLength then return found
      else
        let strings ← collectStrings table (offset + structLength) tableLength
        let stringsEnd ← findStringsEnd table (offset + structLength) tableLength
        let found ← readStructure table offset structLength structType strings found
        walkLoop table tableLength fuel stringsEnd found
    else return found

def walkSmbiosStructures (memory : Bytes) (tableLength : Nat) (found : Found) : SmbiosM Found := do
  if tableLength = 0 ∨ maxSmbiosTableLen < tableLength then return found
  let table ← slice memory 0 tableLength
  walkLoop table tableLength (tableLength + 1) 0 found

/-! ### What the bytes say

Each loop is a function of the bytes from its position on, whatever they are. -/

def rawStrings : Bytes → List Bytes
  | [] => []
  | a :: b =>
    if a = 0 then []
    else (a :: b.takeWhile (· ≠ 0)) :: rawStrings ((b.dropWhile (· ≠ 0)).drop 1)
termination_by b => b.length
decreasing_by
  have := length_dropWhile_le (p := fun c : UInt8 => decide (c ≠ 0)) b
  rw [length_drop, length_cons]
  omega

def stringsOf (b : Bytes) : List Text :=
  (rawStrings b).filterMap ofUtf8

/-- The number of bytes up to and with the first two NULs that follow each other, or of all. -/
def doubleNulLength : Bytes → Nat
  | [] => 0
  | a :: b => if a = 0 ∧ b.head? = some 0 then 2 else doubleNulLength b + 1

def sectionLength (b : Bytes) : Nat :=
  if b.head? = some 0 then 2 else doubleNulLength b

def fieldOf (area : Bytes) (strings : List Text) (position : Nat) (old : Option Text) :
    Option Text :=
  if position < area.length then getString strings (area.getD position 0) else old

def systemInfoOf (area : Bytes) (strings : List Text) (info : SystemInfo) : SystemInfo where
  manufacturer := fieldOf area strings 4 info.manufacturer
  productName := fieldOf area strings 5 info.productName
  version := fieldOf area strings 6 info.version
  serialNumber := fieldOf area strings 7 info.serialNumber
  family := fieldOf area strings 26 info.family

def visit (area : Bytes) (strings : List Text) (found : Found) : Found :=
  if area.getD 0 0 = 1 then { found with sysInfo := systemInfoOf area strings found.sysInfo }
  else if area.getD 0 0 = 11 ∧ 4 < area.length then
    { found with oemStrings := found.oemStrings ++ strings.take (area.getD 4 0).toNat }
  else found

def walkBytes (b : Bytes) (found : Found) : Found :=
  let n := (b.getD 1 0).toNat
  if _h : 4 ≤ n ∧ n ≤ b.length ∧ b.getD 0 0 ≠ 127 then
    walkBytes (b.drop (n + sectionLength (b.drop n)))
      (visit (b.take n) (stringsOf (b.drop n)) found)
  else found
termination_by b.length
decreasing_by
  rw [length_drop]
  omega

section Bytes

variable {table : Bytes}

lemma drop_eq_cons {pos : Nat} (h : pos < table.length) :
    table.drop pos = table.getD pos 0 :: table.drop (pos + 1) := by
  rw [drop_eq_getElem_cons h, getD_eq_getElem?_getD, getElem?_eq_getElem h, Option.getD_some]

variable {fuel pos : Nat}

lemma findNul_eq_ok (hfuel : table.length - pos < fuel) :
    findNul table table.length fuel pos =
      .ok (pos + ((table.drop pos).takeWhile (· ≠ 0)).length) := by
  induction fuel generalizing pos with
  | zero => exact absurd hfuel (Nat.not_lt_zero _)
  | succ fuel ih =>
    by_cases hpos : pos < table.length
    · rw [findNul, if_pos hpos, index_eq_ok hpos, ok_bind, drop_eq_cons hpos]
      by_cases hzero : table.getD pos 0 = 0
      · rw [if_neg (not_not.mpr hzero), hzero]
        rfl
      · rw [if_pos hzero, ih (by omega), takeWhile_cons_of_pos (by simpa using hzero), length_cons]
        congr 1
        omega
    · rw [findNul, if_neg hpos, drop_eq_nil_of_le (by omega)]
      rfl

variable {strings : List Text}

lemma collectLoop_eq_ok (hfuel : table.length - pos < fuel) :
    collectLoop table table.length fuel pos strings =
      .ok (strings ++ stringsOf (table.drop pos)) := by
  induction fuel generalizing pos strings with
  | zero => exact absurd hfuel (Nat.not_lt_zero _)
  | succ fuel ih =>
    by_cases hpos : pos < table.length
    · rw [collectLoop, if_pos hpos, index_eq_ok hpos, ok_bind]
      by_cases hzero : table.getD pos 0 = 0
      · rw [if_pos hzero, drop_eq_cons hpos, stringsOf, rawStrings, if_pos hzero]
        exact congrArg ok (append_nil _).symm
      · have hsplit := takeWhile_append_dropWhile (p := fun c : UInt8 => decide (c ≠ 0))
          (l := table.drop pos)
        set run := (table.drop pos).takeWhile fun c => decide (c ≠ 0) with hrun
        set rest := (table.drop pos).dropWhile fun c => decide (c ≠ 0) with hrest
        have hlen : pos + run.length + rest.length = table.length := by
          have := congrArg length hsplit
          rw [length_append, length_drop] at this
          omega
        have hpart : table.part pos run.length = run := by
          rw [part, ← hsplit, take_left]
        have hdrop : table.drop (pos + run.length) = rest := by
          rw [← drop_drop, ← hsplit, drop_left]
        have hnext : table.drop (if pos + run.length < table.length then pos + run.length + 1
            else pos + run.length) = rest.drop 1 := by
          split_ifs with hlt
          · rw [← drop_drop, hdrop]
          · rw [hdrop, length_eq_zero_iff.mp (show rest.length = 0 by omega), drop_nil]
        have hraw : rawStrings (table.drop pos) = run :: rawStrings (rest.drop 1) := by
          rw [hrun, hrest, drop_eq_cons hpos, rawStrings, if_neg hzero,
            takeWhile_cons_of_pos (by simpa using hzero),
            dropWhile_cons_of_pos (by simpa using hzero)]
        have hnul : findNul table table.length (table.length + 1) pos = .ok (pos + run.length) :=
          findNul_eq_ok (by omega)
        rw [if_neg hzero, hnul, ok_bind, slice_eq_ok (by omega), ok_bind, hpart,
          ih (by split_ifs <;> omega), hnext, stringsOf, stringsOf, hraw]
        cases hs : ofUtf8 run with
        | none => rw [filterMap_cons_none hs]
        | some s => rw [filterMap_cons_some hs, append_assoc, singleton_append]
    · rw [collectLoop, if_neg hpos, drop_eq_nil_of_le (by omega), stringsOf, rawStrings]
      exact congrArg ok (append_nil _).symm

lemma doubleNulLength_cons (a a' : UInt8) (b : Bytes) : doubleNulLength (a :: a' :: b) =
    if a = 0 ∧ a' = 0 then 2 else doubleNulLength (a' :: b) + 1 := by
  simp [doubleNulLength]

lemma findDoubleNul_eq_ok (hpos : pos ≤ table.length)
    (hfuel : table.length - pos < fuel) :
    findDoubleNul table table.length fuel pos = .ok (pos + doubleNulLength (table.drop pos)) := by
  induction fuel generalizing pos with
  | zero => exact absurd hfuel (Nat.not_lt_zero _)
  | succ fuel ih =>
    by_cases hlt : pos + 1 < table.length
    · rw [findDoubleNul, if_pos hlt, index_eq_ok (by omega), ok_bind, index_eq_ok hlt, ok_bind,
        ih (by omega) (by omega), drop_eq_cons (show pos < table.length by omega),
        drop_eq_cons hlt, doubleNulLength_cons]
      split_ifs with hzero
      · rfl
      · congr 1
        omega
    · rw [findDoubleNul, if_neg hlt]
      refine congrArg ok ?_
      rcases Nat.lt_or_ge pos table.length with hpos' | hpos'
      · rw [drop_eq_cons hpos', drop_eq_nil_of_le (by omega), doubleNulLength,
          if_neg (by simp), doubleNulLength]
        omega
      · rw [drop_eq_nil_of_le hpos', doubleNulLength]
        omega

lemma findStringsEnd_eq_ok {start : Nat} (h : start ≤ table.length) :
    findStringsEnd table start table.length =
      .ok (start + sectionLength (table.drop start)) := by
  rw [findStringsEnd, sectionLength, findDoubleNul_eq_ok h (by omega)]
  rcases Nat.lt_or_ge start table.length with hlt | hge
  · rw [if_pos hlt, index_eq_ok hlt, ok_bind, drop_eq_cons hlt]
    simp only [head?_cons, Option.some.injEq]
    split_ifs <;> rfl
  · rw [if_neg (by omega), drop_eq_nil_of_le hge]
    rfl

lemma readField_eq_ok {offset n position : Nat} {old : Option Text}
    (h : offset + n ≤ table.length) : readField table offset n strings position old =
      .ok (fieldOf (table.part offset n) strings position old) := by
  rw [readField, fieldOf, length_part h]
  split_ifs with hposition
  · rw [index_eq_ok (by omega), getD_part hposition]
    rfl
  · rfl

lemma readStructure_eq_ok {offset n : Nat} {found : Found} (hn : 4 ≤ n)
    (h : offset + n ≤ table.length) :
    readStructure table offset n (table.getD offset 0) strings found =
      .ok (visit (table.part offset n) strings found) := by
  have htype : (table.part offset n).getD 0 0 = table.getD offset 0 := getD_part (by omega)
  rw [readStructure, visit, htype, length_part h]
  split_ifs with hone heleven
  · rw [readSystemInfo, readField_eq_ok h, ok_bind, readField_eq_ok h, ok_bind, readField_eq_ok h,
      ok_bind, readField_eq_ok h, ok_bind, readField_eq_ok h, ok_bind]
    rfl
  · rw [index_eq_ok (by omega), ok_bind, getD_part heleven.2]
    dsimp only
    rw [← take_eq_take_min]
    rfl
  · rfl

lemma walkLoop_eq_ok {fuel offset : Nat} {found : Found} (hfuel : table.length - offset < fuel) :
    walkLoop table table.length fuel offset found =
      .ok (walkBytes (table.drop offset) found) := by
  induction fuel generalizing offset found with
  | zero => exact absurd hfuel (Nat.not_lt_zero _)
  | succ fuel ih =>
    have hget : ∀ i, (table.drop offset).getD i 0 = table.getD (offset + i) 0 := fun i => by
      rw [getD_eq_getElem?_getD, getElem?_drop, getD_eq_getElem?_getD]
    rw [walkBytes, hget, hget, Nat.add_zero, length_drop]
    by_cases hhead : offset + 4 ≤ table.length
    · rw [walkLoop, if_pos hhead, index_eq_ok (by omega), ok_bind, index_eq_ok (by omega), ok_bind]
      by_cases hend : table.getD offset 0 = 127
      · rw [if_pos hend, dif_neg fun h => h.2.2 hend]
        rfl
      · rw [if_neg hend]
        set n := (table.getD (offset + 1) 0).toNat
        by_cases hn : n < 4 ∨ table.length < offset + n
        · rw [if_pos hn, dif_neg (by omega)]
          rfl
        · rw [if_neg hn, dif_pos ⟨by omega, by omega, hend⟩, collectStrings,
            collectLoop_eq_ok (by omega), ok_bind, findStringsEnd_eq_ok (by omega), ok_bind,
            readStructure_eq_ok (by omega) (by omega), ok_bind, ih (by omega), drop_drop,
            drop_drop, nil_append, Nat.add_assoc]
          rfl
    · rw [walkLoop, if_neg hhead, dif_neg (by omega)]
      rfl

lemma walkSmbiosStructures_eq_ok (table : Bytes) (found : Found) :
    walkSmbiosStructures table table.length found = .ok
      (if maxSmbiosTableLen < table.length then found else walkBytes table found) := by
  rw [walkSmbiosStructures]
  split_ifs with hlen hmax hmax
  · rfl
  · rw [length_eq_zero_iff.mp (hlen.resolve_right hmax), walkBytes, dif_neg (by simp)]
    rfl
  · exact absurd (.inr hmax) hlen
  · rw [slice_from_eq_ok (Nat.zero_le _), drop_zero]
    exact walkLoop_eq_ok (by omega)

end Bytes

/-! ### Well-formed tables -/

/-- A structure of any type but the one of the end marker, with the strings that follow it. -/
structure Structure where
  structType : UInt8
  not_end : structType ≠ 127
  handle : UInt8 × UInt8
  /-- The formatted area behind the header. -/
  data : Bytes
  fits : 4 + data.length < 2 ^ 8
  strings : List Bytes
  strings_ok : ∀ s ∈ strings, s ≠ [] ∧ 0 ∉ s

namespace Structure

variable (st : Structure)

def area : Bytes :=
  [st.structType, UInt8.ofNat (4 + st.data.length), st.handle.1, st.handle.2] ++ st.data

/-- The strings with the NULs that end them and the one that closes the section, or two NULs. -/
def stringSection : Bytes :=
  if st.strings = [] then [0, 0] else st.strings.flatMap (· ++ [0]) ++ [0]

def bytes : Bytes :=
  st.area ++ st.stringSection

def texts : List Text :=
  st.strings.filterMap ofUtf8

def stringAt (index : UInt8) : Option Text :=
  if index = 0 then none else st.strings[(index - 1).toNat]?.bind ofUtf8

def expectedField (position : Nat) (old : Option Text) : Option Text :=
  if position < st.area.length then st.stringAt (st.area.getD position 0) else old

def expected (info : SystemInfo) : SystemInfo where
  manufacturer := st.expectedField 4 info.manufacturer
  productName := st.expectedField 5 info.productName
  version := st.expectedField 6 info.version
  serialNumber := st.expectedField 7 info.serialNumber
  family := st.expectedField 26 info.family

/-- Dropping the strings that cannot be read leaves every one that a field refers to at its place.
-/
def FieldsStay : Prop :=
  ∀ position ∈ [4, 5, 6, 7, 26], position < st.area.length → st.area.getD position 0 ≠ 0 →
    Stays ofUtf8 st.strings (st.area.getD position 0 - 1).toNat

/-- The structure has a count, which is not smaller than the number of strings that can be read. -/
def CountSuffices : Prop :=
  st.texts = [] ∨ 4 < st.area.length ∧ chosen ofUtf8 st.strings ≤ (st.area.getD 4 0).toNat

end Structure

/-- A table: structures of which at most one is of type 1, and an end marker with anything behind
it, or none. -/
structure Table where
  structures : List Structure
  tail : Bytes
  tail_ok : tail = [] ∨ 4 ≤ tail.length ∧ tail.head? = some 127
  one_system : (structures.filter fun st => st.structType = 1).length ≤ 1
  fits : (structures.flatMap Structure.bytes ++ tail).length ≤ maxSmbiosTableLen

def Table.bytes (t : Table) : Bytes :=
  t.structures.flatMap Structure.bytes ++ t.tail

section Written

lemma rawStrings_append_nul {s : Bytes} (b : Bytes) (hne : s ≠ []) (hs : 0 ∉ s) :
    rawStrings (s ++ [0] ++ b) = s :: rawStrings b := by
  obtain ⟨a, s, rfl⟩ := exists_cons_of_ne_nil hne
  have ha : a ≠ 0 := fun h => hs (h ▸ mem_cons_self)
  have hs' : ∀ c ∈ s, decide (c ≠ 0) = true := fun c hc =>
    decide_eq_true fun h => hs (h ▸ mem_cons_of_mem a hc)
  rw [append_assoc, cons_append, rawStrings, if_neg ha,
    takeWhile_append_of_pos hs', dropWhile_append_of_pos hs']
  simp

lemma rawStrings_flatMap {strings : List Bytes} (b : Bytes)
    (h : ∀ s ∈ strings, s ≠ [] ∧ 0 ∉ s) :
    rawStrings (strings.flatMap (· ++ [0]) ++ 0 :: b) = strings := by
  induction strings with
  | nil => simp [rawStrings]
  | cons s strings ih =>
    obtain ⟨hne, hs⟩ := h s mem_cons_self
    rw [flatMap_cons, append_assoc, rawStrings_append_nul _ hne hs,
      ih fun s' hs' => h s' (mem_cons_of_mem s hs')]

lemma rawStrings_stringSection (st : Structure) (b : Bytes) :
    rawStrings (st.stringSection ++ b) = st.strings := by
  unfold Structure.stringSection
  split_ifs with h
  · rw [h, cons_append, rawStrings, if_pos rfl]
  · rw [append_assoc, singleton_append, rawStrings_flatMap b st.strings_ok]

lemma doubleNulLength_append {s : Bytes} (b : Bytes) (hs : 0 ∉ s) :
    doubleNulLength (s ++ b) = s.length + doubleNulLength b := by
  induction s with
  | nil => simp
  | cons a s ih =>
    have ha : a ≠ 0 := fun h => hs (h ▸ mem_cons_self)
    rw [cons_append, doubleNulLength, if_neg fun h => ha h.1,
      ih fun h => hs (mem_cons_of_mem a h), length_cons]
    omega

lemma doubleNulLength_flatMap {strings : List Bytes} (b : Bytes) (hne : strings ≠ [])
    (h : ∀ s ∈ strings, s ≠ [] ∧ 0 ∉ s) :
    doubleNulLength (strings.flatMap (· ++ [0]) ++ 0 :: b) =
      (strings.flatMap (· ++ [0])).length + 1 := by
  induction strings with
  | nil => exact absurd rfl hne
  | cons s strings ih =>
    have hrest := fun s' hs' => h s' (mem_cons_of_mem s hs')
    rw [flatMap_cons, append_assoc, append_assoc,
      doubleNulLength_append _ (h s mem_cons_self).2, singleton_append]
    rcases strings with _ | ⟨s', strings⟩
    · simp [doubleNulLength]
    · obtain ⟨hne', hs'⟩ := hrest s' mem_cons_self
      obtain ⟨a, s', rfl⟩ := exists_cons_of_ne_nil hne'
      have ha : a ≠ 0 := fun h => hs' (h ▸ mem_cons_self)
      have ih := ih (cons_ne_nil _ _) hrest
      rw [doubleNulLength, if_neg (by simp [ha]), ih, length_append, length_append,
        length_singleton]
      omega

lemma sectionLength_stringSection (st : Structure) (b : Bytes) :
    sectionLength (st.stringSection ++ b) = st.stringSection.length := by
  unfold Structure.stringSection
  split_ifs with h
  · rfl
  · have hhead : (st.strings.flatMap (· ++ [0]) ++ [0] ++ b).head? ≠ some 0 := by
      obtain ⟨s, strings, hs⟩ := exists_cons_of_ne_nil h
      obtain ⟨hne, hzero⟩ := st.strings_ok s (hs ▸ mem_cons_self)
      obtain ⟨a, s, rfl⟩ := exists_cons_of_ne_nil hne
      rw [hs]
      intro h
      obtain rfl : a = 0 := by simpa using h
      exact hzero mem_cons_self
    rw [sectionLength, if_neg hhead, append_assoc, singleton_append,
      doubleNulLength_flatMap b h st.strings_ok, length_append, length_singleton]

variable (st : Structure)

lemma length_area : st.area.length = 4 + st.data.length := by
  simp [Structure.area]
  omega

def Structure.visit (found : Found) (st : Structure) : Found :=
  Smbios.visit st.area st.texts found

lemma walkBytes_append (found : Found) (b : Bytes) :
    walkBytes (st.bytes ++ b) found = walkBytes b (Structure.visit found st) := by
  have hn : ((st.bytes ++ b).getD 1 0).toNat = st.area.length := by
    rw [length_area]
    exact Nat.mod_eq_of_lt st.fits
  have htype : (st.bytes ++ b).getD 0 0 = st.structType := rfl
  have hbytes : st.bytes ++ b = st.area ++ (st.stringSection ++ b) := append_assoc _ _ _
  have hdrop : (st.bytes ++ b).drop st.area.length = st.stringSection ++ b := by
    rw [hbytes, drop_left]
  have htake : (st.bytes ++ b).take st.area.length = st.area := by rw [hbytes, take_left]
  have hrest : (st.bytes ++ b).drop (st.area.length + st.stringSection.length) = b := by
    rw [← drop_drop, hdrop, drop_left]
  have hlen := length_area st
  rw [walkBytes, hn, hdrop, htake, sectionLength_stringSection, hrest, stringsOf,
    rawStrings_stringSection,
    dif_pos ⟨by omega, by rw [hbytes, length_append]; omega, htype ▸ st.not_end⟩]
  rfl

lemma walkBytes_tail {tail : Bytes} (found : Found)
    (h : tail = [] ∨ 4 ≤ tail.length ∧ tail.head? = some 127) : walkBytes tail found = found := by
  rw [walkBytes, dif_neg]
  rintro ⟨hn, hle, hend⟩
  rcases h with rfl | ⟨-, h⟩
  · exact absurd hn (by decide)
  · exact hend (by rw [getD_eq_getElem?_getD, ← head?_eq_getElem?, h]; rfl)

lemma walkBytes_bytes (structures : List Structure) {tail : Bytes} (found : Found)
    (h : tail = [] ∨ 4 ≤ tail.length ∧ tail.head? = some 127) :
    walkBytes (structures.flatMap Structure.bytes ++ tail) found =
      structures.foldl Structure.visit found := by
  induction structures generalizing found with
  | nil => exact walkBytes_tail found h
  | cons st structures ih => rw [flatMap_cons, append_assoc, walkBytes_append, ih]; rfl

/-! ### What is found -/

lemma oemStrings_visit (found : Found) : (Structure.visit found st).oemStrings =
    found.oemStrings ++ if st.structType = 11 ∧ 4 < st.area.length then
      st.texts.take (st.area.getD 4 0).toNat else [] := by
  have htype : st.area.getD 0 0 = st.structType := rfl
  rw [Structure.visit, visit, htype]
  by_cases hone : st.structType = 1
  · rw [if_pos hone, if_neg fun h => absurd (hone.symm.trans h.1) (by decide), append_nil]
  · rw [if_neg hone]
    split_ifs <;> simp

lemma sysInfo_visit (found : Found) : (Structure.visit found st).sysInfo =
    if st.structType = 1 then systemInfoOf st.area st.texts found.sysInfo else found.sysInfo := by
  have htype : st.area.getD 0 0 = st.structType := rfl
  rw [Structure.visit, visit, htype]
  split_ifs <;> rfl

lemma sysInfo_foldl (structures : List Structure) (found : Found) :
    (structures.foldl Structure.visit found).sysInfo =
      (structures.filter fun st => st.structType = 1).foldl
        (fun info st => systemInfoOf st.area st.texts info) found.sysInfo := by
  induction structures generalizing found with
  | nil => rfl
  | cons st structures ih =>
    rw [foldl_cons, ih, sysInfo_visit, filter_cons]
    by_cases h : st.structType = 1 <;> simp [h]

lemma oemStrings_foldl (structures : List Structure) (found : Found) :
    (structures.foldl Structure.visit found).oemStrings =
      found.oemStrings ++ structures.flatMap fun st =>
        if st.structType = 11 ∧ 4 < st.area.length then
          st.texts.take (st.area.getD 4 0).toNat else [] := by
  induction structures generalizing found with
  | nil => simp
  | cons st structures ih => rw [foldl_cons, ih, oemStrings_visit]; simp

lemma fieldOf_eq_iff (position : Nat) (old : Option Text) :
    fieldOf st.area st.texts position old = st.expectedField position old ↔
      (position < st.area.length → st.area.getD position 0 ≠ 0 →
        Stays ofUtf8 st.strings (st.area.getD position 0 - 1).toNat) := by
  rw [fieldOf, Structure.expectedField]
  by_cases hposition : position < st.area.length
  · rw [if_pos hposition, if_pos hposition, getString, Structure.stringAt]
    by_cases hindex : st.area.getD position 0 = 0
    · rw [if_pos hindex, if_pos hindex]
      exact iff_of_true rfl fun _ h => absurd hindex h
    · rw [if_neg hindex, if_neg hindex, Structure.texts, getElem?_filterMap_eq_iff]
      · exact ⟨fun h _ _ => h, fun h => h hposition hindex⟩
      · intro a a' t ha ha'
        rw [← utf8_of_ofUtf8 ha, ← utf8_of_ofUtf8 ha']
  · rw [if_neg hposition, if_neg hposition]
    exact iff_of_true rfl fun h => absurd h hposition

lemma systemInfoOf_eq_iff (info : SystemInfo) :
    systemInfoOf st.area st.texts info = st.expected info ↔ st.FieldsStay := by
  simp only [systemInfoOf, Structure.expected, SystemInfo.mk.injEq, fieldOf_eq_iff,
    Structure.FieldsStay, forall_mem_cons, not_mem_nil, false_imp_iff, implies_true, and_true]

lemma take_texts_eq_iff : (if st.structType = 11 ∧ 4 < st.area.length then
      st.texts.take (st.area.getD 4 0).toNat else []) =
    (if st.structType = 11 then st.texts else []) ↔ (st.structType = 11 → st.CountSuffices) := by
  by_cases htype : st.structType = 11
  · rw [if_pos htype, Structure.CountSuffices]
    by_cases hlen : 4 < st.area.length
    · rw [if_pos ⟨htype, hlen⟩, take_eq_self_iff]
      refine ⟨fun h _ => .inr ⟨hlen, h⟩, fun h => ?_⟩
      rcases h htype with h | h
      · rw [h]
        exact Nat.zero_le _
      · exact h.2
    · rw [if_neg fun h => hlen h.2]
      exact ⟨fun h _ => .inl h.symm, fun h => (h htype).elim Eq.symm fun h => absurd h.1 hlen⟩
  · rw [if_neg htype, if_neg fun h => htype h.1]
    exact iff_of_true rfl fun h => absurd h htype

end Written

/-- The fields of the structure of type 1 have the strings of their indices, and the strings of
those of type 11 that can be read are listed. -/
structure Reported (t : Table) (found found' : Found) : Prop where
  system : ∀ st ∈ t.structures, st.structType = 1 → found'.sysInfo = st.expected found.sysInfo
  noSystem : (∀ st ∈ t.structures, st.structType ≠ 1) → found'.sysInfo = found.sysInfo
  oem : found'.oemStrings = found.oemStrings ++
    (t.structures.filter fun st => st.structType = 11).flatMap Structure.texts

/-- No field refers to a string behind one that cannot be read, unless by chance, and the counts of
the structures of type 11 are not too small. -/
def Table.Kept (t : Table) : Prop :=
  ∀ st ∈ t.structures, (st.structType = 1 → st.FieldsStay) ∧ (st.structType = 11 → st.CountSuffices)

section Reported

variable (t : Table) (found : Found)

lemma system_iff : ((∀ st ∈ t.structures, st.structType = 1 →
      (t.structures.foldl Structure.visit found).sysInfo = st.expected found.sysInfo) ∧
    ((∀ st ∈ t.structures, st.structType ≠ 1) →
      (t.structures.foldl Structure.visit found).sysInfo = found.sysInfo)) ↔
    ∀ st ∈ t.structures, st.structType = 1 → st.FieldsStay := by
  have hmem : ∀ st, st ∈ t.structures ∧ st.structType = 1 ↔
      st ∈ t.structures.filter fun st => st.structType = 1 := fun st => by
    rw [mem_filter, decide_eq_true_eq]
  have hall : ∀ p : Structure → Prop, (∀ st ∈ t.structures, st.structType = 1 → p st) ↔
      ∀ st ∈ t.structures.filter fun st => st.structType = 1, p st := fun p =>
    forall_congr' fun st => by rw [← hmem, and_imp]
  rw [hall fun st => _ = st.expected found.sysInfo, hall Structure.FieldsStay, sysInfo_foldl]
  rcases hfilter : t.structures.filter fun st => st.structType = 1 with _ | ⟨st, rest⟩
  · rw [hfilter]
    exact iff_of_true ⟨nofun, fun _ => rfl⟩ nofun
  · obtain rfl : rest = [] := by
      have hone := t.one_system
      rw [hfilter, length_cons] at hone
      exact length_eq_zero_iff.mp (by omega)
    have hst := (hmem st).mpr (hfilter ▸ mem_singleton_self st)
    rw [hfilter, forall_mem_singleton, forall_mem_singleton, ← systemInfoOf_eq_iff st found.sysInfo]
    exact and_iff_left fun h => absurd hst.2 (h st hst.1)

lemma oem_iff : (t.structures.foldl Structure.visit found).oemStrings = found.oemStrings ++
      (t.structures.filter fun st => st.structType = 11).flatMap Structure.texts ↔
    ∀ st ∈ t.structures, st.structType = 11 → st.CountSuffices := by
  have hfilter : (t.structures.filter fun st => st.structType = 11).flatMap Structure.texts =
      t.structures.flatMap fun st => if st.structType = 11 then st.texts else [] := by
    induction t.structures with
    | nil => rfl
    | cons st structures ih =>
      rw [filter_cons, flatMap_cons, ← ih]
      by_cases h : st.structType = 11 <;> simp [h]
  rw [oemStrings_foldl, hfilter, append_cancel_left_eq, flatMap_eq_flatMap_iff]
  · exact forall₂_congr fun st _ => take_texts_eq_iff st
  · intro st
    by_cases htype : st.structType = 11
    · rw [if_pos htype]
      split_ifs with h
      · exact length_take_le' _ _
      · exact Nat.zero_le _
    · rw [if_neg fun h => htype h.1]
      exact Nat.zero_le _

lemma walk_bytes : walkSmbiosStructures t.bytes t.bytes.length found =
    .ok (t.structures.foldl Structure.visit found) := by
  have hfits : ¬ maxSmbiosTableLen < t.bytes.length := Nat.not_lt.mpr t.fits
  rw [walkSmbiosStructures_eq_ok, if_neg hfits, Table.bytes,
    walkBytes_bytes t.structures found t.tail_ok]

end Reported

/-- Every structure up to the end marker is visited, and any bytes are walked to the end. The
strings are reported under their own indices just if no unreadable string is in the way and the
counts suffice. -/
theorem walkSmbiosStructures_iff (t : Table) (table : Bytes) (found : Found) :
    walkSmbiosStructures t.bytes t.bytes.length found =
      .ok (t.structures.foldl Structure.visit found) ∧
    ((∃ found', walkSmbiosStructures t.bytes t.bytes.length found = .ok found' ∧
      Reported t found found') ↔ t.Kept) ∧
    ∃ found', walkSmbiosStructures table table.length found = .ok found' := by
  refine ⟨walk_bytes t found, ?_, _, walkSmbiosStructures_eq_ok table found⟩
  rw [walk_bytes]
  have hkept : t.Kept ↔ (∀ st ∈ t.structures, st.structType = 1 → st.FieldsStay) ∧
      ∀ st ∈ t.structures, st.structType = 11 → st.CountSuffices :=
    ⟨fun h => ⟨fun st hst => (h st hst).1, fun st hst => (h st hst).2⟩,
      fun h st hst => ⟨h.1 st hst, h.2 st hst⟩⟩
  rw [hkept, ← system_iff t found, ← oem_iff t found]
  constructor
  · rintro ⟨_, h, hreported⟩
    obtain rfl := ok.inj h
    exact ⟨⟨hreported.system, hreported.noSystem⟩, hreported.oem⟩
  · rintro ⟨⟨hsystem, hnone⟩, hoem⟩
    exact ⟨_, rfl, hsystem, hnone, hoem⟩

/-- A structure of type 1 whose first string is not UTF-8 and whose second one is "QEMU". The
manufacturer is the second and the product the first. -/
def unreadable : Table where
  structures := [{
    structType := 1
    not_end := by decide
    handle := (0, 1)
    data := [2, 1]
    fits := by decide
    strings := [[0xFF], [0x51, 0x45, 0x4D, 0x55]]
    strings_ok := by decide }]
  tail := [127, 4, 0, 2, 0, 0]
  tail_ok := .inr (by decide)
  one_system := by decide
  fits := by decide

/-- The second string is given to the product, which has the first one, and the manufacturer is
left empty. -/
theorem walkSmbiosStructures_unreadable :
    ∃ st ∈ unreadable.structures, st.structType = 1 ∧
      (st.expected {}).manufacturer = some "QEMU".toList ∧ (st.expected {}).productName = none ∧
      walkSmbiosStructures unreadable.bytes unreadable.bytes.length {} =
        .ok { sysInfo := { productName := some "QEMU".toList } } := by
  refine ⟨_, mem_cons_self, rfl, ?_, ?_, ?_⟩
  · decide +kernel
  · decide +kernel
  · decide +kernel

end LamBoot.Smbios
