import LamBoot.Library.LittleEndian
import LamBoot.Library.Utf16

/-!
# Load options and the boot order

The byte formats of `boot_entry_pure.rs`: the variables `Boot####`, their names, and `BootOrder`.
-/

namespace LamBoot

open List Bytes Text

/-! ### Numbers of 16 bits -/

/-- `u16::from_le_bytes`. -/
def ofLe16 (low high : UInt8) : UInt16 :=
  UInt16.ofNat (low.toNat + 256 * high.toNat)

def chunks16 : Bytes → List UInt16
  | low :: high :: rest => ofLe16 low high :: chunks16 rest
  | _ => []

lemma ofLe16_le16 (n : UInt16) : ofLe16 n.toUInt8 (n >>> 8).toUInt8 = n := by
  have hn := n.toNat_lt
  have hshift : (8 : UInt16).toNat % 16 = 8 := rfl
  rw [← UInt16.toNat_inj, ofLe16, UInt16.toNat_ofNat', UInt16.toNat_toUInt8, UInt16.toNat_toUInt8,
    UInt16.toNat_shiftRight, hshift, Nat.shiftRight_eq_div_pow]
  omega

lemma le16_ofLe16 (low high : UInt8) : le16 (ofLe16 low high) = [low, high] := by
  have hlow := low.toNat_lt
  have hhigh := high.toNat_lt
  have hshift : (8 : UInt16).toNat % 16 = 8 := rfl
  have hn : (ofLe16 low high).toNat = low.toNat + 256 * high.toNat := by
    rw [ofLe16, UInt16.toNat_ofNat']
    omega
  rw [le16, cons.injEq, cons.injEq, ← UInt8.toNat_inj, ← UInt8.toNat_inj,
    UInt16.toNat_toUInt8, UInt16.toNat_toUInt8, UInt16.toNat_shiftRight, hshift,
    Nat.shiftRight_eq_div_pow, hn]
  exact ⟨by omega, by omega, rfl⟩

lemma leNat_le16 (n : UInt16) : leNat (le16 n) = n.toNat := by
  have hn := n.toNat_lt
  have hshift : (8 : UInt16).toNat % 16 = 8 := rfl
  rw [le16, leNat_cons, leNat_cons, UInt16.toNat_toUInt8, UInt16.toNat_toUInt8,
    UInt16.toNat_shiftRight, hshift, Nat.shiftRight_eq_div_pow]
  change _ + 256 * (_ + 256 * 0) = _
  omega

lemma chunks16_le16_append (n : UInt16) (b : Bytes) : chunks16 (le16 n ++ b) = n :: chunks16 b := by
  rw [le16, cons_append, singleton_append, chunks16, ofLe16_le16]

lemma chunks16_flatMap_le16 (ns : List UInt16) (b : Bytes) :
    chunks16 (ns.flatMap le16 ++ b) = ns ++ chunks16 b := by
  induction ns with
  | nil => rfl
  | cons n ns ih => rw [flatMap_cons, append_assoc, chunks16_le16_append, ih]; rfl

/-! ### Boot order -/

def decodeBootOrder (bytes : Bytes) : List UInt16 :=
  chunks16 bytes

def encodeBootOrder (order : List UInt16) : Bytes :=
  order.flatMap le16

lemma decodeBootOrder_encodeBootOrder (order : List UInt16) :
    decodeBootOrder (encodeBootOrder order) = order := by
  unfold decodeBootOrder encodeBootOrder
  simpa [chunks16] using chunks16_flatMap_le16 order []

lemma encodeBootOrder_decodeBootOrder {bytes : Bytes} (h : 2 ∣ bytes.length) :
    encodeBootOrder (decodeBootOrder bytes) = bytes := by
  unfold encodeBootOrder decodeBootOrder
  fun_induction chunks16 bytes with
  | case1 low high rest ih =>
    have hrest : 2 ∣ length rest := by
      rw [length_cons, length_cons] at h
      omega
    rw [flatMap_cons, le16_ofLe16, ih hrest]
    rfl
  | case2 bytes hshort =>
    match bytes, h, hshort with
    | [], _, _ => rfl
    | [b], h, _ => exact absurd h (by simp)
    | low :: high :: rest, _, hshort => exact absurd rfl (hshort low high rest)

def bootOrderWithFront (order : List UInt16) (new : UInt16) : List UInt16 :=
  if order.contains new then order else new :: order

lemma mem_bootOrderWithFront {order : List UInt16} {new num : UInt16} :
    num ∈ bootOrderWithFront order new ↔ num = new ∨ num ∈ order := by
  unfold bootOrderWithFront
  split_ifs with h
  · rw [contains_iff_mem] at h
    exact ⟨.inr, fun h' => h'.elim (fun he => he ▸ h) id⟩
  · exact mem_cons

/-- The lowest number up to `max` that is not used. -/
def firstFreeBootNumber (used : List UInt16) (max : UInt16) : Option UInt16 :=
  ((range (max.toNat + 1)).map UInt16.ofNat).find? fun n => !used.contains n

/-! ### Load options -/

def loadOptionActive : UInt32 := 1

def encodeLoadOption (attributes : UInt32) (description : Text) (devicePath optionalData : Bytes) :
    Bytes :=
  le32 attributes ++ le16 (UInt16.ofNat (min devicePath.length 0xFFFF)) ++
    (utf16 description).flatMap le16 ++ le16 0 ++ devicePath ++ optionalData

def parseLoadOptionDescription (bytes : Bytes) : Option Text :=
  if bytes.length < 6 then none
  else some (fromUtf16Lossy ((chunks16 (bytes.drop 6)).takeWhile (· ≠ 0)))

lemma zero_notMem_utf16 {s : Text} (h : Char.ofNat 0 ∉ s) : 0 ∉ utf16 s := by
  intro hzero
  obtain ⟨c, hc, hunit⟩ := mem_flatMap.mp hzero
  have hvalid := toNat_lt_or_of_char c
  have hne : c.toNat ≠ 0 := by
    intro h0
    rw [← h0, Char.ofNat_toNat] at h
    exact h hc
  have hnonzero : ∀ n, 0 < n → n < 0x10000 → (0 : UInt16) ≠ UInt16.ofNat n := by
    intro n hpos hlt h0
    have hnat := congrArg UInt16.toNat h0
    rw [UInt16.toNat_ofNat', UInt16.toNat_zero] at hnat
    omega
  split_ifs at hunit with hbasic
  · exact hnonzero _ (by omega) hbasic (mem_singleton.mp hunit)
  · rcases mem_cons.mp hunit with h0 | hunit
    · exact hnonzero _ (by omega) (by omega) h0
    · exact hnonzero _ (by omega) (by omega) (mem_singleton.mp hunit)

def descriptionUnits (bytes : Bytes) : List UInt16 :=
  (chunks16 (bytes.drop 6)).takeWhile (· ≠ 0)

def filePathListLength (bytes : Bytes) : Nat :=
  leNat (bytes.part 4 2)

def filePathListOffset (bytes : Bytes) : Nat :=
  6 + 2 * (descriptionUnits bytes).length + 2

section Encoded

variable {attributes : UInt32} {description : Text} {devicePath optionalData : Bytes}

variable (attributes description devicePath optionalData) in
lemma encodeLoadOption_eq : ∃ head,
    encodeLoadOption attributes description devicePath optionalData =
      head ++ ((utf16 description).flatMap le16 ++ (le16 0 ++ (devicePath ++ optionalData))) ∧
    head.length = 6 ∧ head.part 4 2 = le16 (UInt16.ofNat (min devicePath.length 0xFFFF)) := by
  refine ⟨le32 attributes ++ le16 (UInt16.ofNat (min devicePath.length 0xFFFF)), ?_, rfl, rfl⟩
  simp only [encodeLoadOption, append_assoc]

lemma descriptionUnits_encode (h : Char.ofNat 0 ∉ description) :
    descriptionUnits (encodeLoadOption attributes description devicePath optionalData) =
      utf16 description := by
  obtain ⟨head, heq, hlen, -⟩ :=
    encodeLoadOption_eq attributes description devicePath optionalData
  have hunits : ∀ unit ∈ utf16 description, decide (unit ≠ 0) = true := fun unit hunit =>
    decide_eq_true fun h0 => zero_notMem_utf16 h (h0 ▸ hunit)
  rw [descriptionUnits, heq, drop_left' hlen, chunks16_flatMap_le16, chunks16_le16_append,
    takeWhile_append_of_pos hunits, takeWhile_cons_of_neg (by simp), append_nil]

lemma parseLoadOptionDescription_encode (h : Char.ofNat 0 ∉ description) :
    parseLoadOptionDescription
      (encodeLoadOption attributes description devicePath optionalData) = some description := by
  obtain ⟨head, heq, hlen, -⟩ :=
    encodeLoadOption_eq attributes description devicePath optionalData
  have hlong : ¬ (encodeLoadOption attributes description devicePath optionalData).length < 6 := by
    rw [heq, length_append, hlen]
    omega
  rw [parseLoadOptionDescription, if_neg hlong]
  change some (fromUtf16Lossy (descriptionUnits _)) = _
  rw [descriptionUnits_encode h, fromUtf16Lossy_utf16]

lemma filePathListLength_encode (h : devicePath.length < 2 ^ 16) :
    filePathListLength (encodeLoadOption attributes description devicePath optionalData) =
      devicePath.length := by
  obtain ⟨head, heq, hlen, hpart⟩ :=
    encodeLoadOption_eq attributes description devicePath optionalData
  have hhead : (encodeLoadOption attributes description devicePath optionalData).part 4 2 =
      head.part 4 2 := by
    rw [heq, part, part, drop_append_of_le_length (by omega),
      take_append_of_le_length (by simp [hlen])]
  rw [filePathListLength, hhead, hpart, leNat_le16, UInt16.toNat_ofNat']
  omega

lemma drop_filePathListOffset_encode (h : Char.ofNat 0 ∉ description) :
    (encodeLoadOption attributes description devicePath optionalData).drop
      (filePathListOffset (encodeLoadOption attributes description devicePath optionalData)) =
      devicePath ++ optionalData := by
  rw [filePathListOffset, descriptionUnits_encode h]
  obtain ⟨head, heq, hlen, -⟩ :=
    encodeLoadOption_eq attributes description devicePath optionalData
  rw [heq, ← append_assoc, ← append_assoc]
  refine drop_left' ?_
  have hunits : ((utf16 description).flatMap le16).length = 2 * (utf16 description).length := by
    rw [length_flatMap]
    simp [le16, Nat.mul_comm]
  rw [length_append, length_append, hlen, hunits]
  rfl

end Encoded

/-- What is read back from an encoded option, and from an encoded order. -/
theorem loadOption_roundTrip (attributes : UInt32) {description : Text} {devicePath : Bytes}
    (optionalData : Bytes) (hnul : Char.ofNat 0 ∉ description)
    (hpath : devicePath.length < 2 ^ 16) :
    let bytes := encodeLoadOption attributes description devicePath optionalData
    parseLoadOptionDescription bytes = some description ∧
    filePathListLength bytes = devicePath.length ∧
    bytes.part (filePathListOffset bytes) (filePathListLength bytes) = devicePath ∧
    bytes.drop (filePathListOffset bytes + filePathListLength bytes) = optionalData ∧
    (∀ order, decodeBootOrder (encodeBootOrder order) = order) ∧
    ∀ order : Bytes, 2 ∣ order.length → encodeBootOrder (decodeBootOrder order) = order := by
  intro bytes
  have hlength : filePathListLength bytes = devicePath.length := filePathListLength_encode hpath
  have hdrop : bytes.drop (filePathListOffset bytes) = devicePath ++ optionalData :=
    drop_filePathListOffset_encode hnul
  refine ⟨parseLoadOptionDescription_encode hnul, hlength, ?_, ?_,
    decodeBootOrder_encodeBootOrder, fun _ => encodeBootOrder_decodeBootOrder⟩
  · rw [part, hdrop, hlength]
    exact take_left' rfl
  · rw [← drop_drop, hdrop, hlength]
    exact drop_left' rfl

theorem loadOption_roundTrip_outsideBasicPlane :
    parseLoadOptionDescription
      (encodeLoadOption 1 [Char.ofNat 0x1F427, 'x'] [0x7F, 0xFF, 4, 0] [1, 2, 3]) =
      some [Char.ofNat 0x1F427, 'x'] :=
  (loadOption_roundTrip 1 [1, 2, 3] (by decide) (by decide)).1

/-! ### Names -/

def upperHexDigit (n : Nat) : Char :=
  Char.ofNat (if n < 10 then 48 + n else 55 + n)

/-- The name of a boot variable: `Boot` and four hexadecimal digits. -/
def bootVarName (num : UInt16) : Text :=
  "Boot" ++ [num.toNat / 0x1000, num.toNat / 0x100 % 16, num.toNat / 0x10 % 16,
    num.toNat % 16].map upperHexDigit

def bootOrderName : Text := "BootOrder"

lemma upperHexDigit_injOn : ∀ m < 16, ∀ n < 16, upperHexDigit m = upperHexDigit n → m = n := by
  decide

lemma bootVarName_injective : Function.Injective bootVarName := by
  intro m n h
  have hm := m.toNat_lt
  have hn := n.toNat_lt
  simp only [bootVarName, append_cancel_left_eq, map_cons, map_nil, cons.injEq, and_true] at h
  have h0 := upperHexDigit_injOn _ (by omega) _ (by omega) h.1
  have h1 := upperHexDigit_injOn _ (by omega) _ (by omega) h.2.1
  have h2 := upperHexDigit_injOn _ (by omega) _ (by omega) h.2.2.1
  have h3 := upperHexDigit_injOn _ (by omega) _ (by omega) h.2.2.2
  rw [← UInt16.toNat_inj]
  omega

lemma bootVarName_ne_bootOrderName (num : UInt16) : bootVarName num ≠ bootOrderName := by
  intro h
  have hlen : (8 : Nat) = 9 := congrArg length h
  omega

end LamBoot
