import LamBoot.Library.Text

/-!
# UTF-16

Reading back the 16-bit units of a string. Every string is read back as it was.
-/

namespace Text

def isHighSurrogate (u : UInt16) : Bool :=
  0xD800 ≤ u.toNat && u.toNat < 0xDC00

def isLowSurrogate (u : UInt16) : Bool :=
  0xDC00 ≤ u.toNat && u.toNat < 0xE000

def ofSurrogates (high low : UInt16) : Char :=
  Char.ofNat (0x10000 + (high.toNat - 0xD800) * 0x400 + (low.toNat - 0xDC00))

def replacementChar : Char := '�'

def ofUnit (u : UInt16) : Char :=
  if isHighSurrogate u || isLowSurrogate u then replacementChar else Char.ofNat u.toNat

/-- `from_utf16_lossy`. -/
def fromUtf16Lossy : List UInt16 → Text
  | [] => []
  | [u] => [ofUnit u]
  | u :: v :: units =>
    if isHighSurrogate u && isLowSurrogate v then ofSurrogates u v :: fromUtf16Lossy units
    else ofUnit u :: fromUtf16Lossy (v :: units)

def charUtf16 (c : Char) : List UInt16 :=
  utf16 [c]

lemma utf16_cons (c : Char) (s : Text) : utf16 (c :: s) = charUtf16 c ++ utf16 s := by
  simp [utf16, charUtf16]

lemma toNat_lt_or_of_char (c : Char) : c.toNat < 0xD800 ∨ 0xDFFF < c.toNat ∧ c.toNat < 0x110000 :=
  c.valid

lemma fromUtf16Lossy_unit {u : UInt16} {units : List UInt16} (h : isHighSurrogate u = false) :
    fromUtf16Lossy (u :: units) = ofUnit u :: fromUtf16Lossy units := by
  cases units with
  | nil => rfl
  | cons v units => simp [fromUtf16Lossy, h]

lemma fromUtf16Lossy_of_basic {c : Char} (h : c.toNat < 0x10000) (units : List UInt16) :
    fromUtf16Lossy (UInt16.ofNat c.toNat :: units) = c :: fromUtf16Lossy units := by
  have hc := toNat_lt_or_of_char c
  have hnat : (UInt16.ofNat c.toNat).toNat = c.toNat := by
    rw [UInt16.toNat_ofNat']
    omega
  have hhigh : isHighSurrogate (UInt16.ofNat c.toNat) = false := by
    simp only [isHighSurrogate, hnat, Bool.and_eq_false_iff, decide_eq_false_iff_not]
    omega
  have hlow : isLowSurrogate (UInt16.ofNat c.toNat) = false := by
    simp only [isLowSurrogate, hnat, Bool.and_eq_false_iff, decide_eq_false_iff_not]
    omega
  rw [fromUtf16Lossy_unit hhigh, ofUnit, hhigh, hlow, hnat]
  simp

lemma fromUtf16Lossy_of_pair {c : Char} (h : 0x10000 ≤ c.toNat) (units : List UInt16) :
    fromUtf16Lossy (UInt16.ofNat (0xD800 + (c.toNat - 0x10000) / 0x400) ::
      UInt16.ofNat (0xDC00 + (c.toNat - 0x10000) % 0x400) :: units) =
        c :: fromUtf16Lossy units := by
  have hc := toNat_lt_or_of_char c
  have hhigh : (UInt16.ofNat (0xD800 + (c.toNat - 0x10000) / 0x400)).toNat =
      0xD800 + (c.toNat - 0x10000) / 0x400 := by
    rw [UInt16.toNat_ofNat']
    omega
  have hlow : (UInt16.ofNat (0xDC00 + (c.toNat - 0x10000) % 0x400)).toNat =
      0xDC00 + (c.toNat - 0x10000) % 0x400 := by
    rw [UInt16.toNat_ofNat']
    omega
  have hsum : 0x10000 + (0xD800 + (c.toNat - 0x10000) / 0x400 - 0xD800) * 0x400 +
      (0xDC00 + (c.toNat - 0x10000) % 0x400 - 0xDC00) = c.toNat := by omega
  have hpair : (0xD800 ≤ 0xD800 + (c.toNat - 0x10000) / 0x400 ∧
      0xD800 + (c.toNat - 0x10000) / 0x400 < 0xDC00) ∧
      0xDC00 ≤ 0xDC00 + (c.toNat - 0x10000) % 0x400 ∧
      0xDC00 + (c.toNat - 0x10000) % 0x400 < 0xE000 := by omega
  rw [fromUtf16Lossy, isHighSurrogate, isLowSurrogate, ofSurrogates, hhigh, hlow, hsum,
    if_pos (by simpa using hpair), Char.ofNat_toNat]

lemma fromUtf16Lossy_charUtf16 (c : Char) (units : List UInt16) :
    fromUtf16Lossy (charUtf16 c ++ units) = c :: fromUtf16Lossy units := by
  by_cases hbasic : c.toNat < 0x10000
  · simpa [charUtf16, utf16, hbasic] using fromUtf16Lossy_of_basic hbasic units
  · simpa [charUtf16, utf16, hbasic] using fromUtf16Lossy_of_pair (not_lt.mp hbasic) units

/-- Every string is read back. -/
theorem fromUtf16Lossy_utf16 (s : Text) : fromUtf16Lossy (utf16 s) = s := by
  induction s with
  | nil => rfl
  | cons c s ih => rw [utf16_cons, fromUtf16Lossy_charUtf16, ih]

/-! ### The character zero -/

lemma toNat_ofNat_of_valid {n : Nat} (h : n.isValidChar) : (Char.ofNat n).toNat = n := by
  rw [Char.ofNat, dif_pos h]
  rfl

lemma ofUnit_ne_nul {u : UInt16} (h : u ≠ 0) : Char.ofNat 0 ≠ ofUnit u := by
  have hlt := u.toNat_lt
  have hu : u.toNat ≠ 0 := fun h0 => h (UInt16.toNat_inj.mp h0)
  unfold ofUnit
  split_ifs with hsurrogate
  · decide
  · intro heq
    have hnat := congrArg Char.toNat heq
    have hvalid : u.toNat.isValidChar := by
      simp only [isHighSurrogate, isLowSurrogate, Bool.or_eq_true, Bool.and_eq_true,
        decide_eq_true_eq] at hsurrogate
      unfold Nat.isValidChar
      omega
    rw [toNat_ofNat_of_valid hvalid] at hnat
    exact hu hnat.symm

lemma ofSurrogates_ne_nul {u v : UInt16} (hu : isHighSurrogate u = true)
    (hv : isLowSurrogate v = true) : Char.ofNat 0 ≠ ofSurrogates u v := by
  simp only [isHighSurrogate, isLowSurrogate, Bool.and_eq_true, decide_eq_true_eq] at hu hv
  intro heq
  have hnat := congrArg Char.toNat heq.symm
  rw [ofSurrogates, toNat_ofNat_of_valid (by unfold Nat.isValidChar; omega)] at hnat
  have hzero : (Char.ofNat 0).toNat = 0 := rfl
  omega

/-- Units other than zero are read as characters other than zero. -/
lemma nul_notMem_fromUtf16Lossy {units : List UInt16} (h : 0 ∉ units) :
    Char.ofNat 0 ∉ fromUtf16Lossy units := by
  fun_induction fromUtf16Lossy units with
  | case1 => exact List.not_mem_nil
  | case2 u => simpa using ofUnit_ne_nul fun hu => h (by simp [hu])
  | case3 u v units hpair ih =>
    rw [Bool.and_eq_true] at hpair
    simp only [List.mem_cons, not_or] at h ⊢
    exact ⟨ofSurrogates_ne_nul hpair.1 hpair.2, ih h.2.2⟩
  | case4 u v units hpair ih =>
    simp only [List.mem_cons, not_or] at h ih ⊢
    exact ⟨ofUnit_ne_nul (Ne.symm h.1), ih h.2⟩

end Text
