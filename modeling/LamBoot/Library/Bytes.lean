import Mathlib.Tactic

/-!
# Byte strings

Byte strings as lists, with the ASCII classes of a byte.
-/

abbrev Bytes := List UInt8

/-- What is said of the members of a list is decided along the list, also where the type is one
that can be searched, as bytes and characters are. -/
instance (priority := 2000) Bytes.decidableForallMem {α : Type} (p : α → Prop) [DecidablePred p]
    (l : List α) : Decidable (∀ a ∈ l, p a) :=
  List.decidableBAll p l

instance (priority := 2000) Bytes.decidableExistsMem {α : Type} (p : α → Prop) [DecidablePred p]
    (l : List α) : Decidable (∃ a ∈ l, p a) :=
  List.decidableBEx p l

namespace Bytes

/-- `u16::to_le_bytes`. -/
def le16 (n : UInt16) : Bytes :=
  [n.toUInt8, (n >>> 8).toUInt8]

/-- `u32::to_le_bytes`. -/
def le32 (n : UInt32) : Bytes :=
  [n.toUInt8, (n >>> 8).toUInt8, (n >>> 16).toUInt8, (n >>> 24).toUInt8]

def isAsciiDigit (b : UInt8) : Bool :=
  48 ≤ b && b ≤ 57

def isAsciiAlphabetic (b : UInt8) : Bool :=
  (65 ≤ b && b ≤ 90) || (97 ≤ b && b ≤ 122)

def isAsciiAlphanumeric (b : UInt8) : Bool :=
  isAsciiAlphabetic b || isAsciiDigit b

lemma isAsciiAlphabetic_eq_false_of_digit {b : UInt8} (h : isAsciiDigit b = true) :
    isAsciiAlphabetic b = false := by
  simp only [isAsciiDigit, isAsciiAlphabetic, Bool.and_eq_true, decide_eq_true_eq,
    Bool.or_eq_false_iff, Bool.and_eq_false_iff, decide_eq_false_iff_not, not_le,
    UInt8.le_iff_toNat_le, UInt8.reduceToNat] at h ⊢
  omega

lemma isAsciiAlphanumeric_of_digit {b : UInt8} (h : isAsciiDigit b = true) :
    isAsciiAlphanumeric b = true := by
  simp [isAsciiAlphanumeric, h]

lemma isAsciiAlphanumeric_of_alphabetic {b : UInt8} (h : isAsciiAlphabetic b = true) :
    isAsciiAlphanumeric b = true := by
  simp [isAsciiAlphanumeric, h]

end Bytes
