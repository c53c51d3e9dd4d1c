import LamBoot.Library.Text

/-!
# Strings of digits

A non-empty string of decimal digits and the number it stands for, with any number of zeros in
front. `parse` at an unsigned type reads it back where the number fits.
-/

/-- A non-empty string of decimal digits. -/
structure Digits where
  text : Text
  ne_nil : text ≠ []
  isDigit : ∀ c ∈ text, c.isDigit = true

namespace Digits

open List Text

def value (d : Digits) : Nat :=
  Nat.ofDigitChars 10 d.text 0

def length (d : Digits) : Nat :=
  d.text.length

def padded (width n : Nat) : Digits where
  text := List.replicate (width - (Nat.toDigits 10 n).length) '0' ++ Nat.toDigits 10 n
  ne_nil := append_ne_nil_of_right_ne_nil _ Nat.toDigits_ne_nil
  isDigit c hc := by
    rcases mem_append.mp hc with hc | hc
    · rw [eq_of_mem_replicate hc]
      rfl
    · exact Nat.isDigit_of_mem_toDigits (by decide) (by decide) hc

@[simp] lemma value_padded (width n : Nat) : (padded width n).value = n := by
  simp [value, padded, Nat.ofDigitChars_append, Nat.ofDigitChars_replicate_zero,
    Nat.ofDigitChars_toDigits]

lemma le_length_padded (width n : Nat) : width ≤ (padded width n).length := by
  simp only [length, padded, length_append, length_replicate]
  omega

lemma length_pos (d : Digits) : 0 < d.length :=
  length_pos_iff.mpr d.ne_nil

lemma not_mem {c : Char} (hc : c.isDigit = false) (d : Digits) : c ∉ d.text := by
  intro h
  rw [d.isDigit c h] at hc
  cases hc

lemma takeWhile_append (d : Digits) {s : Text} (hs : ∀ c, s.head? = some c → c.isDigit = false) :
    (d.text ++ s).takeWhile Char.isDigit = d.text := by
  rw [takeWhile_append_of_pos d.isDigit]
  cases s with
  | nil => simp
  | cons c s => simp [hs c rfl]

lemma parseUnsigned_eq (d : Digits) (bound : Nat) :
    parseUnsigned bound d.text = if d.value < bound then some d.value else none := by
  have hplus : d.text.head? ≠ some '+' := fun h =>
    d.not_mem (c := '+') rfl (mem_of_mem_head? h)
  have hall : d.text.all Char.isDigit = true := all_eq_true.mpr d.isDigit
  simp only [parseUnsigned, hplus, if_false, d.ne_nil, ne_eq, not_false_eq_true, hall, and_self,
    if_true]
  rfl

end Digits
