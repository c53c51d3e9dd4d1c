import LamBoot.Library.Digits
import LamBoot.Bls.Sort

/-!
# Numbers in versions

`version_compare` never forms a number: it drops the zeros in front, compares the lengths of what is
left and then the digits. This is the comparison of the numbers, however long they are.
-/

namespace LamBoot

open List Bytes Text

/-! ### The number of a string of digits -/

def numberValue (d : Bytes) : Nat :=
  d.foldl (fun n b => 10 * n + (b.toNat - 48)) 0

section Value

variable {d e : Bytes}

lemma isAsciiDigit_iff {b : UInt8} : isAsciiDigit b = true ↔ 48 ≤ b.toNat ∧ b.toNat ≤ 57 := by
  simp [isAsciiDigit, UInt8.le_iff_toNat_le]

lemma numberValue_cons (x : UInt8) (d : Bytes) :
    numberValue (x :: d) = (x.toNat - 48) * 10 ^ d.length + numberValue d := by
  have hfold : ∀ (d : Bytes) (n : Nat),
      d.foldl (fun n b => 10 * n + (b.toNat - 48)) n = n * 10 ^ d.length + numberValue d := by
    intro d
    induction d with
    | nil => simp [numberValue]
    | cons y d ih =>
      intro n
      rw [numberValue, foldl_cons, foldl_cons, ih, ih (10 * 0 + (y.toNat - 48)),
        length_cons, pow_succ]
      ring
  rw [numberValue, foldl_cons, hfold]
  simp

lemma numberValue_lt (hd : ∀ b ∈ d, isAsciiDigit b = true) : numberValue d < 10 ^ d.length := by
  induction d with
  | nil => simp [numberValue]
  | cons x d ih =>
    have hlt := ih fun b hb => hd b (mem_cons_of_mem x hb)
    have hx := (isAsciiDigit_iff.mp (hd x mem_cons_self)).2
    rw [numberValue_cons, length_cons, pow_succ]
    have hle : (x.toNat - 48) * 10 ^ d.length ≤ 9 * 10 ^ d.length :=
      Nat.mul_le_mul_right _ (by omega)
    omega

lemma le_numberValue {x : UInt8} (hx : isAsciiDigit x = true) (hne : x ≠ 48) :
    10 ^ d.length ≤ numberValue (x :: d) := by
  have hge : 1 ≤ x.toNat - 48 := by
    have hle := (isAsciiDigit_iff.mp hx).1
    have hne' : x.toNat ≠ 48 := fun h => hne (UInt8.toNat_inj.mp h)
    omega
  rw [numberValue_cons]
  calc 10 ^ d.length = 1 * 10 ^ d.length := (Nat.one_mul _).symm
    _ ≤ (x.toNat - 48) * 10 ^ d.length := Nat.mul_le_mul_right _ hge
    _ ≤ (x.toNat - 48) * 10 ^ d.length + numberValue d := Nat.le_add_right _ _

lemma numberValue_dropZeros (d : Bytes) :
    numberValue (d.dropWhile (· == 48)) = numberValue d := by
  induction d with
  | nil => rfl
  | cons x d ih =>
    by_cases hx : x = 48
    · rw [dropWhile_cons_of_pos (by simpa using hx), ih, numberValue_cons, hx]
      simp
    · rw [dropWhile_cons_of_neg (by simpa using hx)]

lemma compare_of_length_eq (hd : ∀ b ∈ d, isAsciiDigit b = true)
    (he : ∀ b ∈ e, isAsciiDigit b = true) (hlength : d.length = e.length) :
    compare d e = compare (numberValue d) (numberValue e) := by
  induction d generalizing e with
  | nil =>
    obtain rfl := length_eq_zero_iff.mp hlength.symm
    rfl
  | cons x d ih =>
    cases e with
    | nil => cases hlength
    | cons y e =>
      have hlen : d.length = e.length := Nat.succ.inj hlength
      have hd' : ∀ b ∈ d, isAsciiDigit b = true := fun b hb => hd b (mem_cons_of_mem x hb)
      have he' : ∀ b ∈ e, isAsciiDigit b = true := fun b hb => he b (mem_cons_of_mem y hb)
      have hdlt := numberValue_lt hd'
      have helt := numberValue_lt he'
      have hx := (isAsciiDigit_iff.mp (hd x mem_cons_self)).1
      have hy := (isAsciiDigit_iff.mp (he y mem_cons_self)).1
      rw [List.compare_cons_cons, ih hd' he' hlen, numberValue_cons, numberValue_cons, hlen]
      rw [hlen] at hdlt
      generalize 10 ^ e.length = k at hdlt helt ⊢
      rcases lt_trichotomy x.toNat y.toNat with hlt | heq | hgt
      · -- A smaller digit in front makes the number smaller, whatever follows.
        have hstep : (x.toNat - 48 + 1) * k ≤ (y.toNat - 48) * k :=
          Nat.mul_le_mul_right _ (by omega)
        rw [Nat.succ_mul] at hstep
        rw [Std.compare_eq_lt.mpr (UInt8.lt_iff_toNat_lt.mpr hlt), Ordering.lt_then,
          eq_comm, Nat.compare_eq_lt]
        omega
      · have hrefl : compare y y = .eq := Std.ReflCmp.compare_self
        rw [UInt8.toNat_inj.mp heq, hrefl, Ordering.eq_then]
        simp only [Nat.compare_eq_ite_lt]
        simp
      · have hstep : (y.toNat - 48 + 1) * k ≤ (x.toNat - 48) * k :=
          Nat.mul_le_mul_right _ (by omega)
        rw [Nat.succ_mul] at hstep
        rw [Std.compare_eq_gt.mpr (UInt8.lt_iff_toNat_lt.mpr hgt), Ordering.gt_then,
          eq_comm, Nat.compare_eq_gt]
        omega

lemma numberCompare_eq_compare (hd : ∀ b ∈ d, isAsciiDigit b = true)
    (he : ∀ b ∈ e, isAsciiDigit b = true) (hd0 : d.head? ≠ some 48) (he0 : e.head? ≠ some 48) :
    numberCompare d e = compare (numberValue d) (numberValue e) := by
  have hlonger : ∀ d e : Bytes, (∀ b ∈ d, isAsciiDigit b = true) →
      (∀ b ∈ e, isAsciiDigit b = true) → d.head? ≠ some 48 → e.length < d.length →
        numberValue e < numberValue d := by
    intro d e hd he hd0 hlt
    cases d with
    | nil => exact absurd hlt (Nat.not_lt_zero _)
    | cons x d =>
      have hx : x ≠ 48 := fun h => hd0 (by rw [h]; rfl)
      calc numberValue e < 10 ^ e.length := numberValue_lt he
        _ ≤ 10 ^ d.length := Nat.pow_le_pow_right (by decide) (Nat.le_of_lt_succ hlt)
        _ ≤ numberValue (x :: d) := le_numberValue (hd x mem_cons_self) hx
  simp only [numberCompare, compareLex, compareOn]
  rcases lt_trichotomy d.length e.length with hlt | heq | hgt
  · rw [Nat.compare_eq_lt.mpr hlt, Ordering.lt_then, eq_comm, Nat.compare_eq_lt]
    exact hlonger e d he hd he0 hlt
  · rw [Nat.compare_eq_eq.mpr heq, Ordering.eq_then, compare_of_length_eq hd he heq]
  · rw [Nat.compare_eq_gt.mpr hgt, Ordering.gt_then, eq_comm, Nat.compare_eq_gt]
    exact hlonger d e hd he hd0 hgt

end Value

/-! ### Texts that both versions begin with -/

section Shared

variable {b : UInt8} {f : UInt8 → Bool}

lemma takeWhile_append_cons (hb : f b = false) (q X : Bytes) :
    (q ++ b :: X).takeWhile f = q.takeWhile f := by
  induction q with
  | nil => simp [hb]
  | cons y q ih => simp only [cons_append, takeWhile_cons, ih]

lemma dropWhile_append_cons (hb : f b = false) (q X : Bytes) :
    (q ++ b :: X).dropWhile f = q.dropWhile f ++ b :: X := by
  induction q with
  | nil => simp [hb]
  | cons y q ih =>
    simp only [cons_append, dropWhile_cons, ih]
    split <;> rfl

def DigitAhead (s : Bytes) : Prop :=
  ∃ x t, s = x :: t ∧ isAsciiDigit x = true

lemma skip_append {X : Bytes} (hX : DigitAhead X) (q : Bytes) : skip (q ++ X) = skip q ++ X := by
  obtain ⟨x, t, rfl, hx⟩ := hX
  exact dropWhile_append_cons (by simp [isVersionChar_iff, hx]) q t

lemma letters_append {X : Bytes} (hX : DigitAhead X) (q : Bytes) :
    (q ++ X).takeWhile isAsciiAlphabetic = q.takeWhile isAsciiAlphabetic ∧
      (q ++ X).dropWhile isAsciiAlphabetic = q.dropWhile isAsciiAlphabetic ++ X := by
  obtain ⟨x, t, rfl, hx⟩ := hX
  have halpha := isAsciiAlphabetic_eq_false_of_digit hx
  exact ⟨takeWhile_append_cons halpha q t, dropWhile_append_cons halpha q t⟩

lemma number_append (hb : isAsciiDigit b = false) (r X : Bytes) :
    numberSpan (r ++ b :: X) = numberSpan (r ++ [b]) ∧
      dropNumber (r ++ b :: X) = dropNumber (r ++ [b]) ++ X := by
  have h0 : (b == 48) = false := by
    rw [beq_eq_false_iff_ne]
    rintro rfl
    exact absurd hb (by decide)
  have hzeros := fun X => dropWhile_append_cons (f := (· == 48)) h0 r X
  simp only [numberSpan, dropNumber, hzeros, takeWhile_append_cons hb, dropWhile_append_cons hb,
    append_assoc, singleton_append, and_self]

lemma versionStep_of_separator {a c s t : Bytes} {x : UInt8} (ha : skip a = x :: s)
    (hc : skip c = x :: t) (hx : x = 126 ∨ x = 45 ∨ x = 94 ∨ x = 46) :
    versionStep a c = .next s t := by
  simp only [versionStep, ha, hc]
  rcases hx with rfl | rfl | rfl | rfl <;> simp [separatorStep_cons]

lemma versionCompare_append_left {X Y : Bytes} (hX : DigitAhead X) (hY : DigitAhead Y)
    (p : Bytes) (hp : ∀ b, p.getLast? = some b → isAsciiDigit b = false) :
    versionCompare (p ++ X) (p ++ Y) = versionCompare X Y := by
  -- By induction on the length of the text: every turn moves both cursors by as much.
  induction hn : p.length using Nat.strong_induction_on generalizing p with
  | _ n ih =>
    subst hn
    have hsuffix : ∀ q : Bytes, q <:+ p → ∀ b, q.getLast? = some b → isAsciiDigit b = false := by
      rintro q ⟨r, rfl⟩ b hb
      exact hp b (by simp [getLast?_append, hb])
    have hsame : ∀ s : Bytes, compare s s = .eq := fun s => Std.ReflCmp.compare_self
    rw [← versionCompare_skip_left, ← versionCompare_skip_right, skip_append hX, skip_append hY]
    have hle : skip p <:+ p := dropWhile_suffix _
    cases hskip : skip p with
    | nil => rfl
    | cons x t =>
      rw [hskip] at hle
      have hlen := hle.length_le
      have hskips : ∀ {Z : Bytes}, DigitAhead Z → skip (x :: t ++ Z) = x :: (t ++ Z) := by
        intro Z hZ
        rw [skip_append hZ, ← hskip, skip_skip, hskip]
        rfl
      have hnext : ∀ q : Bytes, q <:+ x :: t → q.length < (x :: t).length →
          versionCompare (q ++ X) (q ++ Y) = versionCompare X Y := fun q hq hlt =>
        ih q.length (Nat.lt_of_lt_of_le hlt hlen) q (hsuffix q (hq.trans hle)) rfl
      obtain hm | hd | hl : (x = 126 ∨ x = 45 ∨ x = 94 ∨ x = 46) ∨ isAsciiDigit x = true ∨
          isAsciiAlphabetic x = true := by
        have hx := isVersionChar_iff.mp (isVersionChar_of_skip_eq_cons hskip)
        tauto
      · rw [versionCompare_of_next (versionStep_of_separator (hskips hX) (hskips hY) hm)]
        exact hnext t (suffix_cons x t) (Nat.lt_succ_self _)
      · obtain ⟨r, b, hr⟩ : ∃ r b, x :: t = r ++ [b] :=
          ⟨_, _, (dropLast_append_getLast (cons_ne_nil x t)).symm⟩
        have hb : isAsciiDigit b = false := hsuffix _ hle b (by rw [hr]; simp)
        rw [versionCompare_of_digit_left (hskips hX) hd (hskips hY)
          (isAsciiAlphanumeric_of_digit hd), ← cons_append, ← cons_append, hr,
          append_assoc, append_assoc, singleton_append, singleton_append,
          (number_append hb r X).1, (number_append hb r Y).1, (number_append hb r X).2,
          (number_append hb r Y).2, ← hr]
        have heq : numberCompare (numberSpan (x :: t)) (numberSpan (x :: t)) = .eq := by
          simp [numberCompare, compareLex, compareOn]
        rw [heq, Ordering.eq_then]
        exact hnext _ ((dropWhile_suffix _).trans (dropWhile_suffix _))
          (length_dropNumber_lt hd)
      · have halpha : isAsciiAlphanumeric x = true := by simp [isAsciiAlphanumeric, hl]
        have hstep := versionStep_of_alphanumeric (hskips hX) (hskips hY) halpha halpha
        rw [if_neg (by simp [isAsciiDigit_eq_false_of_alphabetic hl]), ← cons_append,
          ← cons_append, (letters_append hX _).1, (letters_append hY _).1,
          (letters_append hX _).2, (letters_append hY _).2] at hstep
        rw [versionCompare_of_spans hstep, hsame, Ordering.eq_then]
        exact hnext _ (dropWhile_suffix _) (length_dropLetters_lt hl)

end Shared

/-! ### Numbers at one place -/

lemma number_of_digits {d s : Bytes} (hd : ∀ b ∈ d, isAsciiDigit b = true)
    (hs : ∀ b, s.head? = some b → isAsciiDigit b = false) :
    numberSpan (d ++ s) = d.dropWhile (· == 48) ∧ dropNumber (d ++ s) = s := by
  have hzeros : (d ++ s).dropWhile (· == 48) = d.dropWhile (· == 48) ++ s := by
    cases s with
    | nil => simp
    | cons b s =>
      have hb := hs b rfl
      refine dropWhile_append_cons (f := (· == 48)) ?_ d s
      rw [beq_eq_false_iff_ne]
      rintro rfl
      exact absurd hb (by decide)
  have hdigits : ∀ b ∈ d.dropWhile (· == 48), isAsciiDigit b = true := fun b hb =>
    hd b ((dropWhile_suffix _).subset hb)
  have hrest : s.takeWhile isAsciiDigit = [] ∧ s.dropWhile isAsciiDigit = s := by
    cases s with
    | nil => simp
    | cons b s => simp [hs b rfl]
  rw [numberSpan, dropNumber, hzeros, takeWhile_append_of_pos hdigits,
    dropWhile_append_of_pos hdigits, hrest.1, hrest.2, append_nil]
  exact ⟨rfl, rfl⟩

lemma head?_dropZeros (d : Bytes) : (d.dropWhile (· == 48)).head? ≠ some 48 := by
  intro h
  have hnot := head?_dropWhile_not (fun b : UInt8 => b == 48) d
  rw [h] at hnot
  simp at hnot

lemma versionCompare_digits {p d e s t : Bytes}
    (hp : ∀ b, p.getLast? = some b → isAsciiDigit b = false)
    (hd : ∀ b ∈ d, isAsciiDigit b = true) (hd0 : d ≠ [])
    (he : ∀ b ∈ e, isAsciiDigit b = true) (he0 : e ≠ [])
    (hs : ∀ b, s.head? = some b → isAsciiDigit b = false)
    (ht : ∀ b, t.head? = some b → isAsciiDigit b = false) :
    versionCompare (p ++ (d ++ s)) (p ++ (e ++ t)) =
      (compare (numberValue d) (numberValue e)).then (versionCompare s t) := by
  obtain ⟨x, d', rfl⟩ := exists_cons_of_ne_nil hd0
  obtain ⟨y, e', rfl⟩ := exists_cons_of_ne_nil he0
  have hx := hd x mem_cons_self
  have hy := he y mem_cons_self
  have hskip : ∀ {z : UInt8} {r : Bytes}, isAsciiDigit z = true → skip (z :: r) = z :: r := by
    intro z r hz
    exact dropWhile_cons_of_neg (by simp [isVersionChar_iff, hz])
  rw [cons_append, cons_append,
    versionCompare_append_left ⟨x, d' ++ s, rfl, hx⟩ ⟨y, e' ++ t, rfl, hy⟩ p hp,
    versionCompare_of_digit_left (hskip hx) hx (hskip hy) (isAsciiAlphanumeric_of_digit hy)]
  have hleft := number_of_digits hd hs
  have hright := number_of_digits he ht
  rw [cons_append] at hleft hright
  have hsub : ∀ {d : Bytes}, (∀ b ∈ d, isAsciiDigit b = true) →
      ∀ b ∈ d.dropWhile (· == 48), isAsciiDigit b = true := fun hd b hb =>
    hd b ((dropWhile_suffix _).subset hb)
  rw [hleft.1, hleft.2, hright.1, hright.2,
    numberCompare_eq_compare (hsub hd) (hsub he) (head?_dropZeros _) (head?_dropZeros _),
    numberValue_dropZeros, numberValue_dropZeros]

/-! ### Texts -/

lemma isAsciiDigit_ofNat {c : Char} (hc : c.toNat ≤ 127) :
    isAsciiDigit (UInt8.ofNat c.toNat) = c.isDigit := by
  have hnat : (UInt8.ofNat c.toNat).toNat = c.toNat := by
    rw [UInt8.toNat_ofNat']
    omega
  rw [Bool.eq_iff_iff, isAsciiDigit_iff, hnat, Char.isDigit_iff_toNat]
  rfl

lemma isAsciiDigit_of_mem_utf8EncodeChar {c : Char} {b : UInt8}
    (hb : b ∈ String.utf8EncodeChar c) : isAsciiDigit b = c.isDigit := by
  by_cases hc : c.toNat ≤ 127
  · rw [utf8EncodeChar_of_le hc, mem_singleton] at hb
    rw [hb, isAsciiDigit_ofNat hc]
  · have hle := le_of_mem_utf8EncodeChar (Nat.lt_of_not_le hc) hb
    rw [Bool.eq_iff_iff, isAsciiDigit_iff, Char.isDigit_iff_toNat]
    constructor
    · rintro ⟨-, h⟩
      omega
    · rintro ⟨-, h⟩
      exact absurd (Nat.le_trans h (by decide)) hc

lemma isAsciiDigit_of_head? {s : Text} (hs : ∀ c, s.head? = some c → c.isDigit = false) (b : UInt8)
    (hb : (utf8 s).head? = some b) : isAsciiDigit b = false := by
  cases s with
  | nil => cases hb
  | cons c s =>
    rw [utf8, flatMap_cons, head?_append_of_ne_nil _ String.utf8EncodeChar_ne_nil] at hb
    rw [isAsciiDigit_of_mem_utf8EncodeChar (mem_of_mem_head? hb), hs c rfl]

lemma isAsciiDigit_of_getLast? {p : Text} (hp : ∀ c, p.getLast? = some c → c.isDigit = false)
    (b : UInt8) (hb : (utf8 p).getLast? = some b) : isAsciiDigit b = false := by
  rcases eq_nil_or_concat p with rfl | ⟨q, c, rfl⟩
  · cases hb
  · rw [utf8, concat_eq_append, flatMap_append, flatMap_singleton,
      getLast?_append_of_ne_nil _ String.utf8EncodeChar_ne_nil] at hb
    rw [isAsciiDigit_of_mem_utf8EncodeChar (mem_of_mem_getLast? hb), hp c (by simp)]

lemma numberValue_utf8 (d : Digits) : numberValue (utf8 d.text) = d.value := by
  have hfold : ∀ (t : Text) (n : Nat), (∀ c ∈ t, c.isDigit = true) →
      (utf8 t).foldl (fun n b => 10 * n + (b.toNat - 48)) n = Nat.ofDigitChars 10 t n := by
    intro t
    induction t with
    | nil => exact fun n _ => rfl
    | cons c t ih =>
      intro n ht
      have hc : c.toNat ≤ 57 := (Char.isDigit_iff_toNat.mp (ht c mem_cons_self)).2
      have hnat : (UInt8.ofNat c.toNat).toNat = c.toNat := by
        rw [UInt8.toNat_ofNat']
        omega
      rw [utf8, flatMap_cons, utf8EncodeChar_of_le (by omega), singleton_append,
        foldl_cons, hnat, Nat.ofDigitChars_cons]
      exact ih _ fun x hx => ht x (mem_cons_of_mem c hx)
  exact hfold d.text 0 d.isDigit

/-- **Numeric fields.** Between texts that do not continue them, digits compare as natural numbers
of any size; between equal numbers the texts behind them decide. -/
theorem versionCompareStr_digits (p : Text) (d₁ d₂ : Digits) (s₁ s₂ : Text)
    (hp : ∀ c, p.getLast? = some c → c.isDigit = false)
    (hs₁ : ∀ c, s₁.head? = some c → c.isDigit = false)
    (hs₂ : ∀ c, s₂.head? = some c → c.isDigit = false) :
    (d₁.value < d₂.value →
      versionCompareStr (p ++ d₁.text ++ s₁) (p ++ d₂.text ++ s₂) = .lt) ∧
    (d₂.value < d₁.value →
      versionCompareStr (p ++ d₁.text ++ s₁) (p ++ d₂.text ++ s₂) = .gt) ∧
    (d₁.value = d₂.value →
      versionCompareStr (p ++ d₁.text ++ s₁) (p ++ d₂.text ++ s₂) = versionCompareStr s₁ s₂) := by
  have hutf8 : ∀ (d : Digits) (s : Text),
      utf8 (p ++ d.text ++ s) = utf8 p ++ (utf8 d.text ++ utf8 s) := by
    intro d s
    simp only [utf8, flatMap_append, append_assoc]
  have hdigits : ∀ d : Digits, ∀ b ∈ utf8 d.text, isAsciiDigit b = true := by
    intro d b hb
    obtain ⟨c, hc, hb⟩ := mem_flatMap.mp hb
    rw [isAsciiDigit_of_mem_utf8EncodeChar hb, d.isDigit c hc]
  have hne : ∀ d : Digits, utf8 d.text ≠ [] := by
    intro d h
    obtain ⟨c, hc⟩ := exists_mem_of_ne_nil _ d.ne_nil
    exact String.utf8EncodeChar_ne_nil (flatMap_eq_nil_iff.mp h c hc)
  have heq : versionCompareStr (p ++ d₁.text ++ s₁) (p ++ d₂.text ++ s₂) =
      (compare d₁.value d₂.value).then (versionCompareStr s₁ s₂) := by
    rw [versionCompareStr, hutf8, hutf8, versionCompare_digits (isAsciiDigit_of_getLast? hp)
      (hdigits d₁) (hne d₁) (hdigits d₂) (hne d₂) (isAsciiDigit_of_head? hs₁)
      (isAsciiDigit_of_head? hs₂), numberValue_utf8, numberValue_utf8]
    rfl
  rw [heq]
  refine ⟨fun hlt => ?_, fun hgt => ?_, fun h => ?_⟩
  · rw [Nat.compare_eq_lt.mpr hlt, Ordering.lt_then]
  · rw [Nat.compare_eq_gt.mpr hgt, Ordering.gt_then]
  · rw [Nat.compare_eq_eq.mpr h, Ordering.eq_then]

/-- `6.09-1` against `6.10-2`. -/
theorem versionCompareStr_digits_of_minor :
    versionCompareStr "6.09-1" "6.10-2" = .lt :=
  (versionCompareStr_digits "6." ⟨"09", by decide, by decide⟩
    ⟨"10", by decide, by decide⟩ "-1" "-2" (by simp) (by simp) (by simp)).1
    (by decide)

end LamBoot
