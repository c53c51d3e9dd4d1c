import Mathlib.Data.List.DropRight
import LamBoot.Library.Bytes
import LamBoot.Library.Comparator

/-!
# Version comparison

`version_compare` of `bls_parse.rs`: the UAPI.10 comparison of boot entries. It walks two byte
strings with two cursors; a cursor is the suffix it points at.

The loop is not lexicographic over a fixed tokenisation: a run of zeros disappears when it meets a
letter, while any other run of digits is greater than every letter.
-/

namespace LamBoot

open List Bytes Comparator

/-! ### The loop -/

def isVersionChar (b : UInt8) : Bool :=
  isAsciiAlphanumeric b || b == 126 || b == 94 || b == 45 || b == 46

/-- The result of one turn of the loop: a decision, or the two cursors of the next turn. -/
inductive VersionStep where
  | done (o : Ordering)
  | next (a b : Bytes)
deriving DecidableEq, Repr

/-- The test shared by the separators `~`, `-`, `^` and `.`: the side that has the separator
sorts lower, and when both have it both cursors move past it. -/
def separatorStep (m : UInt8) (a b : Bytes) : Option VersionStep :=
  let aHas := a.head? == some m
  let bHas := b.head? == some m
  if aHas || bHas then
    if !aHas then some (.done .gt)
    else if !bHas then some (.done .lt)
    else some (.next a.tail b.tail)
  else none

def skip (s : Bytes) : Bytes :=
  s.dropWhile fun b => !isVersionChar b

/-- One turn of the loop of `version_compare`. -/
def versionStep (a b : Bytes) : VersionStep :=
  let a := skip a
  let b := skip b
  match separatorStep 126 a b with
  | some s => s
  | none =>
    match a, b with
    | [], [] => .done .eq
    | [], _ :: _ => .done .lt
    | _ :: _, [] => .done .gt
    | x :: a', y :: b' =>
      match (separatorStep 45 a b).or ((separatorStep 94 a b).or (separatorStep 46 a b)) with
      | some s => s
      | none =>
        if isAsciiDigit x || isAsciiDigit y then
          let a := a.dropWhile (· == 48)
          let b := b.dropWhile (· == 48)
          let aSpan := a.takeWhile isAsciiDigit
          let bSpan := b.takeWhile isAsciiDigit
          -- a longer number is bigger; spans of one length compare digit by digit
          match (compare aSpan.length bSpan.length).then (compare aSpan bSpan) with
          | .eq => .next (a.dropWhile isAsciiDigit) (b.dropWhile isAsciiDigit)
          | o => .done o
        else if isAsciiAlphabetic x || isAsciiAlphabetic y then
          match compare (a.takeWhile isAsciiAlphabetic) (b.takeWhile isAsciiAlphabetic) with
          | .eq => .next (a.dropWhile isAsciiAlphabetic) (b.dropWhile isAsciiAlphabetic)
          | o => .done o
        else .next a' b'

/-- The loop of `version_compare`, stopped after `fuel` turns. -/
def versionLoop : Nat → Bytes → Bytes → Option Ordering
  | 0, _, _ => none
  | fuel + 1, a, b =>
    match versionStep a b with
    | .done o => some o
    | .next a' b' => versionLoop fuel a' b'

/-! ### Every turn moves a cursor -/

lemma isVersionChar_iff {b : UInt8} :
    isVersionChar b = true ↔
      b = 126 ∨ b = 45 ∨ b = 94 ∨ b = 46 ∨ isAsciiDigit b = true ∨ isAsciiAlphabetic b = true := by
  simp only [isVersionChar, isAsciiAlphanumeric, Bool.or_eq_true, beq_iff_eq]
  tauto

lemma length_skip_le (s : Bytes) : (skip s).length ≤ s.length :=
  (dropWhile_suffix _).length_le

variable {x : UInt8}

lemma isVersionChar_of_skip_eq_cons {s t : Bytes} (h : skip s = x :: t) :
    isVersionChar x = true := by
  have hx := head?_dropWhile_not (fun b => !isVersionChar b) s
  rw [← skip, h] at hx
  simpa using hx

lemma skip_skip (s : Bytes) : skip (skip s) = skip s :=
  dropWhile_idempotent _ s

variable {a b a' b' : Bytes}

lemma separatorStep_eq_next {m : UInt8}
    (h : separatorStep m a b = some (.next a' b')) : a = m :: a' ∧ b = m :: b' := by
  simp only [separatorStep] at h
  by_cases ha : a.head? = some m
  · by_cases hb : b.head? = some m
    · obtain ⟨s, rfl⟩ := head?_eq_some_iff.mp ha
      obtain ⟨t, rfl⟩ := head?_eq_some_iff.mp hb
      simpa using h
    · simp [ha, hb] at h
  · simp [ha] at h

def numberSpan (s : Bytes) : Bytes :=
  (s.dropWhile (· == 48)).takeWhile isAsciiDigit

def dropNumber (s : Bytes) : Bytes :=
  (s.dropWhile (· == 48)).dropWhile isAsciiDigit

lemma length_dropNumber_le (s : Bytes) : (dropNumber s).length ≤ s.length :=
  ((dropWhile_suffix _).trans (dropWhile_suffix _)).length_le

variable {s : Bytes}

lemma length_dropNumber_lt (hx : isAsciiDigit x = true) :
    (dropNumber (x :: s)).length < (x :: s).length := by
  by_cases h0 : x = 48
  · have hle := length_dropNumber_le s
    simp only [dropNumber, h0, dropWhile_cons, beq_self_eq_true, if_true] at hle ⊢
    simpa using Nat.lt_succ_of_le hle
  · have hle := (dropWhile_suffix isAsciiDigit (l := s)).length_le
    simp only [dropNumber, dropWhile_cons, beq_iff_eq, h0, if_false, hx, if_true]
    simpa using Nat.lt_succ_of_le hle

lemma length_dropLetters_lt (hx : isAsciiAlphabetic x = true) :
    ((x :: s).dropWhile isAsciiAlphabetic).length < (x :: s).length := by
  rw [dropWhile_cons_of_pos hx, length_cons]
  exact Nat.lt_succ_of_le (dropWhile_suffix _).length_le

variable {x y : UInt8}

lemma length_add_lt_of_span {f : Bytes → Bytes} {p : UInt8 → Bool}
    (hle : ∀ s, (f s).length ≤ s.length)
    (hlt : ∀ {s x}, p x = true → (f (x :: s)).length < (x :: s).length)
    {s t : Bytes} (h : (p x || p y) = true) :
    (f (x :: s)).length + (f (y :: t)).length < (x :: s).length + (y :: t).length := by
  rcases Bool.or_eq_true_iff.mp h with hx | hy
  · exact Nat.add_lt_add_of_lt_of_le (hlt hx) (hle _)
  · exact Nat.add_lt_add_of_le_of_lt (hle _) (hlt hy)

lemma length_add_lt_of_separator {m : UInt8}
    (h : separatorStep m a b = some (.next a' b')) :
    a'.length + b'.length < a.length + b.length := by
  obtain ⟨rfl, rfl⟩ := separatorStep_eq_next h
  simp only [length_cons]
  omega

lemma versionStep_next_length (h : versionStep a b = .next a' b') :
    a'.length + b'.length < a.length + b.length := by
  refine Nat.lt_of_lt_of_le ?_ (Nat.add_le_add (length_skip_le a) (length_skip_le b))
  simp only [versionStep] at h
  generalize skip a = s at h ⊢
  generalize skip b = t at h ⊢
  split at h
  · next st hst => exact length_add_lt_of_separator (h ▸ hst)
  · split at h
    · cases h
    · cases h
    · cases h
    · next x s y t _ =>
      split at h
      · next st hst =>
        rw [h, Option.or_eq_some_iff, Option.or_eq_some_iff] at hst
        rcases hst with hst | ⟨-, hst | ⟨-, hst⟩⟩
        · exact length_add_lt_of_separator hst
        · exact length_add_lt_of_separator hst
        · exact length_add_lt_of_separator hst
      · split_ifs at h with hd hl
        · split at h
          · cases h
            exact length_add_lt_of_span length_dropNumber_le length_dropNumber_lt hd
          · cases h
        · split at h
          · cases h
            exact length_add_lt_of_span (fun s => (dropWhile_suffix _).length_le)
              length_dropLetters_lt hl
          · cases h
        · cases h
          simp only [length_cons]
          omega

def versionCompare (a b : Bytes) : Ordering :=
  match _h : versionStep a b with
  | .done o => o
  | .next a' b' => versionCompare a' b'
termination_by a.length + b.length
decreasing_by exact versionStep_next_length _h

variable {a b : Bytes}

lemma versionCompare_of_done {o : Ordering} (h : versionStep a b = .done o) :
    versionCompare a b = o := by
  rw [versionCompare]
  split <;> simp_all

lemma versionCompare_of_next (h : versionStep a b = .next a' b') :
    versionCompare a b = versionCompare a' b' := by
  rw [versionCompare]
  split <;> simp_all

lemma versionLoop_eq_versionCompare {fuel : Nat} (h : a.length + b.length < fuel) :
    versionLoop fuel a b = some (versionCompare a b) := by
  induction fuel generalizing a b with
  | zero => omega
  | succ fuel ih =>
    cases hst : versionStep a b with
    | done o => simp [versionLoop, hst, versionCompare_of_done hst]
    | next a' b' =>
      have hlt := versionStep_next_length hst
      simp only [versionLoop, hst, versionCompare_of_next hst]
      exact ih (by omega)

/-! ### Leading segments -/

/-- The segment at the head of a string, past the skipped characters. -/
inductive Segment where
  | tilde
  | stop
  | dash
  | caret
  | dot
  | zeros
  | letters (span : Bytes)
  | number (span : Bytes)

/-- The rank of a segment. Zeros and letters share one: they are compared by what follows the
zeros. -/
def Segment.rank : Segment → Nat
  | .tilde => 0
  | .stop => 1
  | .dash => 2
  | .caret => 3
  | .dot => 4
  | .zeros | .letters _ => 5
  | .number _ => 6

def lead (s : Bytes) : Segment × Bytes :=
  match skip s with
  | [] => (.stop, [])
  | x :: t =>
    if x = 126 then (.tilde, t)
    else if x = 45 then (.dash, t)
    else if x = 94 then (.caret, t)
    else if x = 46 then (.dot, t)
    else if isAsciiDigit x then
      if numberSpan (x :: t) = [] then (.zeros, dropNumber (x :: t))
      else (.number (numberSpan (x :: t)), dropNumber (x :: t))
    else (.letters ((x :: t).takeWhile isAsciiAlphabetic), (x :: t).dropWhile isAsciiAlphabetic)

/-- How two strings of equal rank compare: `zeros` against `letters` drops the zeros only. -/
def compareRest (a b : Bytes) : Ordering :=
  match (lead a).1, (lead b).1 with
  | .stop, _ => .eq
  | .letters _, .zeros => versionCompare a (lead b).2
  | .zeros, .letters _ => versionCompare (lead a).2 b
  | .letters s, .letters t => (compare s t).then (versionCompare (lead a).2 (lead b).2)
  | .number d, .number e =>
    ((compare d.length e.length).then (compare d e)).then (versionCompare (lead a).2 (lead b).2)
  | _, _ => versionCompare (lead a).2 (lead b).2

lemma separators_ne_of_alphanumeric (h : isAsciiAlphanumeric x = true) :
    x ≠ 126 ∧ x ≠ 45 ∧ x ≠ 94 ∧ x ≠ 46 := by
  refine ⟨?_, ?_, ?_, ?_⟩ <;> rintro rfl <;> exact absurd h (by decide)

lemma versionCompare_eq_step (a b : Bytes) :
    versionCompare a b =
      match versionStep a b with
      | .done o => o
      | .next a' b' => versionCompare a' b' := by
  split
  · next h => exact versionCompare_of_done h
  · next h => exact versionCompare_of_next h

/-- The forms the head of a string can take, past the skipped characters. -/
inductive LeadView (s : Bytes) : Segment × Bytes → Prop where
  | stop (h : skip s = []) : LeadView s (.stop, [])
  | tilde (t : Bytes) (h : skip s = 126 :: t) : LeadView s (.tilde, t)
  | dash (t : Bytes) (h : skip s = 45 :: t) : LeadView s (.dash, t)
  | caret (t : Bytes) (h : skip s = 94 :: t) : LeadView s (.caret, t)
  | dot (t : Bytes) (h : skip s = 46 :: t) : LeadView s (.dot, t)
  | zeros (x : UInt8) (t : Bytes) (h : skip s = x :: t) (hx : isAsciiDigit x = true)
      (hz : numberSpan (x :: t) = []) :
      LeadView s (.zeros, dropNumber (x :: t))
  | number (x : UInt8) (t : Bytes) (h : skip s = x :: t) (hx : isAsciiDigit x = true)
      (hz : numberSpan (x :: t) ≠ []) :
      LeadView s (.number (numberSpan (x :: t)), dropNumber (x :: t))
  | letters (x : UInt8) (t : Bytes) (h : skip s = x :: t) (hx : isAsciiAlphabetic x = true) :
      LeadView s (.letters ((x :: t).takeWhile isAsciiAlphabetic),
        (x :: t).dropWhile isAsciiAlphabetic)

lemma isAsciiDigit_eq_false_of_alphabetic (h : isAsciiAlphabetic x = true) :
    isAsciiDigit x = false := by
  by_contra hd
  simp [isAsciiAlphabetic_eq_false_of_digit (Bool.not_eq_false _ ▸ hd)] at h

lemma leadView (s : Bytes) : LeadView s (lead s) := by
  cases h : skip s with
  | nil =>
    simp only [lead, h]
    exact .stop h
  | cons x t =>
    simp only [lead, h]
    rcases isVersionChar_iff.mp (isVersionChar_of_skip_eq_cons h) with
      rfl | rfl | rfl | rfl | hd | hl
    · exact .tilde t h
    · exact .dash t h
    · exact .caret t h
    · exact .dot t h
    · obtain ⟨h1, h2, h3, h4⟩ := separators_ne_of_alphanumeric (x := x) (by
        simp [isAsciiAlphanumeric, hd])
      simp only [h1, h2, h3, h4, hd, if_false, if_true]
      split_ifs with hz
      · exact .zeros x t h hd hz
      · exact .number x t h hd hz
    · obtain ⟨h1, h2, h3, h4⟩ := separators_ne_of_alphanumeric (x := x) (by
        simp [isAsciiAlphanumeric, hl])
      simp only [h1, h2, h3, h4, isAsciiDigit_eq_false_of_alphabetic hl, if_false,
        Bool.false_eq_true]
      exact .letters x t h hl

lemma versionCompare_skip_left (a b : Bytes) : versionCompare (skip a) b = versionCompare a b := by
  rw [versionCompare_eq_step, versionCompare_eq_step a b]
  simp only [versionStep, skip_skip]

lemma versionCompare_skip_right (a b : Bytes) :
    versionCompare a (skip b) = versionCompare a b := by
  rw [versionCompare_eq_step, versionCompare_eq_step a b]
  simp only [versionStep, skip_skip]

def headRank : Bytes → Nat
  | [] => 1
  | x :: _ =>
    if x = 126 then 0 else if x = 45 then 2 else if x = 94 then 3 else if x = 46 then 4 else 5

lemma separatorStep_cons (m x y : UInt8) (s t : Bytes) :
    separatorStep m (x :: s) (y :: t) =
      if x = m then if y = m then some (.next s t) else some (.done .lt)
      else if y = m then some (.done .gt) else none := by
  simp only [separatorStep, head?_cons, tail_cons]
  by_cases hx : x = m <;> by_cases hy : y = m <;> simp [hx, hy]

lemma versionStep_of_headRank_lt (h : headRank (skip a) < headRank (skip b)) :
    versionStep a b = .done .lt ∧ versionStep b a = .done .gt := by
  simp only [versionStep]
  generalize skip a = s at h
  generalize skip b = t at h
  cases s with
  | nil =>
    cases t with
    | nil => exact absurd h (lt_irrefl _)
    | cons y t =>
      have hy : y ≠ 126 := by
        rintro rfl
        simp [headRank] at h
      simp [separatorStep, hy]
  | cons x s =>
    cases t with
    | nil =>
      have hx : x = 126 := by
        by_contra hx
        simp only [headRank, hx, if_false] at h
        split_ifs at h <;> omega
      simp [separatorStep, hx]
    | cons y t =>
      simp only [headRank] at h
      split_ifs at h <;> simp_all [separatorStep_cons]

variable {a b s t : Bytes}

lemma versionStep_of_alphanumeric (ha : skip a = x :: s)
    (hb : skip b = y :: t) (hx : isAsciiAlphanumeric x = true)
    (hy : isAsciiAlphanumeric y = true) :
    versionStep a b =
      if isAsciiDigit x || isAsciiDigit y then
        match (compare (numberSpan (x :: s)).length (numberSpan (y :: t)).length).then
          (compare (numberSpan (x :: s)) (numberSpan (y :: t))) with
        | .eq => .next (dropNumber (x :: s)) (dropNumber (y :: t))
        | o => .done o
      else
        match compare ((x :: s).takeWhile isAsciiAlphabetic)
          ((y :: t).takeWhile isAsciiAlphabetic) with
        | .eq =>
          .next ((x :: s).dropWhile isAsciiAlphabetic) ((y :: t).dropWhile isAsciiAlphabetic)
        | o => .done o := by
  obtain ⟨hx1, hx2, hx3, hx4⟩ := separators_ne_of_alphanumeric hx
  obtain ⟨hy1, hy2, hy3, hy4⟩ := separators_ne_of_alphanumeric hy
  simp only [versionStep, ha, hb, separatorStep_cons, hx1, hx2, hx3, hx4, hy1, hy2, hy3, hy4,
    if_false, Option.or_none]
  by_cases hd : (isAsciiDigit x || isAsciiDigit y) = true
  · simp only [hd, if_true]
    rfl
  · have hl : (isAsciiAlphabetic x || isAsciiAlphabetic y) = true := by
      simp only [Bool.or_eq_true, not_or, Bool.not_eq_true] at hd
      simp only [isAsciiAlphanumeric, hd.1, Bool.or_false] at hx
      simp [hx]
    simp only [hd, hl, if_true, if_false, Bool.false_eq_true]

lemma versionCompare_of_spans {o : Ordering}
    (h : versionStep a b = match o with | .eq => .next a' b' | o => .done o) :
    versionCompare a b = o.then (versionCompare a' b') := by
  cases o with
  | eq => exact versionCompare_of_next h
  | lt => exact versionCompare_of_done h
  | gt => exact versionCompare_of_done h

/-- Two numbers without leading zeros: the longer one is greater, and of one length the digits
decide. -/
def numberCompare : Bytes → Bytes → Ordering :=
  compareLex (compareOn length) compare

lemma versionCompare_of_digit (ha : skip a = x :: s)
    (hb : skip b = y :: t) (hx : isAsciiAlphanumeric x = true)
    (hy : isAsciiAlphanumeric y = true) (hd : (isAsciiDigit x || isAsciiDigit y) = true) :
    versionCompare a b =
      (numberCompare (numberSpan (x :: s)) (numberSpan (y :: t))).then
        (versionCompare (dropNumber (x :: s)) (dropNumber (y :: t))) := by
  apply versionCompare_of_spans
  rw [versionStep_of_alphanumeric ha hb hx hy, if_pos hd]
  rfl

lemma versionCompare_of_digit_left (ha : skip a = x :: s)
    (hx : isAsciiDigit x = true) (hb : skip b = y :: t) (hy : isAsciiAlphanumeric y = true) :
    versionCompare a b =
      (numberCompare (numberSpan (x :: s)) (numberSpan (y :: t))).then
        (versionCompare (dropNumber (x :: s)) (dropNumber (y :: t))) :=
  versionCompare_of_digit ha hb (isAsciiAlphanumeric_of_digit hx) hy (by simp [hx])

lemma versionCompare_of_digit_right (ha : skip a = x :: s)
    (hx : isAsciiAlphanumeric x = true) (hb : skip b = y :: t) (hy : isAsciiDigit y = true) :
    versionCompare a b =
      (numberCompare (numberSpan (x :: s)) (numberSpan (y :: t))).then
        (versionCompare (dropNumber (x :: s)) (dropNumber (y :: t))) :=
  versionCompare_of_digit ha hb hx (isAsciiAlphanumeric_of_digit hy) (by simp [hy])

lemma number_of_alphabetic (hx : isAsciiAlphabetic x = true) (t : Bytes) :
    numberSpan (x :: t) = [] ∧ dropNumber (x :: t) = x :: t := by
  have h0 : x ≠ 48 := by
    rintro rfl
    exact absurd hx (by decide)
  simp [numberSpan, dropNumber, h0, isAsciiDigit_eq_false_of_alphabetic hx]

lemma numberCompare_nil_right {d : Bytes} (hd : d ≠ []) : numberCompare d [] = .gt := by
  have : compare d.length 0 = .gt := Nat.compare_eq_gt.mpr (length_pos_iff.mpr hd)
  simp [numberCompare, compareLex, compareOn, this]

lemma numberCompare_nil_left {d : Bytes} (hd : d ≠ []) : numberCompare [] d = .lt := by
  have : compare 0 d.length = .lt := Nat.compare_eq_lt.mpr (length_pos_iff.mpr hd)
  simp [numberCompare, compareLex, compareOn, this]

lemma headRank_skip (s : Bytes) : headRank (skip s) = min 5 (lead s).1.rank := by
  have v := leadView s
  generalize lead s = l at v
  cases v with
  | stop h | tilde t h | dash t h | caret t h | dot t h => simp [h, headRank, Segment.rank]
  | zeros x t h hx | number x t h hx | letters x t h hx =>
    obtain ⟨h1, h2, h3, h4⟩ := separators_ne_of_alphanumeric (x := x) (by
      simp [isAsciiAlphanumeric, hx])
    simp [h, headRank, h1, h2, h3, h4, Segment.rank]

lemma versionCompare_of_headRank_eq (heq : headRank (skip a) = headRank (skip b)) :
    versionCompare a b =
      (compare (lead a).1.rank (lead b).1.rank).then (compareRest a b) := by
  rw [headRank_skip, headRank_skip] at heq
  have va := leadView a
  have vb := leadView b
  simp only [compareRest]
  generalize lead a = la at va heq
  generalize lead b = lb at vb heq
  cases va <;> cases vb <;> try exact absurd heq (Nat.ne_of_beq_eq_false rfl)
  case stop.stop ha hb =>
    exact versionCompare_of_done (by simp [versionStep, ha, hb, separatorStep])
  case tilde.tilde ha _ hb | dash.dash ha _ hb | caret.caret ha _ hb | dot.dot ha _ hb =>
    exact versionCompare_of_next (by simp [versionStep, ha, hb, separatorStep_cons])
  case letters.letters x s ha hx y t hb hy =>
    apply versionCompare_of_spans
    rw [versionStep_of_alphanumeric ha hb (isAsciiAlphanumeric_of_alphabetic hx)
      (isAsciiAlphanumeric_of_alphabetic hy), if_neg (by
        simp [isAsciiDigit_eq_false_of_alphabetic hx, isAsciiDigit_eq_false_of_alphabetic hy])]
  -- in the other pairs there is a digit, so both sides are read as numbers
  case zeros.zeros x s ha hx hz y t hb hy hw =>
    rw [versionCompare_of_digit_left ha hx hb (isAsciiAlphanumeric_of_digit hy), hz, hw]
    rfl
  case zeros.number x s ha hx hz y t hb hy hw =>
    rw [versionCompare_of_digit_left ha hx hb (isAsciiAlphanumeric_of_digit hy), hz,
      numberCompare_nil_left hw]
    rfl
  case number.zeros x s ha hx hz y t hb hy hw =>
    rw [versionCompare_of_digit_left ha hx hb (isAsciiAlphanumeric_of_digit hy), hw,
      numberCompare_nil_right hz]
    rfl
  case number.number x s ha hx hz y t hb hy hw =>
    exact versionCompare_of_digit_left ha hx hb (isAsciiAlphanumeric_of_digit hy)
  case zeros.letters x s ha hx hz y t hb hy =>
    rw [versionCompare_of_digit_left ha hx hb (isAsciiAlphanumeric_of_alphabetic hy), hz,
      (number_of_alphabetic hy t).1, (number_of_alphabetic hy t).2, ← hb, versionCompare_skip_right]
    rfl
  case number.letters x s ha hx hz y t hb hy =>
    rw [versionCompare_of_digit_left ha hx hb (isAsciiAlphanumeric_of_alphabetic hy),
      (number_of_alphabetic hy t).1, numberCompare_nil_right hz]
    rfl
  case letters.zeros x s ha hx y t hb hy hw =>
    rw [versionCompare_of_digit_right ha (isAsciiAlphanumeric_of_alphabetic hx) hb hy, hw,
      (number_of_alphabetic hx s).1, (number_of_alphabetic hx s).2, ← ha, versionCompare_skip_left]
    rfl
  case letters.number x s ha hx y t hb hy hw =>
    rw [versionCompare_of_digit_right ha (isAsciiAlphanumeric_of_alphabetic hx) hb hy,
      (number_of_alphabetic hx s).1, numberCompare_nil_left hw]
    rfl

lemma versionCompare_eq_lead (a b : Bytes) :
    versionCompare a b =
      (compare (lead a).1.rank (lead b).1.rank).then (compareRest a b) := by
  have hra := headRank_skip a
  have hrb := headRank_skip b
  rcases lt_trichotomy (headRank (skip a)) (headRank (skip b)) with hlt | heq | hgt
  · rw [versionCompare_of_done (versionStep_of_headRank_lt hlt).1, Nat.compare_eq_lt.mpr (by omega)]
    rfl
  · exact versionCompare_of_headRank_eq heq
  · rw [versionCompare_of_done (versionStep_of_headRank_lt hgt).2, Nat.compare_eq_gt.mpr (by omega)]
    rfl

/-! ### The laws of the comparison -/

lemma length_lead_le (s : Bytes) : (lead s).2.length ≤ s.length := by
  have v := leadView s
  have hs := length_skip_le s
  generalize lead s = l at v
  cases v with
  | stop h => exact Nat.zero_le _
  | tilde t h | dash t h | caret t h | dot t h =>
    rw [h, length_cons] at hs
    exact Nat.le_of_succ_le hs
  | zeros x t h hx | number x t h hx => exact (length_dropNumber_le _).trans (h ▸ hs)
  | letters x t h hx => exact (dropWhile_suffix _).length_le.trans (h ▸ hs)

lemma length_lead_lt (hs : (lead s).1 ≠ .stop) : (lead s).2.length < s.length := by
  have v := leadView s
  have hle := length_skip_le s
  generalize lead s = l at v hs
  cases v with
  | stop h => exact absurd rfl hs
  | tilde t h | dash t h | caret t h | dot t h =>
    rw [h, length_cons] at hle
    exact hle
  | zeros x t h hx | number x t h hx => exact (length_dropNumber_lt hx).trans_le (h ▸ hle)
  | letters x t h hx => exact (length_dropLetters_lt hx).trans_le (h ▸ hle)

def body (s : Bytes) : Bytes :=
  match (lead s).1 with
  | .zeros => (lead s).2
  | _ => s

lemma length_body_le (s : Bytes) : (body s).length ≤ s.length := by
  unfold body
  split
  · exact length_lead_le s
  · exact le_rfl

lemma length_body_lt (h : (lead s).1 = .zeros) : (body s).length < s.length := by
  have hlt := length_lead_lt (s := s) (by simp [h])
  simpa only [body, h] using hlt

variable {g : Segment}

lemma Segment.rank_eq_five (h : g.rank = 5) : g = .zeros ∨ ∃ s, g = .letters s := by
  cases g <;> simp [Segment.rank] at h ⊢

lemma Segment.rank_eq_six (h : g.rank = 6) : ∃ d, g = .number d := by
  cases g <;> simp [Segment.rank] at h ⊢

lemma Segment.rank_eq_one (h : g.rank = 1) : g = .stop := by
  cases g <;> simp [Segment.rank] at h ⊢

lemma compareRest_of_stop (ha : (lead a).1 = .stop) : compareRest a b = .eq := by
  simp only [compareRest, ha]

lemma compareRest_of_number {a b d e : Bytes} (ha : (lead a).1 = .number d)
    (hb : (lead b).1 = .number e) :
    compareRest a b = (numberCompare d e).then (versionCompare (lead a).2 (lead b).2) := by
  simp only [compareRest, ha, hb]
  rfl

lemma compareRest_of_letters (ha : (lead a).1 = .letters s)
    (hb : (lead b).1 = .letters t) :
    compareRest a b = (compare s t).then (versionCompare (lead a).2 (lead b).2) := by
  simp only [compareRest, ha, hb]

lemma compareRest_of_separator (h : (lead a).1.rank = (lead b).1.rank)
    (hlt : (lead a).1.rank < 5) (hne : (lead a).1.rank ≠ 1) :
    compareRest a b = versionCompare (lead a).2 (lead b).2 := by
  simp only [compareRest]
  cases ha : (lead a).1 <;> cases hb : (lead b).1 <;> simp_all [Segment.rank]

lemma compareRest_of_body (ha : (lead a).1.rank = 5) (hb : (lead b).1.rank = 5) :
    compareRest a b = versionCompare (body a) (body b) := by
  rcases Segment.rank_eq_five ha with ha' | ⟨s, ha'⟩ <;>
    rcases Segment.rank_eq_five hb with hb' | ⟨t, hb'⟩
  · simp only [compareRest, body, ha', hb']
  · simp only [compareRest, body, ha', hb']
  · simp only [compareRest, body, ha', hb']
  · simp only [body, ha', hb']
    rw [versionCompare_eq_lead a b, ha, hb]
    rfl

lemma Segment.rank_cases (g : Segment) :
    (g.rank < 5 ∧ g.rank ≠ 1) ∨ g.rank = 1 ∨ g.rank = 5 ∨ g.rank = 6 := by
  cases g <;> simp [Segment.rank]

lemma Segment.ne_stop_of_rank (h : g.rank ≠ 1) : g ≠ .stop := by
  rintro rfl
  exact h rfl

instance : Std.TransCmp numberCompare :=
  inferInstanceAs (Std.TransCmp (compareLex (compareOn length) compare))

lemma letters_of_length_body (h : (lead s).1.rank = 5)
    (hb : s.length ≤ (body s).length) : ∃ span, (lead s).1 = .letters span := by
  rcases Segment.rank_eq_five h with hz | hl
  · exact absurd (length_body_lt hz) (not_lt.mpr hb)
  · exact hl

lemma compareRest_swap (hr : (lead a).1.rank = (lead b).1.rank)
    (ih : ∀ a' b' : Bytes, a'.length + b'.length < a.length + b.length →
      versionCompare a' b' = (versionCompare b' a').swap) :
    compareRest a b = (compareRest b a).swap := by
  have hla := length_lead_le a
  rcases (lead a).1.rank_cases with ⟨hlt, hne⟩ | h1 | h5 | h6
  · have hb := length_lead_lt (s := b) (Segment.ne_stop_of_rank (hr ▸ hne))
    rw [compareRest_of_separator hr hlt hne, compareRest_of_separator hr.symm (hr ▸ hlt) (hr ▸ hne)]
    exact ih _ _ (by omega)
  · rw [compareRest_of_stop (Segment.rank_eq_one h1),
      compareRest_of_stop (Segment.rank_eq_one (hr ▸ h1))]
    rfl
  · have hba := length_body_le a
    have hbb := length_body_le b
    by_cases hz : (body a).length + (body b).length < a.length + b.length
    · rw [compareRest_of_body h5 (hr ▸ h5), compareRest_of_body (hr ▸ h5) h5]
      exact ih _ _ hz
    · obtain ⟨s, ha⟩ := letters_of_length_body h5 (by omega)
      obtain ⟨t, hb⟩ := letters_of_length_body (hr ▸ h5) (by omega)
      have hlb := length_lead_lt (s := b) (by simp [hb])
      rw [compareRest_of_letters ha hb, compareRest_of_letters hb ha, Ordering.swap_then,
        ← Std.OrientedCmp.eq_swap, ← ih _ _ (by omega)]
  · obtain ⟨d, ha⟩ := Segment.rank_eq_six h6
    obtain ⟨e, hb⟩ := Segment.rank_eq_six (hr ▸ h6)
    have hlb := length_lead_lt (s := b) (by simp [hb])
    rw [compareRest_of_number ha hb, compareRest_of_number hb ha, Ordering.swap_then,
      ← Std.OrientedCmp.eq_swap, ← ih _ _ (by omega)]

lemma versionCompare_swap (a b : Bytes) : versionCompare a b = (versionCompare b a).swap := by
  induction hn : a.length + b.length using Nat.strong_induction_on generalizing a b with
  | _ n ih =>
    subst hn
    rw [versionCompare_eq_lead a b, versionCompare_eq_lead b a, Ordering.swap_then,
      ← Std.OrientedCmp.eq_swap]
    rcases eq_or_ne (lead a).1.rank (lead b).1.rank with hr | hr
    · rw [compareRest_swap hr fun a' b' h => ih _ h a' b' rfl]
    · cases hc : compare (lead a).1.rank (lead b).1.rank with
      | eq => exact absurd (Nat.compare_eq_eq.mp hc) hr
      | lt | gt => rfl

lemma compareRest_trans {a b c : Bytes} (hab : (lead a).1.rank = (lead b).1.rank)
    (hbc : (lead b).1.rank = (lead c).1.rank)
    (ih : ∀ a' b' c' : Bytes,
      a'.length + b'.length + c'.length < a.length + b.length + c.length →
        TransAt versionCompare a' b' c') :
    TransAt compareRest a b c := by
  have hac := hab.trans hbc
  have hla := length_lead_le a
  have hlb := length_lead_le b
  rcases (lead a).1.rank_cases with ⟨hlt, hne⟩ | h1 | h5 | h6
  · have hlc := length_lead_lt (s := c) (Segment.ne_stop_of_rank (hac ▸ hne))
    rw [TransAt, compareRest_of_separator hab hlt hne, compareRest_of_separator hac hlt hne,
      compareRest_of_separator hbc (hab ▸ hlt) (hab ▸ hne)]
    exact ih _ _ _ (by omega)
  · intro _ _
    rw [compareRest_of_stop (Segment.rank_eq_one h1)]
    rfl
  · have h5b := hab ▸ h5
    have h5c := hac ▸ h5
    by_cases hz : (body a).length + (body b).length + (body c).length <
        a.length + b.length + c.length
    · rw [TransAt, compareRest_of_body h5 h5b, compareRest_of_body h5b h5c,
        compareRest_of_body h5 h5c]
      exact ih _ _ _ hz
    · have hba := length_body_le a
      have hbb := length_body_le b
      have hbc := length_body_le c
      obtain ⟨s, ha⟩ := letters_of_length_body h5 (by omega)
      obtain ⟨t, hb⟩ := letters_of_length_body h5b (by omega)
      obtain ⟨u, hc⟩ := letters_of_length_body h5c (by omega)
      have hlc := length_lead_lt (s := c) (by simp [hc])
      rw [TransAt, compareRest_of_letters ha hb, compareRest_of_letters hb hc,
        compareRest_of_letters ha hc]
      exact isLE_then_trans fun _ _ => ih _ _ _ (by omega)
  · obtain ⟨d, ha⟩ := Segment.rank_eq_six h6
    obtain ⟨e, hb⟩ := Segment.rank_eq_six (hab ▸ h6)
    obtain ⟨f, hc⟩ := Segment.rank_eq_six (hac ▸ h6)
    have hlc := length_lead_lt (s := c) (by simp [hc])
    rw [TransAt, compareRest_of_number ha hb, compareRest_of_number hb hc,
      compareRest_of_number ha hc]
    exact isLE_then_trans fun _ _ => ih _ _ _ (by omega)

lemma versionCompare_trans (a b c : Bytes) : TransAt versionCompare a b c := by
  induction hn : a.length + b.length + c.length using Nat.strong_induction_on
    generalizing a b c with
  | _ n ih =>
    subst hn
    rw [TransAt, versionCompare_eq_lead a b, versionCompare_eq_lead b c, versionCompare_eq_lead a c]
    refine isLE_then_trans fun hab hbc => ?_
    exact compareRest_trans (Nat.compare_eq_eq.mp hab) (Nat.compare_eq_eq.mp hbc)
      fun a' b' c' h => ih _ h a' b' c' rfl

/-- `version_compare` can be sorted with. -/
instance : Std.TransCmp versionCompare where
  eq_swap := versionCompare_swap _ _
  isLE_trans := versionCompare_trans _ _ _

/-- `version_compare` decides every pair of byte strings, swapping its arguments reverses its
answer, and "not greater" is transitive. -/
theorem versionCompare_total_preorder (a b c : Bytes) :
    (∀ fuel, a.length + b.length < fuel → versionLoop fuel a b = some (versionCompare a b)) ∧
      versionCompare a b = (versionCompare b a).swap ∧
      (versionCompare a b ≠ .gt → versionCompare b c ≠ .gt → versionCompare a c ≠ .gt) := by
  refine ⟨fun fuel h => versionLoop_eq_versionCompare h, versionCompare_swap a b, ?_⟩
  simpa only [TransAt, Ordering.isLE_iff_ne_gt] using versionCompare_trans a b c

end LamBoot
