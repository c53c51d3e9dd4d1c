import Mathlib.Data.List.DropRight
import Mathlib.Data.List.Infix
import LamBoot.Library.Bytes

/-!
# Text

Strings as lists of characters, with the operations of Rust's `str` under their Rust meaning:
`trim` removes Unicode white space, `lines` removes the line terminators and a carriage return
before a line feed, `cmp` is the order of the UTF-8 encodings.
-/

abbrev Text := List Char

instance : Coe String Text where
  coe := String.toList

instance : LawfulBEq Text :=
  inferInstance

namespace Text

open List

/-- `as_bytes`. -/
def utf8 (s : Text) : Bytes :=
  s.flatMap String.utf8EncodeChar

variable {c : Char}

lemma utf8EncodeChar_of_le (hc : c.toNat ≤ 127) :
    String.utf8EncodeChar c = [UInt8.ofNat c.toNat] :=
  if_pos hc

lemma le_of_mem_utf8EncodeChar {b : UInt8} (hc : 127 < c.toNat)
    (hb : b ∈ String.utf8EncodeChar c) : 128 ≤ b.toNat := by
  have hnot : ¬ c.val.toNat ≤ 127 := Nat.not_le.mpr hc
  simp only [String.utf8EncodeChar, hnot, if_false] at hb
  split_ifs at hb <;> simp only [mem_cons, not_mem_nil, or_false] at hb <;>
    rcases hb with rfl | rfl | rfl | rfl <;> simp [UInt8.toNat_ofNat] <;> omega

/-- `encode_utf16`: characters beyond the basic plane become a pair of surrogates. -/
def utf16 (s : Text) : List UInt16 :=
  s.flatMap fun c =>
    if c.toNat < 0x10000 then [UInt16.ofNat c.toNat]
    else
      [UInt16.ofNat (0xD800 + (c.toNat - 0x10000) / 0x400),
        UInt16.ofNat (0xDC00 + (c.toNat - 0x10000) % 0x400)]

/-- `Ord::cmp` on strings: the order of their bytes. -/
def cmp (s t : Text) : Ordering :=
  compare (utf8 s) (utf8 t)

instance : Std.TransCmp cmp :=
  inferInstanceAs (Std.TransCmp (compareOn utf8))

lemma append_eq_append_cons {s t x y : Text} (h : s ++ t = x ++ c :: y) :
    (∃ v, s = x ++ c :: v ∧ y = v ++ t) ∨ ∃ x', x = s ++ x' ∧ t = x' ++ c :: y := by
  rcases append_eq_append_iff.mp h with h | ⟨u, rfl, hu⟩
  · exact .inr h
  · cases u with
    | nil => exact .inr ⟨[], by simp, hu.symm⟩
    | cons d u =>
      obtain ⟨rfl, rfl⟩ := cons.inj hu
      exact .inl ⟨u, rfl, rfl⟩

/-! ### Characters -/

/-- The Unicode property `White_Space`. -/
def isWhitespace (c : Char) : Bool :=
  (0x09 ≤ c.toNat && c.toNat ≤ 0x0D) || c.toNat == 0x20 || c.toNat == 0x85 || c.toNat == 0xA0 ||
    c.toNat == 0x1680 || (0x2000 ≤ c.toNat && c.toNat ≤ 0x200A) || c.toNat == 0x2028 ||
    c.toNat == 0x2029 || c.toNat == 0x202F || c.toNat == 0x205F || c.toNat == 0x3000

/-- `char::is_ascii_whitespace`, which does not include the vertical tab. -/
def isAsciiWhitespace (c : Char) : Bool :=
  c == ' ' || c == '\t' || c == '\n' || c.toNat == 0x0C || c == '\r'

/-! ### Trimming and splitting -/

def trimStart (s : Text) : Text :=
  s.dropWhile isWhitespace

def trimEnd (s : Text) : Text :=
  s.rdropWhile isWhitespace

def trim (s : Text) : Text :=
  trimEnd (trimStart s)

/-- `trim_matches` with one character. -/
def trimMatches (c : Char) (s : Text) : Text :=
  (s.dropWhile (· == c)).rdropWhile (· == c)

/-- `trim_end_matches` with a string: the suffix is removed as often as it occurs. -/
def trimEndMatches (p s : Text) : Text :=
  go s.length s
where
  go : Nat → Text → Text
    | 0, s => s
    | n + 1, s =>
      match s.dropSuffix? p with
      | some s' => go n s'
      | none => s

lemma trimEndMatches_go {p s : Text} (hs : ¬ p <:+ s) (n : Nat) : trimEndMatches.go p n s = s := by
  cases n with
  | zero => rfl
  | succ n =>
    rw [trimEndMatches.go]
    split
    · next t ht =>
      obtain ⟨q, rfl, hq⟩ := dropSuffix?_eq_some_iff.mp ht
      exact absurd ⟨t, by rw [beq_iff_eq.mp hq]⟩ hs
    · rfl

/-- One suffix is removed if there is no second one before it. -/
lemma trimEndMatches_append {p s : Text} (hp : p ≠ []) (hs : ¬ p <:+ s) :
    trimEndMatches p (s ++ p) = s := by
  have hdrop : (s ++ p).dropSuffix? p = some s :=
    dropSuffix?_eq_some_iff.mpr ⟨p, rfl, beq_self_eq_true p⟩
  have hlength : (s ++ p).length = s.length + (p.length - 1) + 1 := by
    have := length_pos_iff.mpr hp
    rw [length_append]
    omega
  rw [trimEndMatches, hlength, trimEndMatches.go, hdrop]
  exact trimEndMatches_go hs _

lemma trimEndMatches_eq_self {p s : Text} (hs : ¬ p <:+ s) : trimEndMatches p s = s :=
  trimEndMatches_go hs _

lemma exists_trimEndMatches_append (p s : Text) :
    ∃ k, trimEndMatches p s ++ (replicate k p).flatten = s := by
  have hgo : ∀ n s, ∃ k, trimEndMatches.go p n s ++ (replicate k p).flatten = s := by
    intro n
    induction n with
    | zero => exact fun s => ⟨0, by simp [trimEndMatches.go]⟩
    | succ n ih =>
      intro s
      rw [trimEndMatches.go]
      split
      · next t ht =>
        obtain ⟨q, rfl, hq⟩ := dropSuffix?_eq_some_iff.mp ht
        obtain ⟨k, hk⟩ := ih t
        refine ⟨k + 1, ?_⟩
        rw [replicate_succ', flatten_append, ← append_assoc, hk, beq_iff_eq.mp hq]
        simp
      · exact ⟨0, by simp⟩
  exact hgo s.length s

/-- `split_once` with one character. -/
def splitOnce (c : Char) (s : Text) : Option (Text × Text) :=
  match s.dropWhile (· != c) with
  | [] => none
  | _ :: rest => some (s.takeWhile (· != c), rest)

/-- `rsplit_once` with one character. -/
def rsplitOnce (c : Char) (s : Text) : Option (Text × Text) :=
  (splitOnce c s.reverse).map fun (after, before) => (before.reverse, after.reverse)

/-- The last piece of `rsplit` with one character: what follows its last occurrence. -/
def afterLast (c : Char) (s : Text) : Text :=
  match rsplitOnce c s with
  | some (_, after) => after
  | none => s

lemma splitOnce_eq_some_iff {s before after : Text} :
    splitOnce c s = some (before, after) ↔ s = before ++ c :: after ∧ c ∉ before := by
  induction s generalizing before with
  | nil => simp [splitOnce]
  | cons d s ih =>
    by_cases hd : d = c
    · subst hd
      cases before with
      | nil => simp [splitOnce]
      | cons e before => simp +contextual [splitOnce, eq_comm]
    · have hstep : splitOnce c (d :: s) = (splitOnce c s).map fun p => (d :: p.1, p.2) := by
        simp only [splitOnce, dropWhile_cons, takeWhile_cons, bne_iff_ne, ne_eq, hd,
          not_false_eq_true, if_true]
        cases s.dropWhile (· != c) <;> rfl
      rw [hstep]
      cases before with
      | nil => simp [hd]
      | cons e before =>
        have hmap : (splitOnce c s).map (fun p => (d :: p.1, p.2)) = some (e :: before, after) ↔
            d = e ∧ splitOnce c s = some (before, after) := by
          cases splitOnce c s <;> simp [Prod.ext_iff, and_assoc]
        rw [hmap, ih]
        grind

lemma splitOnce_eq_none_iff {s : Text} : splitOnce c s = none ↔ c ∉ s := by
  constructor
  · intro h hc
    obtain ⟨before, after, hs, hbefore⟩ := eq_append_cons_of_mem hc
    rw [splitOnce_eq_some_iff.mpr ⟨hs, hbefore⟩] at h
    cases h
  · intro hc
    cases h : splitOnce c s with
    | none => rfl
    | some parts =>
      obtain ⟨before, after⟩ := parts
      rw [(splitOnce_eq_some_iff.mp h).1] at hc
      simp at hc

lemma rsplitOnce_eq_some_iff {s before after : Text} :
    rsplitOnce c s = some (before, after) ↔ s = before ++ c :: after ∧ c ∉ after := by
  have hreverse : s.reverse = after.reverse ++ c :: before.reverse ↔ s = before ++ c :: after := by
    rw [← reverse_inj]
    simp
  constructor
  · intro h
    obtain ⟨⟨a, b⟩, hsplit, heq⟩ := Option.map_eq_some_iff.mp h
    obtain ⟨rfl, rfl⟩ : b.reverse = before ∧ a.reverse = after := by simpa using heq
    obtain ⟨hs, ha⟩ := splitOnce_eq_some_iff.mp hsplit
    exact ⟨hreverse.mp (by simpa using hs), by simpa using ha⟩
  · rintro ⟨hs, hafter⟩
    have hsplit := splitOnce_eq_some_iff.mpr ⟨hreverse.mpr hs, by simpa using hafter⟩
    simp [rsplitOnce, hsplit]

lemma rsplitOnce_eq_none_iff {s : Text} : rsplitOnce c s = none ↔ c ∉ s := by
  simp [rsplitOnce, splitOnce_eq_none_iff]

lemma afterLast_append {s t : Text} (ht : c ∉ t) : afterLast c (s ++ c :: t) = t := by
  rw [afterLast, rsplitOnce_eq_some_iff.mpr ⟨rfl, ht⟩]

lemma exists_splitOnP_eq_cons (p : Char → Bool) (s : Text) :
    ∃ rest, s.splitOnP p = s.takeWhile (!p ·) :: rest := by
  induction s with
  | nil => exact ⟨[], rfl⟩
  | cons d s ih =>
    obtain ⟨rest, hrest⟩ := ih
    rw [splitOnP_cons_eq_if_modifyHead]
    by_cases hd : p d = true
    · exact ⟨s.splitOnP p, by simp [hd]⟩
    · exact ⟨rest, by simp [hd, hrest]⟩

lemma exists_splitOn_eq_cons (c : Char) (s : Text) :
    ∃ rest, s.splitOn c = s.takeWhile (· != c) :: rest :=
  exists_splitOnP_eq_cons (· == c) s

/-- A piece of a text is a part of it in which nothing separates. -/
lemma of_mem_splitOnP {p : Char → Bool} {s piece : Text} (h : piece ∈ s.splitOnP p) :
    piece <:+: s ∧ ∀ c ∈ piece, p c = false := by
  induction s with
  | nil =>
    rw [splitOnP_nil, mem_singleton] at h
    simp [h]
  | cons d s ih =>
    have hlater (h : piece ∈ s.splitOnP p) : piece <:+: d :: s ∧ ∀ c ∈ piece, p c = false :=
      (ih h).imp_left fun hin => hin.trans (suffix_cons d s).isInfix
    rw [splitOnP_cons_eq_if_modifyHead] at h
    split_ifs at h with hd
    · rcases mem_cons.mp h with rfl | h
      · exact .intro nil_infix nofun
      · exact hlater h
    · obtain ⟨rest, hs⟩ := exists_splitOnP_eq_cons p s
      rw [hs, modifyHead_cons] at h
      rcases mem_cons.mp h with rfl | h
      · rw [← takeWhile_cons_of_pos (p := (!p ·)) (by simpa using hd)]
        have hfirst : (d :: s).takeWhile (!p ·) <+: d :: s := takeWhile_prefix _
        exact ⟨hfirst.isInfix, fun c hc => by simpa using mem_takeWhile_imp hc⟩
      · exact hlater (hs ▸ mem_cons_of_mem _ h)

lemma not_mem_of_mem_splitOn {s piece : Text} (h : piece ∈ s.splitOn c) : c ∉ piece := fun hc => by
  simpa using (of_mem_splitOnP h).2 c hc

lemma splitOn_append_of_not_mem {s t : Text} (h : c ∉ s) :
    (s ++ t).splitOn c = (t.splitOn c).modifyHead (s ++ ·) := by
  induction s with
  | nil =>
    rw [nil_append]
    cases t.splitOn c <;> rfl
  | cons d s ih =>
    rw [mem_cons, not_or] at h
    rw [cons_append, splitOn_cons_eq_if_modifyHead, ih h.2, if_neg (by simpa using Ne.symm h.1)]
    cases t.splitOn c <;> rfl

/-- `split_whitespace`. -/
def splitWhitespace (s : Text) : List Text :=
  (s.splitOnP isWhitespace).filter (· ≠ [])

def stripCr (line : Text) : Text :=
  if line.getLast? = some '\r' then line.dropLast else line

/-- `lines`. The last piece has no terminator, so its carriage return stays, and it is no line
at all when it is empty. -/
def lines (s : Text) : List Text :=
  go (s.splitOn '\n')
where
  go : List Text → List Text
    | [] => []
    | [last] => if last = [] then [] else [last]
    | line :: rest => stripCr line :: go rest

lemma foldl_lines {σ : Type} {f : σ → Text → σ} (hcr : ∀ x line, f x (stripCr line) = f x line)
    (hempty : ∀ x, f x [] = x) (s : Text) (x : σ) :
    (lines s).foldl f x = (s.splitOn '\n').foldl f x := by
  have hgo : ∀ (pieces : List Text) (x : σ), (lines.go pieces).foldl f x = pieces.foldl f x := by
    intro pieces
    induction pieces with
    | nil => exact fun x => rfl
    | cons line rest ih =>
      intro x
      cases rest with
      | nil =>
        unfold lines.go
        split_ifs with hline
        · rw [hline]
          exact (hempty x).symm
        · rfl
      | cons next rest =>
        change (lines.go (next :: rest)).foldl f (f x (stripCr line)) = _
        rw [hcr, ih]
        rfl
  exact hgo _ x

/-- `replace` of one character by another. -/
def replaceChar (a b : Char) (s : Text) : Text :=
  s.map fun c => if c = a then b else c

/-- `replace` of a non-empty string, from left to right without overlaps. -/
def replace (pat rep s : Text) : Text :=
  go 0 s
where
  -- the number is that of the characters of a match still to be passed over
  go : Nat → Text → Text
    | _, [] => []
    | n + 1, _ :: s => go n s
    | 0, c :: s =>
      if pat.isPrefixOf (c :: s) then rep ++ go (pat.length - 1) s else c :: go 0 s

/-- `join`. -/
def join (sep : Text) (parts : List Text) : Text :=
  sep.intercalate parts

lemma join_cons (sep first : Text) (rest : List Text) :
    join sep (first :: rest) = first ++ rest.flatMap (sep ++ ·) := by
  induction rest generalizing first with
  | nil => simp [join]
  | cons next rest ih =>
    have ih' := ih next
    unfold join at ih' ⊢
    rw [intercalate_cons_cons, ih', flatMap_cons, append_assoc, append_assoc]

/-! ### What trimming does -/

/-- Remove the characters with a property from both ends, as `trim` and `trim_matches` do. -/
def trimBy (p : Char → Bool) (s : Text) : Text :=
  (s.dropWhile p).rdropWhile p

lemma trim_eq_trimBy (s : Text) : trim s = trimBy isWhitespace s := rfl

lemma trimMatches_eq_trimBy (c : Char) (s : Text) : trimMatches c s = trimBy (· == c) s := rfl

section TrimBy

variable {p : Char → Bool} {c : Char} {s t : Text}

lemma count_dropWhile (hc : p c = false) : (s.dropWhile p).count c = s.count c := by
  induction s with
  | nil => rfl
  | cons d s ih =>
    rw [dropWhile_cons]
    split_ifs with hd
    · have hdc : d ≠ c := by
        rintro rfl
        rw [hc] at hd
        cases hd
      rw [ih, count_cons_of_ne hdc]
    · rfl

lemma count_trimBy (hc : p c = false) : (trimBy p s).count c = s.count c := by
  rw [trimBy, List.rdropWhile, count_reverse, count_dropWhile hc, count_reverse, count_dropWhile hc]

lemma trimBy_append_left (ht : ∀ d ∈ t, p d = true) : trimBy p (t ++ s) = trimBy p s := by
  rw [trimBy, dropWhile_append_of_pos ht, trimBy]

lemma trimBy_append_right (ht : ∀ d ∈ t, p d = true) : trimBy p (s ++ t) = trimBy p s := by
  have hrev : ∀ u : Text, (u ++ t).rdropWhile p = u.rdropWhile p := by
    intro u
    rw [List.rdropWhile, reverse_append, dropWhile_append_of_pos (by simpa using ht),
      List.rdropWhile]
  rw [trimBy, dropWhile_append, trimBy]
  split_ifs with hs
  · rw [List.isEmpty_iff] at hs
    rw [hs, show t.dropWhile p = [] from dropWhile_eq_nil_iff.mpr ht]
  · exact hrev _

lemma trimBy_eq_self (hhead : ∀ d, s.head? = some d → p d = false)
    (hlast : ∀ d, s.getLast? = some d → p d = false) : trimBy p s = s := by
  have hdrop : s.dropWhile p = s := by
    cases s with
    | nil => rfl
    | cons d s => simp [hhead d rfl]
  rw [trimBy, hdrop, rdropWhile_eq_self_iff]
  intro hne
  rw [hlast _ (getLast?_eq_getLast_of_ne_nil hne)]
  simp

lemma trimBy_of_ends {d e : Char} (hhead : s.head? = some d) (hd : p d = false)
    (hlast : s.getLast? = some e) (he : p e = false) : trimBy p s = s :=
  trimBy_eq_self (fun _ h => Option.some.inj (hhead.symm.trans h) ▸ hd)
    (fun _ h => Option.some.inj (hlast.symm.trans h) ▸ he)

lemma trimBy_append_of_ends {d e : Char} (hhead : s.head? = some d) (hd : p d = false)
    (hlast : s.getLast? = some e) (he : p e = false) :
    trimBy p (s ++ t) = s ++ t.rdropWhile p := by
  have hdrop : (s ++ t).dropWhile p = s ++ t := by
    cases s with
    | nil => cases hhead
    | cons d' s =>
      cases hhead
      simp [hd]
  have hrev : s.reverse.dropWhile p = s.reverse := by
    have hfirst : s.reverse.head? = some e := by rw [head?_reverse, hlast]
    cases hs : s.reverse with
    | nil => rfl
    | cons e' u =>
      rw [hs] at hfirst
      cases hfirst
      simp [he]
  rw [trimBy, hdrop, List.rdropWhile, reverse_append, dropWhile_append, hrev, List.rdropWhile]
  split_ifs with hnil
  · rw [List.isEmpty_iff] at hnil
    simp [hnil]
  · simp

lemma getLast?_trimBy {d : Char} (h : (trimBy p s).getLast? = some d) : p d = false := by
  rw [trimBy, List.rdropWhile, getLast?_reverse] at h
  have := head?_dropWhile_not p (s.dropWhile p).reverse
  rw [h] at this
  exact this

lemma head?_trimBy {d : Char} (h : (trimBy p s).head? = some d) : p d = false := by
  obtain ⟨t, ht⟩ := rdropWhile_prefix p (s.dropWhile p)
  have hhead : (s.dropWhile p).head? = some d := by
    rw [← ht, head?_append, show ((s.dropWhile p).rdropWhile p).head? = some d from h]
    rfl
  have := head?_dropWhile_not p s
  rw [hhead] at this
  exact this

end TrimBy

/-! ### Case and numbers -/

def toAsciiLowercase (s : Text) : Text :=
  s.map Char.toLower

lemma isAlpha_iff :
    c.isAlpha = true ↔
      (65 ≤ c.toNat ∧ c.toNat ≤ 90) ∨ (97 ≤ c.toNat ∧ c.toNat ≤ 122) := by
  delta Char.isAlpha Char.isUpper Char.isLower
  simp [UInt32.le_iff_toNat_le]

lemma toLower_eq_iff {c d : Char} (hd : d.isAlpha = false) : c.toLower = d ↔ c = d := by
  have hletter : ¬ ((65 ≤ d.toNat ∧ d.toNat ≤ 90) ∨ (97 ≤ d.toNat ∧ d.toNat ≤ 122)) := by
    rw [← isAlpha_iff, hd]
    exact Bool.false_ne_true
  delta Char.toLower
  split_ifs with hc
  · have hupper : 65 ≤ c.toNat ∧ c.toNat ≤ 90 := by
      simpa [UInt32.le_iff_toNat_le] using hc
    constructor
    · rintro rfl
      simp at hletter
      omega
    · rintro rfl
      omega
  · rfl

def eqIgnoreAsciiCase (s t : Text) : Bool :=
  toAsciiLowercase s == toAsciiLowercase t

/-- Rust's `str::to_lowercase`. Its Unicode tables are not part of the program; it is known on
ASCII text. -/
structure Lowercase where
  apply : Text → Text
  ascii : ∀ s : Text, (∀ c ∈ s, c.toNat < 128) → apply s = toAsciiLowercase s

def Lowercase.asciiOnly : Lowercase :=
  ⟨toAsciiLowercase, fun _ _ => rfl⟩

/-- `parse` at an unsigned type with `bound` values: an optional `+` and at least one digit. -/
def parseUnsigned (bound : Nat) (s : Text) : Option Nat :=
  let digits : Text := if s.head? = some '+' then s.tail else s
  if digits ≠ [] ∧ digits.all Char.isDigit = true then
    let n := digits.foldl (fun n c => 10 * n + (c.toNat - 48)) 0
    if n < bound then some n else none
  else none

end Text
