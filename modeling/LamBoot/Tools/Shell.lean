import LamBoot.Bls.Written

/-!
# What the shell tools use

The parameter expansions and the standard tools that the installer and the kernel hook are written
with, as far as they use them.
-/

namespace LamBoot

open List

abbrev Line := { s : Text // '\n' ∉ s }

namespace Shell

/-- `$(…)`: command substitution drops the line feeds at the end of what is printed. -/
def output (s : Text) : Text :=
  s.rdropWhile (· == '\n')

lemma mem_output {c : Char} (hc : c ≠ '\n') {s : Text} (h : c ∈ s) : c ∈ output s := by
  have hs : s = output s ++ s.rtakeWhile (· == '\n') := rdropWhile_append_rtakeWhile.symm
  rw [hs, mem_append] at h
  refine h.resolve_right fun htake => hc ?_
  simpa using mem_rtakeWhile_imp htake

lemma output_subset (s : Text) : output s ⊆ s := by
  have hpart : output s <+: s := rdropWhile_prefix _ s
  exact hpart.subset

/-- `${s#p}`. -/
def stripPrefix (p s : Text) : Text :=
  (s.dropPrefix? p).getD s

lemma stripPrefix_cases (p s : Text) : stripPrefix p s = s ∨ s = p ++ stripPrefix p s := by
  unfold stripPrefix
  cases h : s.dropPrefix? p with
  | none => exact .inl rfl
  | some rest =>
    obtain ⟨q, hs, hq⟩ := List.dropPrefix?_eq_some_iff.mp h
    rw [beq_iff_eq] at hq
    exact .inr (by rw [hs, hq]; rfl)

/-- `${s##*word}`, where `word` occurs in `s`. -/
def afterLastWord (word : Text) : Text → Option Text
  | [] => none
  | c :: s =>
    match afterLastWord word s with
    | some t => some t
    | none => (c :: s).dropPrefix? word

/-- What stands before and after the first occurrence of a word, as `${s%%word*}` and
`${s#*word}` cut it. -/
def cutAt (word : Text) : Text → Option (Text × Text)
  | [] => none
  | c :: s =>
    match (c :: s).dropPrefix? word with
    | some after => some ([], after)
    | none => (cutAt word s).map fun (before, after) => (c :: before, after)

/-- `sed 's/key[^ ]* //'`. -/
def deleteParameter (key : Text) : Text → Text
  | [] => []
  | c :: s =>
    if key.isPrefixOf (c :: s) then
      match ((c :: s).drop key.length).dropWhile (· != ' ') with
      | _ :: rest => rest
      | [] => c :: deleteParameter key s
    else c :: deleteParameter key s

lemma deleteParameter_subset (key s : Text) : deleteParameter key s ⊆ s := by
  induction s with
  | nil => exact List.Subset.refl _
  | cons c s ih =>
    unfold deleteParameter
    split_ifs
    · split
      · next rest hrest =>
        have hsuffix : rest <:+ c :: s :=
          (suffix_cons _ _).trans
            (hrest ▸ (dropWhile_suffix _).trans (drop_suffix _ _))
        exact hsuffix.subset
      · exact cons_subset_cons c ih
    · exact cons_subset_cons c ih

/-- `grep -qF pattern`: a line of the text has one of the lines of the pattern in it. -/
def grepFixed (pattern text : Text) : Prop :=
  ∃ line ∈ text.splitOn '\n', ∃ word ∈ pattern.splitOn '\n', word <:+: line
deriving Decidable

/-! ### Fields of a line -/

/-- What separates the fields of a line for `awk`. -/
def isBlank (c : Char) : Bool :=
  c == ' ' || c == '\t'

/-- The class `[[:space:]]`. -/
def isSpace (c : Char) : Bool :=
  Text.isAsciiWhitespace c || c.toNat == 0x0B

/-- `/^key[[:space:]]/`. -/
def startsWithKey (key line : Text) : Bool :=
  match line.dropPrefix? key with
  | some (c :: _) => isSpace c
  | _ => false

/-- `$2`. -/
def secondField (line : Text) : Text :=
  ((line.splitOnP isBlank).filter (· ≠ []))[1]?.getD []

/-- `awk '/^key[[:space:]]/{print $2; exit}'`, which prints nothing when no line has the key. -/
def fieldOf (key content : Text) : Option Text :=
  ((content.splitOn '\n').find? (startsWithKey key)).map secondField

end Shell

end LamBoot
