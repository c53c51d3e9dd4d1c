import LamBoot.FwCfg.Config
import LamBoot.Tools.Hookscript

/-!
# Reading what the hook script has written

A key is found where the text has it between quotes: at its own line, or at the end of a value or of
a tag that shows it. The value is then the one of the next line.
-/

namespace LamBoot.FwCfg

open List Text Search Tools.Hookscript

/-! ### Strings -/

def IsNumbered (c : Char) : Prop :=
  c.toNat ≤ 0x1f ∧ c ∉ ['\x08', '\t', '\n', '\x0c', '\r']
deriving Decidable

def spelling (c : Char) : Text :=
  if IsNumbered c then (unicodeEscape c).tail else [c]

def nonEmpty (s : Text) : Option Text :=
  if s = [] then none else some s

lemma nonEmpty_inj {s t : Text} : nonEmpty s = nonEmpty t ↔ s = t := by
  unfold nonEmpty
  split_ifs with hs ht ht
  · simp [hs, ht]
  · simp [hs, Ne.symm ht]
  · simp [hs, ht]
  · rw [Option.some.injEq]

lemma nonEmpty_eq_none {s : Text} : nonEmpty s = none ↔ s = [] := by
  unfold nonEmpty
  split_ifs with hs
  · simp [hs]
  · simp [hs]

lemma hexDigit_of_mem_unicodeEscape {c d : Char} (hc : c.toNat ≤ 0x1f)
    (hd : d ∈ (unicodeEscape c).tail) : d ∉ ['"', '\\', ':'] := by
  have hall : ∀ n ≤ 0x1f, ∀ d ∈ 'u' :: (replicate (4 - (Nat.toDigits 16 n).length) '0' ++
      Nat.toDigits 16 n), d ∉ ['"', '\\', ':'] := by
    decide
  exact hall _ hc d hd

lemma escape_cases (c : Char) :
    (escape c = [c] ∧ 0x1f < c.toNat ∧ c ≠ '"' ∧ c ≠ '\\' ∧ spelling c = [c]) ∨
      (∃ d, escape c = ['\\', d] ∧ unescape d = c ∧ d ≠ ':' ∧ (d = '"' → c = '"') ∧ c ≠ ':' ∧
        (isWhitespace c = true → c.toNat ≤ 0x1f) ∧ spelling c = [c]) ∨
      (escape c = '\\' :: spelling c ∧ c.toNat ≤ 0x1f ∧ spelling c = (unicodeEscape c).tail) := by
  unfold escape
  split_ifs with h1 h2 h3 h4 h5 h6 h7 h8
  · subst h1
    exact .inr (.inl ⟨_, rfl, by decide⟩)
  · subst h2
    exact .inr (.inl ⟨_, rfl, by decide⟩)
  · subst h3
    exact .inr (.inl ⟨_, rfl, by decide⟩)
  · subst h4
    exact .inr (.inl ⟨_, rfl, by decide⟩)
  · subst h5
    exact .inr (.inl ⟨_, rfl, by decide⟩)
  · subst h6
    exact .inr (.inl ⟨_, rfl, by decide⟩)
  · subst h7
    exact .inr (.inl ⟨_, rfl, by decide⟩)
  · have hspelling : spelling c = (unicodeEscape c).tail := by
      rw [spelling, if_pos]
      exact ⟨h8, by simp [h3, h4, h5, h6, h7]⟩
    exact .inr (.inr ⟨by rw [hspelling]; rfl, h8, hspelling⟩)
  · have hspelling : spelling c = [c] := by
      rw [spelling, if_neg]
      exact fun h => h8 h.1
    exact .inl ⟨rfl, by omega, h2, h1, hspelling⟩

lemma escapesQuotes_escape : EscapesQuotes escape where
  quote := rfl
  other c hc := by
    rcases escape_cases c with ⟨h, -, -, hbackslash, -⟩ | ⟨d, h, -, -, hd, -⟩ | ⟨h, hle, hspelling⟩
    · exact .inl ⟨h, hbackslash⟩
    · exact .inr ⟨d, [], h, by simpa using fun hquote => hc (hd hquote.symm)⟩
    · rw [hspelling] at h
      refine .inr ⟨_, _, h, fun hmem => ?_⟩
      exact hexDigit_of_mem_unicodeEscape hle hmem (by decide)

lemma readString_escape (c : Char) (out rest : Text) :
    readString false out (escape c ++ rest) = readString false (out ++ spelling c) rest := by
  -- characters that are neither a quote nor a backslash are read as they are
  have hplain : ∀ (s out : Text), (∀ d ∈ s, d ≠ '"' ∧ d ≠ '\\') →
      readString false out (s ++ rest) = readString false (out ++ s) rest := by
    intro s
    induction s with
    | nil => simp
    | cons d s ih =>
      intro out hs
      obtain ⟨hquote, hbackslash⟩ := hs d (mem_cons_self ..)
      rw [cons_append, readString, if_neg (by decide), if_neg hbackslash, if_neg hquote,
        ih _ fun d hd => hs d (mem_cons_of_mem _ hd), append_assoc,
        singleton_append]
  rcases escape_cases c with ⟨h, -, hquote, hbackslash, hs⟩ | ⟨d, h, hd, -, -, -, -, hs⟩ |
    ⟨h, hle, hs⟩
  · rw [h, hs]
    exact hplain _ _ (by simp [hquote, hbackslash])
  · rw [h, hs, ← hd]
    rfl
  · have htail : spelling c = 'u' :: (spelling c).tail := by
      rw [hs]
      rfl
    have hmem : ∀ d ∈ (spelling c).tail, d ≠ '"' ∧ d ≠ '\\' := by
      intro d hd
      have hnot := hexDigit_of_mem_unicodeEscape hle (hs ▸ mem_of_mem_tail hd)
      simp only [mem_cons, not_or] at hnot
      exact ⟨hnot.1, hnot.2.1⟩
    rw [h, htail]
    change readString false (out ++ ['u']) ((spelling c).tail ++ rest) = _
    rw [hplain _ _ hmem, append_assoc]
    rfl

lemma readString_flatMap_escape (s out rest : Text) :
    readString false out (s.flatMap escape ++ '"' :: rest) =
      nonEmpty (out ++ s.flatMap spelling) := by
  induction s generalizing out with
  | nil =>
    rw [flatMap_nil, nil_append, flatMap_nil, append_nil]
    rfl
  | cons c s ih =>
    rw [flatMap_cons, append_assoc, readString_escape, ih, flatMap_cons, append_assoc]

lemma flatMap_spelling_eq_self_iff {s : Text} :
    s.flatMap spelling = s ↔ ∀ c ∈ s, ¬ IsNumbered c := by
  have hlong : ∀ c, IsNumbered c → 1 < (spelling c).length := by
    intro c hc
    have hall : ∀ n ≤ 0x1f, 1 < ('u' :: (replicate (4 - (Nat.toDigits 16 n).length) '0' ++
        Nat.toDigits 16 n)).length := by
      decide
    rw [spelling, if_pos hc]
    exact hall _ hc.1
  have hle : ∀ s : Text, s.length ≤ (s.flatMap spelling).length := by
    intro s
    induction s with
    | nil => exact Nat.le_refl _
    | cons c s ih =>
      rw [flatMap_cons, length_append, length_cons]
      by_cases hc : IsNumbered c
      · have := hlong c hc
        omega
      · rw [spelling, if_neg hc, length_singleton]
        omega
  induction s with
  | nil => simp
  | cons c s ih =>
    rw [forall_mem_cons, flatMap_cons]
    constructor
    · intro h
      have hc : ¬ IsNumbered c := by
        intro hc
        have hlength := congrArg length h
        rw [length_append, length_cons] at hlength
        have hlt := hlong c hc
        have hmore := hle s
        omega
      rw [spelling, if_neg hc] at h
      exact ⟨hc, ih.mp (cons.inj h).2⟩
    · rintro ⟨hc, hs⟩
      rw [spelling, if_neg hc, ih.mpr hs]
      rfl

/-! ### Names -/

def IsName (s : Text) : Prop :=
  s ≠ [] ∧ ∀ c ∈ s, c.isAlpha = true ∨ c = '_'
deriving Decidable

section Names

variable {key name value s t rest : Text} {c : Char}

lemma IsName.not_mem (h : IsName s) (hc : c.isAlpha = false) (hne : c ≠ '_') : c ∉ s := by
  intro hmem
  rcases h.2 c hmem with halpha | heq
  · rw [halpha] at hc
    cases hc
  · exact hne heq

lemma IsName.escape_eq (h : IsName s) : ∀ c ∈ s, escape c = [c] := by
  intro c hc
  have hne : ∀ d, d.isAlpha = false → d ≠ '_' → c ≠ d := by
    rintro d hd hd' rfl
    exact h.not_mem hd hd' hc
  have hlarge : 0x1f < c.toNat := by
    rcases h.2 c hc with halpha | rfl
    · have hrange := isAlpha_iff.mp halpha
      omega
    · decide
  unfold escape
  rw [if_neg (hne _ rfl (by decide)), if_neg (hne _ rfl (by decide)),
    if_neg (hne _ rfl (by decide)), if_neg (hne _ rfl (by decide)),
    if_neg (hne _ rfl (by decide)), if_neg (hne _ rfl (by decide)),
    if_neg (hne _ rfl (by decide)), if_neg (by omega)]

lemma IsName.flatMap_escape (h : IsName s) : s.flatMap escape = s := by
  rw [flatMap_congr h.escape_eq, flatMap_singleton']

lemma IsName.shows_iff (h : IsName name) : Shows key name ↔ name = key := by
  rw [Search.shows_iff, or_iff_left]
  intro hsuffix
  exact h.not_mem rfl (by decide) (hsuffix.subset (mem_cons_self ..))

lemma IsName.not_initial (h : IsName key) (hc : c.isAlpha = false) (hne : c ≠ '_') (rest : Text) :
    ¬ key ++ ['"'] <+: c :: rest := by
  obtain ⟨k, key', rfl⟩ := exists_cons_of_ne_nil h.1
  rw [cons_append, cons_prefix_cons]
  rintro ⟨rfl, -⟩
  exact h.not_mem hc hne (mem_cons_self ..)

/-! ### The value after a key -/

lemma valueAfter_append (h : ':' ∉ t) : valueAfter (t ++ s) = valueAfter s := by
  rw [valueAfter, afterFirst_append_of_not_mem h, valueAfter]

lemma valueAfter_colon : valueAfter (':' :: s) =
    match trimStart s with
    | '"' :: chars => readString false [] chars
    | _ => none := by
  have hfirst : afterFirst [':'] (':' :: s) = some s := afterFirst_singleton (t := []) (by simp)
  rw [valueAfter, hfirst]
  rfl

lemma valueAfter_value :
    valueAfter (':' :: ' ' :: (jsonStr value ++ rest)) = nonEmpty (value.flatMap spelling) := by
  rw [valueAfter_colon, jsonStr_eq, cons_append, append_assoc]
  exact readString_flatMap_escape value [] rest

/-! ### Lines -/

def fieldText (field : Text × Text) : Text :=
  '\n' :: PerVm.fieldLine field.1 field.2

lemma fieldText_append : fieldText (name, value) ++ s =
    ['\n', ' ', ' '] ++ '"' :: (name ++ '"' :: (':' :: ' ' :: (jsonStr value ++ ',' :: s))) := by
  simp [fieldText, PerVm.fieldLine]

lemma valueAfter_fieldText (h : IsName name) :
    valueAfter (fieldText (name, value) ++ s) = nonEmpty (value.flatMap spelling) := by
  have hcolon : ':' ∉ ['\n', ' ', ' '] ++ '"' :: (name ++ ['"']) := by
    have hname : ':' ∉ name := h.not_mem rfl (by decide)
    simp [hname]
  have hskip := valueAfter_append (s := ':' :: ' ' :: (jsonStr value ++ ',' :: s)) hcolon
  rw [valueAfter_value] at hskip
  rw [fieldText_append, ← hskip]
  simp

lemma extract_jsonStr (hkey : IsName key) (hc : c.isAlpha = false) (hne : c ≠ '_')
    (value rest : Text) :
    extractStringField (jsonStr value ++ c :: rest) key =
      if Shows key value then valueAfter (c :: rest)
      else extractStringField (c :: rest) key := by
  have hsearch := escapesQuotes_escape.afterFirst_quoted (s := value) hkey.escape_eq
    (hkey.not_initial hc hne rest)
  rw [jsonStr_eq, cons_append, append_assoc]
  simp only [extractStringField]
  rw [singleton_append, hsearch]
  split_ifs
  · rfl
  · rfl

lemma extract_append (h : '"' ∉ t) :
    extractStringField (t ++ s) key = extractStringField s key := by
  rw [extractStringField, afterFirst_append_of_not_mem h, extractStringField]

lemma extract_fieldText (hkey : IsName key) (hname : IsName name) :
    extractStringField (fieldText (name, value) ++ s) key =
      if name = key then nonEmpty (value.flatMap spelling)
      else if Shows key value then valueAfter s
      else extractStringField s key := by
  have hcolon := extract_jsonStr hkey (c := ':') rfl (by decide) name
    (' ' :: (jsonStr value ++ ',' :: s))
  have hcomma := extract_jsonStr hkey (c := ',') rfl (by decide) value s
  rw [jsonStr_eq, hname.flatMap_escape] at hcolon
  rw [fieldText_append, extract_append (by decide)]
  simp only [hname.shows_iff, cons_append, append_assoc, nil_append, valueAfter_value] at hcolon
  rw [hcolon]
  congr 1
  have hskip : extractStringField (':' :: ' ' :: (jsonStr value ++ ',' :: s)) key =
      extractStringField (jsonStr value ++ ',' :: s) key :=
    extract_append (t := [':', ' ']) (by simp)
  have hvalue : valueAfter (',' :: s) = valueAfter s := valueAfter_append (t := [',']) (by simp)
  have hnext : extractStringField (',' :: s) key = extractStringField s key :=
    extract_append (t := [',']) (by simp)
  rw [hskip, hcomma, hvalue, hnext]

/-! ### Tags -/

/-- A colon ends the tag, but for white space. -/
def EndsInColon (tag : Text) : Prop :=
  ∃ before after, tag = before ++ ':' :: after ∧ ':' ∉ before ∧
    ∀ c ∈ after, isWhitespace c = true ∧ 0x1f < c.toNat

/-- Among the tags behind one that shows a key, the first with a colon does not end in it, or it is
the last. -/
def QuietAfter : List Text → Prop
  | [] => True
  | tag :: tags => if ':' ∈ tag then EndsInColon tag → tags = [] else QuietAfter tags

def Quiet (key : Text) : List Text → Prop
  | [] => True
  | tag :: tags => if Shows key tag then QuietAfter tags else Quiet key tags

def tagsEnd (tags : List Text) : Text :=
  tags.flatMap (fun tag => ',' :: jsonStr tag) ++ "]\n\x7d\n"

lemma tagsEnd_cons (tag : Text) (tags : List Text) :
    tagsEnd (tag :: tags) = ',' :: (jsonStr tag ++ tagsEnd tags) := by
  simp [tagsEnd]

lemma exists_tagsEnd_eq_cons (tags : List Text) : ∃ c rest, tagsEnd tags = c :: rest ∧
    c.isAlpha = false ∧ c ≠ '_' ∧ c ≠ '"' := by
  cases tags with
  | nil => exact ⟨_, _, rfl, rfl, by decide, by decide⟩
  | cons tag tags => exact ⟨_, _, tagsEnd_cons tag tags, rfl, by decide, by decide⟩

lemma colon_mem_flatMap_escape : ':' ∈ s.flatMap escape ↔ ':' ∈ s := by
  have hescape : ∀ c, ':' ∈ escape c ↔ ':' = c := by
    intro c
    rcases escape_cases c with ⟨h, -⟩ | ⟨d, h, -, hd, -, hc, -⟩ | ⟨h, hle, hs⟩
    · rw [h, mem_singleton]
    · rw [h]
      simp [Ne.symm hd, Ne.symm hc]
    · have hnot : ':' ∉ spelling c := fun hmem =>
        hexDigit_of_mem_unicodeEscape hle (hs ▸ hmem) (by decide)
      have hne : ':' ≠ c := by
        rintro rfl
        exact absurd hle (by decide)
      rw [h]
      simp [hnot, hne]
  simp only [mem_flatMap, hescape]
  simp

lemma trimStart_flatMap_escape :
    ((∀ c ∈ s, isWhitespace c = true ∧ 0x1f < c.toNat) →
      trimStart (s.flatMap escape ++ '"' :: rest) = '"' :: rest) ∧
    ((¬ ∀ c ∈ s, isWhitespace c = true ∧ 0x1f < c.toNat) →
      ∃ d u, trimStart (s.flatMap escape ++ '"' :: rest) = d :: u ∧ d ≠ '"') := by
  induction s with
  | nil => exact ⟨fun _ => rfl, fun h => absurd (by simp) h⟩
  | cons c s ih =>
    rw [forall_mem_cons, flatMap_cons, append_assoc]
    rcases escape_cases c with ⟨h, hlarge, hquote, -⟩ | ⟨d, h, -, -, -, -, hblank, -⟩ | ⟨h, hle, -⟩
    · rw [h, singleton_append]
      by_cases hc : isWhitespace c = true
      · rw [trimStart, dropWhile_cons_of_pos hc]
        exact ⟨fun hs => ih.1 hs.2, fun hs => ih.2 fun hall => hs ⟨⟨hc, hlarge⟩, hall⟩⟩
      · rw [trimStart, dropWhile_cons_of_neg hc]
        exact ⟨fun hs => absurd hs.1.1 hc, fun _ => ⟨_, _, rfl, hquote⟩⟩
    · rw [h]
      refine ⟨fun hs => ?_, fun _ => ⟨_, _, rfl, by decide⟩⟩
      exact absurd (hblank hs.1.1) (Nat.not_le_of_lt hs.1.2)
    · rw [h]
      exact ⟨fun hs => absurd hs.1.2 (by omega), fun _ => ⟨_, _, rfl, by decide⟩⟩

lemma endsInColon_append_iff (h : ':' ∉ t) : EndsInColon (t ++ ':' :: s) ↔
    ∀ c ∈ s, isWhitespace c = true ∧ 0x1f < c.toNat := by
  constructor
  · rintro ⟨before, after, heq, hbefore, hafter⟩
    have hsame : some after = some s := by
      rw [← afterFirst_singleton (s := s) h, heq, afterFirst_singleton hbefore]
    rwa [Option.some.inj hsame] at hafter
  · exact fun hs => ⟨t, s, rfl, h, hs⟩

lemma valueAfter_colon_tag (tags : List Text) :
    valueAfter (':' :: (s.flatMap escape ++ '"' :: tagsEnd tags)) = none ↔
      ((∀ c ∈ s, isWhitespace c = true ∧ 0x1f < c.toNat) → tags = []) := by
  rw [valueAfter_colon]
  by_cases hs : ∀ c ∈ s, isWhitespace c = true ∧ 0x1f < c.toNat
  · rw [trimStart_flatMap_escape.1 hs, iff_true_intro hs, true_imp_iff]
    cases tags with
    | nil => decide
    | cons tag tags =>
      rw [tagsEnd_cons, jsonStr_eq]
      -- the comma between two tags is taken for a string
      have hread : readString false [] (',' :: ('"' :: (tag.flatMap escape ++ ['"']) ++
          tagsEnd tags)) = some [','] := rfl
      simp only [hread]
      simp
  · obtain ⟨d, u, htrim, hd⟩ := trimStart_flatMap_escape.2 hs
    rw [htrim, iff_false_intro hs, false_imp_iff, iff_true]
    split
    · next hcons => exact absurd (cons.inj hcons).1 hd
    · rfl

lemma valueAfter_tagsEnd (tags : List Text) :
    valueAfter (tagsEnd tags) = none ↔ QuietAfter tags := by
  induction tags with
  | nil => exact iff_of_true rfl trivial
  | cons tag tags ih =>
    rw [tagsEnd_cons, jsonStr_eq, QuietAfter]
    split_ifs with htag
    · obtain ⟨before, after, rfl, hbefore⟩ := eq_append_cons_of_mem htag
      have hskip : ':' ∉ ',' :: '"' :: before.flatMap escape := by
        simp only [mem_cons, colon_mem_flatMap_escape, not_or]
        exact ⟨by decide, by decide, hbefore⟩
      have htext : ',' :: ('"' :: ((before ++ ':' :: after).flatMap escape ++ ['"']) ++
          tagsEnd tags) = (',' :: '"' :: before.flatMap escape) ++
            ':' :: (after.flatMap escape ++ '"' :: tagsEnd tags) := by
        have hcolon : escape ':' = [':'] := rfl
        simp [hcolon]
      rw [htext, valueAfter_append hskip, valueAfter_colon_tag, endsInColon_append_iff hbefore]
    · have hskip : ':' ∉ ',' :: '"' :: (tag.flatMap escape ++ ['"']) := by
        simp only [mem_cons, mem_append, colon_mem_flatMap_escape, not_or]
        exact ⟨by decide, by decide, htag, by decide⟩
      rw [← ih, ← valueAfter_append (s := tagsEnd tags) hskip]
      rfl

lemma extract_tagsEnd (hkey : IsName key) (tags : List Text) :
    extractStringField (tagsEnd tags) key = none ↔ Quiet key tags := by
  induction tags with
  | nil =>
    have hnone : extractStringField (tagsEnd []) key = none := by
      rw [extractStringField, afterFirst_eq_none_of_not_mem (by decide)]
      rfl
    rw [hnone, Quiet]
    simp
  | cons tag tags ih =>
    obtain ⟨c, rest, hend, hc, hne, -⟩ := exists_tagsEnd_eq_cons tags
    have hskip : extractStringField (',' :: (jsonStr tag ++ tagsEnd tags)) key =
        extractStringField (jsonStr tag ++ tagsEnd tags) key :=
      extract_append (t := [',']) (by simp)
    rw [tagsEnd_cons, hskip, hend, extract_jsonStr hkey hc hne, ← hend, Quiet]
    split_ifs
    · exact valueAfter_tagsEnd tags
    · exact ih

/-! ### The file -/

def nextValue (fields : List (Text × Text)) : Text :=
  (fields.head?.map Prod.snd).getD []

/-- What a field has to meet to be read back: a plain value at its own line; the same value on the
line after an earlier value that shows the key; and quiet tags where the key has no line. -/
def Retrieves (key want : Text) : List (Text × Text) → List Text → Prop
  | (name, value) :: fields, tags =>
    if name = key then ∀ c ∈ value, ¬ IsNumbered c
    else if Shows key value then (nextValue fields).flatMap spelling = want
    else Retrieves key want fields tags
  | [], tags => Quiet key tags

def tagsText (tags : List Text) : Text :=
  '\n' :: ("  \"tags_at_setup\": " ++ '[' :: (join [','] (tags.map jsonStr) ++ [']'])) ++
    '\n' :: ("\x7d" ++ ['\n'])

lemma tagsText_eq (tags : List Text) : tagsText tags = "\n  \"tags_at_setup\"" ++
    ':' :: ' ' :: '[' :: (join [','] (tags.map jsonStr) ++ "]\n\x7d\n") := by
  have hname : '\n' :: "  \"tags_at_setup\": " =
      "\n  \"tags_at_setup\"" ++ [':', ' '] := by
    decide
  rw [tagsText, ← cons_append, hname]
  simp only [append_assoc, cons_append, nil_append]
  rfl

lemma valueAfter_tagsText (tags : List Text) : valueAfter (tagsText tags) = none := by
  have hskip : ':' ∉ "\n  \"tags_at_setup\"".toList := by decide
  rw [tagsText_eq, valueAfter_append hskip, valueAfter_colon]
  rfl

lemma extract_tagsText (hkey : IsName key) (hne : key ≠ "tags_at_setup")
    (tags : List Text) :
    extractStringField (tagsText tags) key = none ↔ Quiet key tags := by
  have hname : IsName "tags_at_setup" := by decide
  have htext : tagsText tags = ['\n', ' ', ' '] ++ (jsonStr "tags_at_setup" ++
      ':' :: ([' ', '['] ++ (join [','] (tags.map jsonStr) ++ "]\n\x7d\n"))) := by
    rw [tagsText_eq, jsonStr_eq, hname.flatMap_escape]
    rfl
  have hskip : extractStringField (tagsText tags) key =
      extractStringField (join [','] (tags.map jsonStr) ++ "]\n\x7d\n") key := by
    rw [htext, extract_append (by decide), extract_jsonStr hkey rfl (by decide),
      if_neg (fun hshows => hne (hname.shows_iff.mp hshows).symm)]
    exact (extract_append (t := [':', ' ', '[']) (by decide))
  rw [hskip, ← extract_tagsEnd hkey tags]
  cases tags with
  | nil => rfl
  | cons tag tags =>
    rw [map_cons, join_cons, flatMap_map, tagsEnd_cons, append_assoc,
      ← extract_append (t := [',']) (by decide)]
    rfl

lemma extract_fields_iff {want : Text} (hkey : IsName key) (hne : key ≠ "tags_at_setup")
    {fields : List (Text × Text)} (hnames : ∀ f ∈ fields, IsName f.1)
    (hwant : ∀ f ∈ fields, f.1 = key → f.2 = want)
    (hnone : (∀ f ∈ fields, f.1 ≠ key) → want = []) (tags : List Text) :
    extractStringField (fields.flatMap fieldText ++ tagsText tags) key = nonEmpty want ↔
      Retrieves key want fields tags := by
  induction fields with
  | nil =>
    rw [hnone (by simp)]
    exact extract_tagsText hkey hne tags
  | cons field fields ih =>
    obtain ⟨name, value⟩ := field
    rw [forall_mem_cons] at hnames hwant
    rw [flatMap_cons, append_assoc, extract_fieldText hkey hnames.1, Retrieves]
    split_ifs with hname hshows
    · rw [nonEmpty_inj, ← hwant.1 hname, flatMap_spelling_eq_self_iff]
    · cases fields with
      | nil =>
        rw [flatMap_nil, nil_append, valueAfter_tagsText, eq_comm, nonEmpty_eq_none, eq_comm]
        rfl
      | cons next fields =>
        obtain ⟨name', value'⟩ := next
        rw [flatMap_cons, append_assoc,
          valueAfter_fieldText (hnames.2 _ (mem_cons_self ..)), nonEmpty_inj]
        rfl
    · refine ih hnames.2 hwant.2 fun hall => hnone ?_
      rw [forall_mem_cons]
      exact ⟨hname, hall⟩

end Names

/-! ### The fields of a guest -/

section Guest

variable (a : PerVm) (now : UtcTime)

lemma writePerVmJson_eq : a.writePerVmJson now =
    '\x7b' :: ((a.fields now).flatMap fieldText ++ tagsText (a.tags.getD [])) := by
  have hshape : ∀ first text name tags brace : Text,
      first ++ (text ++ [name ++ tags, brace].flatMap (['\n'] ++ ·)) ++ ['\n'] =
        first ++ (text ++ ('\n' :: (name ++ tags) ++ '\n' :: (brace ++ ['\n']))) := by
    simp
  rw [PerVm.writePerVmJson, PerVm.lines, append_assoc, singleton_append, join_cons,
    flatMap_append, flatMap_map, hshape]
  rfl

/-- What the guest should read: the fields that were injected, where they are not empty. -/
def injected : FwCfgConfig where
  fleetId := if a.injectFid then nonEmpty (a.fleetId.getD []) else none
  vmid := if a.injectVmid then nonEmpty a.vmid else none
  role := if a.injectRole then nonEmpty (a.role.getD []) else none
  hostNode := nonEmpty a.hostname

/-- Each of the four fields meets the condition. -/
structure Retrievable : Prop where
  fleetId : Retrieves "fleet_id" (if a.injectFid then a.fleetId.getD [] else [])
    (a.fields now) (a.tags.getD [])
  vmid : Retrieves "vmid" (if a.injectVmid then a.vmid else []) (a.fields now)
    (a.tags.getD [])
  role : Retrieves "role" (if a.injectRole then a.role.getD [] else []) (a.fields now)
    (a.tags.getD [])
  hostNode : Retrieves "hostname" a.hostname (a.fields now) (a.tags.getD [])

variable {a now}

lemma mem_fields_iff {name value : Text} : (name, value) ∈ a.fields now ↔
    (name = "schema_version" ∧ value = "v1") ∨
    (a.injectVmid = true ∧ name = "vmid" ∧ value = a.vmid) ∨
    (name = "hostname" ∧ value = a.hostname) ∨
    (a.injectFid = true ∧ name = "fleet_id" ∧ value = a.fleetId.getD []) ∨
    (a.injectRole = true ∧ name = "role" ∧ value = a.role.getD []) ∨
    (name = "written_by" ∧ value = "lamboot-hookscript 0.8.4") ∨
    (name = "written_at" ∧ value = isoUtcNow now) := by
  simp only [PerVm.fields, mem_append, mem_ite_nil_right, mem_cons,
    not_mem_nil, or_false, or_assoc, Prod.mk.injEq]

lemma isName_of_mem_fields {name value : Text} (h : (name, value) ∈ a.fields now) :
    IsName name := by
  rcases mem_fields_iff.mp h with ⟨rfl, -⟩ | ⟨-, rfl, -⟩ | ⟨rfl, -⟩ | ⟨-, rfl, -⟩ | ⟨-, rfl, -⟩ |
    ⟨rfl, -⟩ | ⟨rfl, -⟩
  all_goals decide

/-- The fields that the guest reads: the key, whether it is injected, and its value. -/
def readFields (a : PerVm) : List (Text × Bool × Text) :=
  [("fleet_id", a.injectFid, a.fleetId.getD []), ("vmid", a.injectVmid, a.vmid),
    ("role", a.injectRole, a.role.getD []), ("hostname", true, a.hostname)]

variable {key value : Text} {inject : Bool}

lemma mem_fields_of_mem_readFields (h : (key, inject, value) ∈ readFields a) (v : Text) :
    (key, v) ∈ a.fields now ↔ inject = true ∧ v = value := by
  simp only [readFields, mem_cons, not_mem_nil, or_false, Prod.mk.injEq] at h
  rcases h with ⟨rfl, rfl, rfl⟩ | ⟨rfl, rfl, rfl⟩ | ⟨rfl, rfl, rfl⟩ | ⟨rfl, rfl, rfl⟩
  all_goals simp +decide only [mem_fields_iff, false_and, and_false, false_or, or_false, true_and]

lemma isName_of_mem_readFields (h : (key, inject, value) ∈ readFields a) :
    IsName key ∧ key ≠ "tags_at_setup" := by
  simp only [readFields, mem_cons, not_mem_nil, or_false, Prod.mk.injEq] at h
  rcases h with ⟨rfl, -⟩ | ⟨rfl, -⟩ | ⟨rfl, -⟩ | ⟨rfl, -⟩
  all_goals decide

lemma extract_writePerVmJson_iff (h : (key, inject, value) ∈ readFields a) :
    extractStringField (a.writePerVmJson now) key = (if inject then nonEmpty value else none) ↔
      Retrieves key (if inject then value else []) (a.fields now) (a.tags.getD []) := by
  have hwant : (if inject then nonEmpty value else none) =
      nonEmpty (if inject then value else []) := by
    split_ifs
    · rfl
    · rfl
  have hskip : extractStringField (['\x7b'] ++
      ((a.fields now).flatMap fieldText ++ tagsText (a.tags.getD []))) key = _ :=
    extract_append (by decide)
  obtain ⟨hkey, hne⟩ := isName_of_mem_readFields h
  have hmem (v : Text) : (key, v) ∈ a.fields now ↔ _ := mem_fields_of_mem_readFields h v
  rw [writePerVmJson_eq, hwant, ← extract_fields_iff hkey hne, ← hskip]
  · rfl
  · exact fun field => isName_of_mem_fields
  · rintro ⟨name, v⟩ hfield rfl
    obtain ⟨hinject, hv⟩ := (hmem v).mp hfield
    rw [if_pos hinject, hv]
  · intro hall
    split_ifs with hinject
    · exact absurd rfl (hall _ ((hmem value).mpr ⟨hinject, rfl⟩))
    · rfl

/-- **Reading what the hook script has written.** The guest reads exactly the fields that were
injected where each of the four fields meets the condition, and only there. -/
theorem parse_writePerVmJson_iff (a : PerVm) (now : UtcTime) :
    FwCfgConfig.parse (a.writePerVmJson now) = injected a ↔ Retrievable a now := by
  have hread {key value : Text} {inject : Bool} (h : (key, inject, value) ∈ readFields a) :
      extractStringField (a.writePerVmJson now) key = _ ↔ _ := extract_writePerVmJson_iff h
  have hfleetId := hread (mem_of_getElem? (i := 0) rfl)
  have hvmid := hread (mem_of_getElem? (i := 1) rfl)
  have hrole := hread (mem_of_getElem? (i := 2) rfl)
  have hhostname := hread (mem_of_getElem? (i := 3) rfl)
  rw [if_pos rfl, if_pos rfl] at hhostname
  constructor
  · intro h
    exact ⟨hfleetId.mp (congrArg FwCfgConfig.fleetId h), hvmid.mp (congrArg FwCfgConfig.vmid h),
      hrole.mp (congrArg FwCfgConfig.role h), hhostname.mp (congrArg FwCfgConfig.hostNode h)⟩
  · intro h
    rw [FwCfgConfig.parse, injected, hfleetId.mpr h.fleetId, hvmid.mpr h.vmid, hrole.mpr h.role,
      hhostname.mpr h.hostNode]

end Guest

def vmidRole : PerVm where
  vmid := "role"
  hostname := "pve2"
  fleetId := some "lab"
  role := some "web"
  tags := none

/-- The role that this guest reads is the name of its host. -/
theorem parse_writePerVmJson_of_vmid_role :
    (FwCfgConfig.parse (vmidRole.writePerVmJson ⟨2026, 5, 29, 1, 12, 12⟩)).role =
        some "pve2".toList ∧
      FwCfgConfig.parse (vmidRole.writePerVmJson ⟨2026, 5, 29, 1, 12, 12⟩) ≠ injected vmidRole := by
  decide +kernel

end LamBoot.FwCfg
