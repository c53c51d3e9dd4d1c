import LamBoot.Tools.Shell

/-!
# Fields of KEY=VALUE files

The installer takes single fields from `os-release` and from GRUB's defaults without running the
file. This compares what it reads with what a shell assigns that does run it.
-/

namespace LamBoot

open List Text Shell

namespace Installer

/-! ### The reader -/

/-- `grep -E "^[[:space:]]*key="`. -/
def assigns (key line : Text) : Bool :=
  (key ++ ['=']).isPrefixOf (line.dropWhile isSpace)

/-- `${val%%[[:space:]]\#*}`. -/
def dropComment : Text → Text
  | [] => []
  | c :: s => if isSpace c && s.head? == some '#' then [] else c :: dropComment s

/-- `${val%%[[:space:]]}`. -/
def dropLastSpace (val : Text) : Text :=
  if val.getLast?.any isSpace then val.dropLast else val

/-- The `case` on the value. -/
def unquote : Text → Text
  | '"' :: val => val.takeWhile (· != '"')
  | '\x27' :: val => val.takeWhile (· != '\x27')
  | val => dropLastSpace (dropComment val)

def fieldValue (line : Text) : Text :=
  let line := stripCr line
  unquote (((splitOnce '=' line).map (·.2)).getD line)

/-- The value of the last line that assigns to the key; nothing when there is none, or when the file
cannot be read. -/
def readKeyvalField (file : Option Text) (key : Text) : Text :=
  match file with
  | none => []
  | some content =>
    match ((content.splitOn '\n').filter (assigns key)).getLast? with
    | none => []
    | some line => fieldValue line

end Installer

/-! ### What a shell assigns -/

namespace Shell

open Installer

def metacharacters : Text := "\"'\\$`;&|<>()~"

def escapable : Text := "\"\\$`"

/-- A piece of a double-quoted string: a character, or an escaped one. -/
inductive Piece where
  | plain (c : Char) (h : c ∉ escapable ∧ c ≠ '\n')
  | escaped (c : Char) (h : c ∈ escapable)

inductive Value where
  | word (s : Text) (h : ∀ c ∈ s, isSpace c = false ∧ c ∉ metacharacters)
  | single (s : Text) (h : '\x27' ∉ s ∧ '\n' ∉ s)
  | double (ps : List Piece)

def Piece.text : Piece → Text
  | plain c _ => [c]
  | escaped c _ => ['\\', c]

def Piece.char : Piece → Char
  | plain c _ => c
  | escaped c _ => c

def Piece.isEscaped : Piece → Bool
  | plain .. => false
  | escaped .. => true

namespace Value

def text : Value → Text
  | word s _ => s
  | single s _ => '\x27' :: (s ++ ['\x27'])
  | double ps => '"' :: (ps.flatMap Piece.text ++ ['"'])

def meaning : Value → Text
  | word s _ => s
  | single s _ => s
  | double ps => ps.map Piece.char

end Value

abbrev Key := { key : Text // key ≠ [] ∧ ∀ c ∈ key, c.isAlphanum = true ∨ c = '_' }

/-- A line with an assignment. A comment has white space before it; a carriage return at its end
belongs to the end of the line. -/
structure Assignment where
  key : Key
  value : Value
  blanks : Text
  comment : Option Text
  cr : Bool
  blanks_blank : ∀ c ∈ blanks, isBlank c = true
  comment_line : ∀ c ∈ comment, blanks ≠ [] ∧ '\n' ∉ c ∧ c.getLast? ≠ some '\r'

namespace Assignment

def rest (a : Assignment) : Text :=
  a.blanks ++ (a.comment.map ('#' :: ·)).getD []

def body (a : Assignment) : Text :=
  a.key.val ++ '=' :: (a.value.text ++ a.rest)

def text (a : Assignment) : Text :=
  a.body ++ if a.cr then ['\r'] else []

end Assignment

def fileText (as : List Assignment) (ended : Bool) : Text :=
  ['\n'].intercalate (as.map (·.text) ++ if ended then [[]] else [])

/-- Nothing is escaped, and there is no more white space behind a word than the reader drops: one
blank, and the one before a comment. -/
def Assignment.Simple (a : Assignment) : Prop :=
  match a.value with
  | .word .. => a.blanks.length ≤ if a.comment.isSome then 2 else 1
  | .single .. => True
  | .double ps => ∀ p ∈ ps, p.isEscaped = false

def lastTo (as : List Assignment) (key : Key) : Option Assignment :=
  (as.filter (·.key = key)).getLast?

def assigned (as : List Assignment) (key : Key) : Text :=
  ((lastTo as key).map (·.value.meaning)).getD []

/-! ### The lines of a file -/

section Lines

variable (a : Assignment) (as : List Assignment)

lemma isSpace_of_isBlank {c : Char} (h : isBlank c = true) : isSpace c = true := by
  simp only [isBlank, Bool.or_eq_true, beq_iff_eq] at h
  rcases h with rfl | rfl <;> decide

lemma Key.plain (key : Key) {c : Char} (hc : c ∈ key.val) :
    isSpace c = false ∧ c ≠ '=' ∧ c ≠ '\n' := by
  have hword := key.prop.2 c hc
  refine ⟨?_, ?_, ?_⟩
  · rw [← Bool.not_eq_true]
    intro hspace
    simp only [isSpace, isAsciiWhitespace, Bool.or_eq_true, beq_iff_eq] at hspace
    rcases hspace with ((((rfl | rfl) | rfl) | h) | rfl) | h
    any_goals simp at hword
    · obtain rfl : c = '\x0C' := Char.toNat_inj.mp h
      simp at hword
    · obtain rfl : c = '\x0B' := Char.toNat_inj.mp h
      simp at hword
  all_goals
    rintro rfl
    simp at hword

lemma Value.oneLine (v : Value) : '\n' ∉ v.text := by
  cases v with
  | word s h => exact fun hmem => absurd (h _ hmem).1 (by decide)
  | single s h => simpa [Value.text] using h.2
  | double ps =>
    simp only [Value.text, mem_cons, mem_append, mem_flatMap, not_mem_nil,
      or_false, not_or, not_exists, not_and]
    refine ⟨by decide, fun p _ hp => ?_, by decide⟩
    cases p with
    | plain c h => exact h.2 (mem_singleton.mp hp).symm
    | escaped c h =>
      rcases mem_pair.mp hp with hc | rfl
      · exact absurd hc (by decide)
      · exact absurd h (by decide)

lemma Assignment.oneLine : '\n' ∉ a.text := by
  have hblanks : '\n' ∉ a.blanks := fun h => absurd (a.blanks_blank _ h) (by decide)
  have hcomment : '\n' ∉ (a.comment.map ('#' :: ·)).getD [] := by
    cases hc : a.comment with
    | none => simp
    | some c => simpa using (a.comment_line c hc).2.1
  have hcr : '\n' ∉ if a.cr then ['\r'] else [] := by
    split_ifs <;> decide
  simp only [text, body, rest, mem_append, mem_cons, not_or]
  exact ⟨⟨fun h => (a.key.plain h).2.2 rfl, by decide, a.value.oneLine, hblanks, hcomment⟩, hcr⟩

lemma Key.splitOnce (key : Key) (s : Text) :
    Text.splitOnce '=' (key.val ++ '=' :: s) = some (key.val, s) :=
  splitOnce_eq_some_iff.mpr ⟨rfl, fun h => (key.plain h).2.1 rfl⟩

lemma Assignment.text_eq : a.text =
    a.key.val ++ '=' :: (a.value.text ++ a.rest ++ if a.cr then ['\r'] else []) := by
  rw [text, body, append_assoc, cons_append]

lemma assigns_text (key : Key) : assigns key.val a.text = decide (a.key = key) := by
  have hdrop : a.text.dropWhile isSpace = a.text := by
    obtain ⟨c, s, hkey⟩ := exists_cons_of_ne_nil a.key.prop.1
    have hc := (a.key.plain (by rw [hkey]; exact mem_cons_self : c ∈ a.key.val)).1
    rw [a.text_eq, hkey, cons_append, dropWhile_cons_of_neg (by simp [hc])]
  rw [assigns, hdrop, Bool.eq_iff_iff, isPrefixOf_iff_prefix, decide_eq_true_eq, a.text_eq]
  constructor
  · rintro ⟨t, ht⟩
    have hsplit := key.splitOnce t
    rw [← singleton_append, ← append_assoc, ht, a.key.splitOnce] at hsplit
    exact Subtype.ext (congrArg Prod.fst (Option.some.inj hsplit))
  · rintro rfl
    exact ⟨_, append_cons .. |>.symm⟩

lemma readKeyvalField_fileText (ended : Bool) (key : Key) :
    readKeyvalField (some (fileText as ended)) key.val =
      ((lastTo as key).map (fieldValue ·.text)).getD [] := by
  have hnil : assigns key.val [] = false := by
    simp [assigns]
  have hfilter : ((fileText as ended).splitOn '\n').filter (assigns key.val) =
      (as.filter (·.key = key)).map (·.text) := by
    have htail : (if ended then [[]] else []).filter (assigns key.val) = [] := by
      cases ended <;> simp [hnil]
    have hmap : (as.map (·.text)).filter (assigns key.val) =
        (as.filter (·.key = key)).map (·.text) := by
      rw [filter_map]
      exact congrArg _ (filter_congr fun a _ => assigns_text a key)
    rw [← hmap, ← append_nil (filter _ (as.map _)), ← htail, ← filter_append, fileText]
    by_cases hne : as.map (·.text) ++ (if ended then [[]] else []) = []
    · rw [hne]
      simp [hnil]
    · rw [splitOn_intercalate '\n' (fun line hline => ?_) hne]
      rcases mem_append.mp hline with h | h
      · obtain ⟨a, -, rfl⟩ := mem_map.mp h
        exact a.oneLine
      · cases ended <;> simp_all
  rw [readKeyvalField, hfilter, getLast?_map, lastTo]
  cases (as.filter (·.key = key)).getLast? <;> rfl

end Lines

/-! ### The value of a line -/

section Values

variable {a : Assignment} {s bs c : Text}

lemma Assignment.stripCr_text : stripCr a.text = a.body := by
  have hlast : a.body.getLast? ≠ some '\r' := by
    have hblanks : '\r' ∉ a.blanks := fun h => absurd (a.blanks_blank _ h) (by decide)
    have hvalue : ('=' :: a.value.text).getLast? ≠ some '\r' := by
      cases a.value with
      | word s h =>
        intro hmem
        rcases mem_cons.mp (mem_of_getLast? hmem) with hc | hc
        · exact absurd hc (by decide)
        · exact absurd (h _ hc).1 (by decide)
      | single s h => simp [Value.text, getLast?_cons]
      | double ps => simp [Value.text, getLast?_cons]
    have hrest : a.rest.getLast? ≠ some '\r' := by
      cases hc : a.comment with
      | none =>
        rw [rest, hc]
        simpa using fun h => hblanks (mem_of_getLast? h)
      | some c =>
        have hcr := (a.comment_line c hc).2.2
        rw [rest, hc]
        cases c with
        | nil => simp
        | cons d c => simpa using hcr
    rw [body, ← cons_append, getLast?_append, getLast?_append]
    cases hr : a.rest.getLast? with
    | none => cases hv : ('=' :: a.value.text).getLast? <;> simp_all
    | some d => simp_all
  rw [text]
  split_ifs
  · simp [stripCr]
  · rw [append_nil, stripCr, if_neg hlast]

lemma fieldValue_text :
    fieldValue a.text = unquote (a.value.text ++ a.rest) := by
  rw [fieldValue, a.stripCr_text, Assignment.body, a.key.splitOnce]
  rfl

lemma dropComment_word (hs : ∀ c ∈ s, isSpace c = false) (t : Text) :
    dropComment (s ++ t) = s ++ dropComment t := by
  induction s with
  | nil => rfl
  | cons d s ih =>
    rw [forall_mem_cons] at hs
    simp [dropComment, hs.1, ih hs.2]

lemma dropComment_blanks (hbs : ∀ c ∈ bs, isBlank c = true) : dropComment bs = bs := by
  induction bs with
  | nil => rfl
  | cons b bs ih =>
    rw [forall_mem_cons] at hbs
    have hhead : bs.head? ≠ some '#' := fun h =>
      absurd (hbs.2 _ (mem_of_head? h)) (by decide)
    simp [dropComment, hhead, ih hbs.2]

lemma dropComment_comment (hne : bs ≠ []) (hbs : ∀ c ∈ bs, isBlank c = true) (c : Text) :
    dropComment (bs ++ '#' :: c) = bs.dropLast := by
  induction bs with
  | nil => exact absurd rfl hne
  | cons b bs ih =>
    rw [forall_mem_cons] at hbs
    cases bs with
    | nil => simp [dropComment, isSpace_of_isBlank hbs.1]
    | cons b' bs =>
      have hb' : b' ≠ '#' := by
        rintro rfl
        exact absurd (hbs.2 _ mem_cons_self) (by decide)
      rw [cons_append, dropComment, dropLast_cons_of_ne_nil (by simp), ← ih (by simp) hbs.2]
      simp [hb']

lemma dropLastSpace_append (hs : ∀ c ∈ s, isSpace c = false) (hbs : ∀ c ∈ bs, isBlank c = true) :
    dropLastSpace (s ++ bs) = s ++ bs.dropLast := by
  rcases eq_nil_or_concat bs with rfl | ⟨bs, b, rfl⟩
  · have hlast : s.getLast?.any isSpace = false := by
      rw [Option.any_eq_false]
      exact fun c hc => by simp [hs c (mem_of_getLast? hc)]
    simp [dropLastSpace, hlast]
  · have hb : isSpace b = true := isSpace_of_isBlank (hbs b (by simp))
    simp [dropLastSpace, hb, ← append_assoc]

lemma unquote_word (hs : ∀ c ∈ s, isSpace c = false ∧ c ∉ metacharacters)
    (hrest : ∀ c ∈ a.rest.head?, isBlank c = true) :
    unquote (s ++ a.rest) =
      dropLastSpace (dropComment (s ++ a.rest)) := by
  have hhead : ∀ c ∈ (s ++ a.rest).head?, c ≠ '"' ∧ c ≠ '\x27' := by
    intro c hc
    rw [head?_append] at hc
    cases s with
    | nil =>
      have hblank := hrest c hc
      constructor <;> rintro rfl <;> exact absurd hblank (by decide)
    | cons d s =>
      obtain rfl := Option.some.inj hc
      have hd := (hs d mem_cons_self).2
      constructor <;> rintro rfl <;> exact absurd hd (by decide)
  unfold unquote
  split
  · next h => simp [h] at hhead
  · next h => simp [h] at hhead
  · rfl

lemma word_read_iff (hs : ∀ c ∈ s, isSpace c = false ∧ c ∉ metacharacters) :
    unquote (s ++ a.rest) = s ↔
      a.blanks.length ≤ if a.comment.isSome then 2 else 1 := by
  have hspace : ∀ c ∈ s, isSpace c = false := fun c hc => (hs c hc).1
  have hcut : ∀ x : Text, s ++ x = s ↔ x.length = 0 := by simp
  cases hc : a.comment with
  | none =>
    have hrest : a.rest = a.blanks := by simp [Assignment.rest, hc]
    rw [unquote_word hs, hrest, dropComment_word hspace, dropComment_blanks a.blanks_blank,
      dropLastSpace_append hspace a.blanks_blank, hcut]
    · simp [Nat.sub_eq_zero_iff_le]
    · exact fun c hmem => a.blanks_blank c (mem_of_head? (hrest ▸ hmem))
  | some c =>
    have hrest : a.rest = a.blanks ++ '#' :: c := by simp [Assignment.rest, hc]
    have hne := (a.comment_line c hc).1
    rw [unquote_word hs, hrest, dropComment_word hspace, dropComment_comment hne a.blanks_blank,
      dropLastSpace_append hspace fun b hb => a.blanks_blank b (mem_of_mem_dropLast hb), hcut]
    · simp
      omega
    · intro b hb
      rw [hrest, head?_append_of_ne_nil _ hne] at hb
      exact a.blanks_blank b (mem_of_head? hb)

lemma takeWhile_quote {q : Char} (h : q ∉ s) (t : Text) :
    (s ++ q :: t).takeWhile (· != q) = s := by
  have hs : ∀ c ∈ s, (c != q) = true := fun c hc => bne_iff_ne.mpr fun hq => h (hq ▸ hc)
  rw [takeWhile_append_of_pos hs]
  simp

lemma length_flatMap_text (ps : List Piece) :
    (ps.flatMap Piece.text).length = ps.length + ps.countP Piece.isEscaped := by
  induction ps with
  | nil => rfl
  | cons p ps ih =>
    rw [flatMap_cons, length_append, ih, countP_cons]
    cases p <;> simp [Piece.text, Piece.isEscaped] <;> omega

lemma double_read_iff (ps : List Piece) (t : Text) :
    (ps.flatMap Piece.text ++ '"' :: t).takeWhile (· != '"') = ps.map Piece.char ↔
      ∀ p ∈ ps, p.isEscaped = false := by
  constructor
  · intro hread
    have hquote : '"' ∉ ps.flatMap Piece.text := by
      rw [mem_flatMap]
      rintro ⟨p, hp, hmem⟩
      have hchar : '"' ∈ ps.map Piece.char := by
        refine mem_map.mpr ⟨p, hp, ?_⟩
        cases p with
        | plain c h => exact (mem_singleton.mp hmem).symm
        | escaped c h => exact ((mem_pair.mp hmem).resolve_left (by decide)).symm
      rw [← hread] at hchar
      simpa using mem_takeWhile_imp hchar
    have hlength := congrArg length ((takeWhile_quote hquote t).symm.trans hread)
    rw [length_flatMap_text, length_map, Nat.add_eq_left, countP_eq_zero] at hlength
    simpa using hlength
  · intro h
    have hself : ps.flatMap Piece.text = ps.map Piece.char := by
      rw [map_eq_flatMap]
      refine flatMap_congr fun p hp => ?_
      cases p with
      | plain c hc => rfl
      | escaped c hc => cases h _ hp
    rw [hself]
    refine takeWhile_quote (fun hmem => ?_) t
    obtain ⟨p, hp, hc⟩ := mem_map.mp hmem
    cases p with
    | plain c hplain => exact hplain.1 (by rw [show c = '"' from hc]; decide)
    | escaped c _ => cases h _ hp

lemma fieldValue_eq_iff : fieldValue a.text = a.value.meaning ↔ a.Simple := by
  rw [fieldValue_text, Assignment.Simple]
  cases a.value with
  | word s h => exact word_read_iff h
  | single s h =>
    refine iff_of_true ?_ trivial
    change takeWhile _ ((s ++ ['\x27']) ++ a.rest) = s
    rw [append_assoc]
    exact takeWhile_quote h.1 a.rest
  | double ps =>
    change takeWhile _ ((ps.flatMap Piece.text ++ ['"']) ++ a.rest) = _ ↔ _
    rw [append_assoc]
    exact double_read_iff ps a.rest

end Values

/-- A field is read as a shell assigns it exactly if its last assignment is simple. -/
theorem readKeyvalField_eq_assigned_iff (as : List Assignment) (ended : Bool) (key : Key) :
    readKeyvalField (some (fileText as ended)) key.val = assigned as key ↔
      ∀ a ∈ lastTo as key, a.Simple := by
  rw [readKeyvalField_fileText, assigned]
  cases lastTo as key with
  | none => simp
  | some a => simpa using fieldValue_eq_iff

/-- `NAME="a\"b"`. -/
def escapedQuote : Assignment where
  key := ⟨"NAME", by decide⟩
  value := .double [.plain 'a' (by decide), .escaped '"' (by decide), .plain 'b' (by decide)]
  blanks := []
  comment := none
  cr := false
  blanks_blank := by decide
  comment_line := by simp

theorem readKeyvalField_escapedQuote :
    readKeyvalField (some (fileText [escapedQuote] true)) escapedQuote.key.val = "a\\" ∧
      assigned [escapedQuote] escapedQuote.key = "a\"b" := by
  decide

end Shell

end LamBoot
