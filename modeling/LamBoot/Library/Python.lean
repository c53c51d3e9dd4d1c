import LamBoot.Library.Json

/-!
# Strings as Python has them

`splitlines` ends a line at more characters than the line feed, and `strip` removes more than the
Unicode property `White_Space`. What belongs to Python's tables and to its error handlers is a
parameter.
-/

/-- What is taken from a Python runtime. -/
structure Python where
  /-- `bytes.decode("utf-8", errors="replace")`. -/
  decode : Bytes → Text
  decode_utf8 : ∀ s, decode (Text.utf8 s) = s
  /-- `str` of a value that is not a string. -/
  str : Json → Text
  /-- `int` of a string that `isdigit` accepts. -/
  intOfDigits : Text → Option Int
  /-- The value of a decimal digit, for `\d` and `int`. -/
  digit : Char → Option Nat
  digit_ascii : ∀ c, c.toNat < 128 → digit c = if c.isDigit then some (c.toNat - 48) else none
  /-- The word characters of `\w`. -/
  isWord : Char → Bool
  /-- The message of a `JSONDecodeError`. -/
  jsonError : Text → Text
  /-- `hashlib.sha256(...).hexdigest()`. -/
  sha256 : Bytes → Text

namespace Python

open List Text

def minimal : Python where
  decode bytes := ((bytes.toByteArray.utf8Decode?).map Array.toList).getD []
  decode_utf8 s := by
    rw [show (Text.utf8 s).toByteArray = s.utf8Encode from rfl, utf8Decode?_utf8Encode]
    rfl
  str _ := []
  intOfDigits _ := none
  digit c := if c.isDigit then some (c.toNat - 48) else none
  digit_ascii _ _ := rfl
  isWord c := c.isAlphanum || c == '_'
  jsonError _ := []
  sha256 _ := []

/-- The characters at which `splitlines` ends a line. -/
def isLineBoundary (c : Char) : Bool :=
  (0x0A ≤ c.toNat && c.toNat ≤ 0x0D) || (0x1C ≤ c.toNat && c.toNat ≤ 0x1E) || c.toNat == 0x85 ||
    c.toNat == 0x2028 || c.toNat == 0x2029

/-- `str.isspace` of one character. -/
def isSpace (c : Char) : Bool :=
  isWhitespace c || (0x1C ≤ c.toNat && c.toNat ≤ 0x1F)

def strip (s : Text) : Text :=
  trimBy isSpace s

/-- `str.splitlines`. A carriage return and a line feed end one line, and the empty text behind the
last end is no line. -/
def splitlines (s : Text) : List Text :=
  go false [] s
where
  -- whether a carriage return came just before, and the line so far from its end back
  go (afterCr : Bool) (line : Text) : Text → List Text
    | [] => if line = [] then [] else [line.reverse]
    | c :: rest =>
      if isLineBoundary c = false then go false (c :: line) rest
      else if afterCr = true ∧ c = '\n' then go false line rest
      else line.reverse :: go (c == '\r') [] rest

variable {s : Text} {e : Char}

lemma splitlines_go_append (hlast : s.getLast? = some e)
    (he : isLineBoundary e = false) (rest : Text) (afterCr : Bool) (line : Text) :
    splitlines.go afterCr line (s ++ '\n' :: rest) =
      splitlines.go afterCr line s ++ splitlines rest := by
  induction s generalizing afterCr line with
  | nil => cases hlast
  | cons c s ih =>
    cases s with
    | nil =>
      obtain rfl : c = e := Option.some.inj hlast
      rw [cons_append, nil_append, splitlines.go, if_pos he, splitlines.go,
        splitlines.go, if_pos he]
      simp [splitlines.go, splitlines, isLineBoundary]
    | cons d s =>
      rw [getLast?_cons_cons] at hlast
      rw [cons_append, splitlines.go, splitlines.go, ih hlast, ih hlast, ih hlast]
      split_ifs <;> rfl

lemma splitlines_flatMap {lines : List Text}
    (h : ∀ line ∈ lines, ∃ e, line.getLast? = some e ∧ isLineBoundary e = false) :
    splitlines (lines.flatMap (· ++ ['\n'])) = lines.flatMap splitlines := by
  induction lines with
  | nil => rfl
  | cons line lines ih =>
    obtain ⟨e, hlast, he⟩ := h line mem_cons_self
    rw [flatMap_cons, append_assoc, singleton_append, splitlines,
      splitlines_go_append hlast he, ih fun l hl => h l (mem_cons_of_mem line hl)]
    rfl

lemma splitlines_go_of_forall (h : ∀ c ∈ s, isLineBoundary c = false) (rest : Text)
    (hs : s ≠ []) (afterCr : Bool) (line : Text) :
    splitlines.go afterCr line (s ++ rest) = splitlines.go false (s.reverse ++ line) rest := by
  induction s generalizing afterCr line with
  | nil => exact absurd rfl hs
  | cons c s ih =>
    rw [cons_append, splitlines.go, if_pos (h c mem_cons_self)]
    by_cases hnil : s = []
    · subst hnil
      rfl
    · rw [ih (fun d hd => h d (mem_cons_of_mem c hd)) hnil]
      simp

lemma splitlines_eq_singleton (h : ∀ c ∈ s, isLineBoundary c = false) (hs : s ≠ []) :
    splitlines s = [s] := by
  have hgo := splitlines_go_of_forall h [] hs false []
  rw [append_nil, append_nil] at hgo
  rw [splitlines, hgo, splitlines.go, if_neg (by simpa using hs), reverse_reverse]

lemma mem_splitlines_go {s piece line : Text} {afterCr : Bool} (hcr : afterCr = true → line = [])
    (hline : ∀ c ∈ line, isLineBoundary c = false) (h : piece ∈ splitlines.go afterCr line s) :
    (∀ c ∈ piece, isLineBoundary c = false) ∧
      ((∃ t tail, piece = line.reverse ++ t ∧ s = t ++ tail ∧
          ∀ c ∈ tail.head?, isLineBoundary c = true) ∨
        ∃ x b tail, s = x ++ b :: (piece ++ tail) ∧ isLineBoundary b = true) := by
  induction s generalizing afterCr line with
  | nil =>
    rw [splitlines.go] at h
    split_ifs at h
    · cases h
    · rw [mem_singleton.mp h]
      exact ⟨fun c hc => hline c (mem_reverse.mp hc), .inl ⟨[], [], by simp, rfl, nofun⟩⟩
  | cons c s ih =>
    rw [splitlines.go] at h
    split_ifs at h with hc hnewline
    · have hline' : ∀ d ∈ c :: line, isLineBoundary d = false :=
        forall_mem_cons.mpr ⟨hc, hline⟩
      obtain ⟨hpiece, ⟨t, tail, rfl, rfl, htail⟩ | ⟨x, b, tail, rfl, hb⟩⟩ :=
        ih (fun hfalse => absurd hfalse Bool.false_ne_true) hline' h
      · exact ⟨hpiece, .inl ⟨c :: t, tail, by simp, rfl, htail⟩⟩
      · exact ⟨hpiece, .inr ⟨c :: x, b, tail, rfl, hb⟩⟩
    · -- The line begins behind the line feed.
      have hnil := hcr hnewline.1
      obtain ⟨hpiece, ⟨t, tail, rfl, rfl, -⟩ | ⟨x, b, tail, rfl, hb⟩⟩ :=
        ih (fun hfalse => absurd hfalse Bool.false_ne_true) hline h
      · exact ⟨hpiece, .inr ⟨[], c, tail, by simp [hnil], by simpa using hc⟩⟩
      · exact ⟨hpiece, .inr ⟨c :: x, b, tail, rfl, hb⟩⟩
    · rcases mem_cons.mp h with rfl | h
      · exact ⟨fun d hd => hline d (mem_reverse.mp hd),
          .inl ⟨[], c :: s, by simp, rfl, by simpa using hc⟩⟩
      · obtain ⟨hpiece, ⟨t, tail, rfl, rfl, -⟩ | ⟨x, b, tail, rfl, hb⟩⟩ :=
          ih (fun _ => rfl) (by simp) h
        · exact ⟨hpiece, .inr ⟨[], c, tail, by simp, by simpa using hc⟩⟩
        · exact ⟨hpiece, .inr ⟨c :: x, b, tail, rfl, hb⟩⟩

lemma mem_splitlines {s piece : Text} (h : piece ∈ splitlines s) :
    (∀ c ∈ piece, isLineBoundary c = false) ∧
      ((∃ tail, s = piece ++ tail ∧ ∀ c ∈ tail.head?, isLineBoundary c = true) ∨
        ∃ x b tail, s = x ++ b :: (piece ++ tail) ∧ isLineBoundary b = true) := by
  obtain ⟨hpiece, ⟨t, tail, rfl, hs, htail⟩ | hlater⟩ :=
    mem_splitlines_go (fun _ => rfl) (by simp) h
  · exact ⟨hpiece, .inl ⟨tail, hs, htail⟩⟩
  · exact ⟨hpiece, .inr hlater⟩

variable {c : Char}

lemma isSpace_of_isLineBoundary (h : isLineBoundary c = true) : isSpace c = true := by
  simp only [isLineBoundary, Bool.or_eq_true, Bool.and_eq_true, decide_eq_true_eq, beq_iff_eq] at h
  simp only [isSpace, isWhitespace, Bool.or_eq_true, Bool.and_eq_true, decide_eq_true_eq,
    beq_iff_eq]
  omega

lemma exists_append_strip (s : Text) :
    ∃ a b, s = a ++ strip s ++ b ∧ (∀ c ∈ a, isSpace c = true) ∧ ∀ c ∈ b, isSpace c = true := by
  refine ⟨s.takeWhile isSpace, (s.dropWhile isSpace).rtakeWhile isSpace, ?_,
    fun c hc => mem_takeWhile_imp hc, fun c hc => mem_rtakeWhile_imp hc⟩
  rw [strip, trimBy, append_assoc, rdropWhile_append_rtakeWhile, takeWhile_append_dropWhile]

lemma strip_ne_nil_of_mem (hc : c ∈ s) (hspace : isSpace c = false) :
    strip s ≠ [] := by
  intro h
  have hcount := count_trimBy (s := s) hspace
  rw [show trimBy isSpace s = [] from h] at hcount
  exact absurd hcount (Nat.ne_of_lt (count_pos_iff.mpr hc))

lemma exists_mem_splitlines_go (hlast : s.getLast? = some e)
    (he : isLineBoundary e = false) (afterCr : Bool) (line : Text) :
    ∃ piece ∈ splitlines.go afterCr line s, e ∈ piece := by
  induction s generalizing afterCr line with
  | nil => cases hlast
  | cons c s ih =>
    cases s with
    | nil =>
      obtain rfl : c = e := Option.some.inj hlast
      rw [splitlines.go, if_pos he]
      exact ⟨(c :: line).reverse, by simp [splitlines.go], by simp⟩
    | cons d s =>
      rw [getLast?_cons_cons] at hlast
      rw [splitlines.go]
      split_ifs
      · exact ih hlast _ _
      · exact ih hlast _ _
      · obtain ⟨piece, hpiece, hmem⟩ := ih hlast (c == '\r') []
        exact ⟨piece, mem_cons_of_mem _ hpiece, hmem⟩

def nonblank (lines : List Text) : List Text :=
  lines.filter fun line => strip line ≠ []

lemma two_le_length_nonblank {d e c : Char} (hhead : s.head? = some d)
    (hd : isSpace d = false) (hlast : s.getLast? = some e) (he : isSpace e = false) (hc : c ∈ s)
    (hboundary : isLineBoundary c = true) : 2 ≤ (nonblank (splitlines s)).length := by
  have hnot : ∀ {a}, isSpace a = false → isLineBoundary a = false := fun ha => by
    by_contra hb
    rw [isSpace_of_isLineBoundary (by simpa using hb)] at ha
    cases ha
  -- The first line goes up to the first boundary, and the last character is in a later one.
  obtain ⟨before, b, after, rfl, hb, hbefore⟩ : ∃ before b after, s = before ++ b :: after ∧
      isLineBoundary b = true ∧ ∀ a ∈ before, isLineBoundary a = false := by
    obtain ⟨b, hfind⟩ := Option.isSome_iff_exists.mp (find?_isSome.mpr ⟨c, hc, hboundary⟩)
    obtain ⟨hb, before, after, hs, hbefore⟩ := find?_eq_some_iff_append.mp hfind
    exact ⟨before, b, after, hs, hb, fun a ha => by simpa using hbefore a ha⟩
  have hbefore_ne : before ≠ [] := by
    rintro rfl
    obtain rfl : b = d := Option.some.inj hhead
    rw [hnot hd] at hb
    cases hb
  have hdmem : d ∈ before := by
    obtain ⟨a, before, rfl⟩ := exists_cons_of_ne_nil hbefore_ne
    obtain rfl : a = d := Option.some.inj hhead
    exact mem_cons_self
  have hafter : after.getLast? = some e := by
    rw [getLast?_append_of_ne_nil _ (cons_ne_nil b after)] at hlast
    cases after with
    | nil =>
      obtain rfl : b = e := Option.some.inj hlast
      rw [hnot he] at hb
      cases hb
    | cons a after => rwa [getLast?_cons_cons] at hlast
  have hsplit : splitlines (before ++ b :: after) =
      before :: splitlines.go (b == '\r') [] after := by
    rw [splitlines, splitlines_go_of_forall hbefore _ hbefore_ne, append_nil, splitlines.go,
      if_neg (by simp [hb]), if_neg (by simp), reverse_reverse]
  obtain ⟨piece, hpiece, hmem⟩ := exists_mem_splitlines_go hafter (hnot he) (b == '\r') []
  have hlater : piece ∈ nonblank (splitlines.go (b == '\r') [] after) :=
    mem_filter.mpr ⟨hpiece, decide_eq_true (strip_ne_nil_of_mem hmem he)⟩
  have hfirst : decide (strip before ≠ []) = true :=
    decide_eq_true (strip_ne_nil_of_mem hdmem hd)
  rw [hsplit, nonblank, filter_cons, if_pos hfirst, length_cons]
  exact Nat.succ_le_succ (length_pos_of_mem hlater)

lemma isLineBoundary_eq_false (hge : 0x20 ≤ c.toNat) (h85 : c.toNat ≠ 0x85)
    (h2028 : c.toNat ≠ 0x2028) (h2029 : c.toNat ≠ 0x2029) : isLineBoundary c = false := by
  simp only [isLineBoundary, Bool.or_eq_false_iff, Bool.and_eq_false_iff, decide_eq_false_iff_not,
    beq_eq_false_iff_ne]
  omega

/-! ### Dictionaries -/

abbrev Dict := List (Text × Json)

namespace Dict

def set (d : Dict) (key : Text) (value : Json) : Dict :=
  if d.any (·.1 = key) then d.map fun item => if item.1 = key then (key, value) else item
  else d ++ [(key, value)]

def ofMembers (members : List (Text × Json)) : Dict :=
  members.foldl (fun d member => set d member.1 member.2) []

def get (d : Dict) (key : Text) : Option Json :=
  (d.find? (·.1 = key)).map Prod.snd

lemma set_of_not_mem {d : Dict} {key : Text} {value : Json} (h : key ∉ d.map Prod.fst) :
    set d key value = d ++ [(key, value)] := by
  have hany : d.any (·.1 = key) = false := by
    rw [any_eq_false]
    intro item hitem hkey
    exact h (mem_map.mpr ⟨item, hitem, of_decide_eq_true hkey⟩)
  rw [set, hany]
  rfl

lemma ofMembers_eq_self {members : List (Text × Json)} (h : (members.map Prod.fst).Nodup) :
    ofMembers members = members := by
  have hfold : ∀ d : Dict, ((d ++ members).map Prod.fst).Nodup →
      members.foldl (fun d member => set d member.1 member.2) d = d ++ members := by
    clear h
    induction members with
    | nil => exact fun d _ => (append_nil d).symm
    | cons member members ih =>
      intro d h
      have hnew : member.1 ∉ d.map Prod.fst := by
        rw [map_append, nodup_append] at h
        exact fun hmem => h.2.2 member.1 hmem member.1 (by simp) rfl
      rw [foldl_cons, set_of_not_mem hnew, ih (d ++ [(member.1, member.2)]) (by simpa using h)]
      simp
  exact hfold [] h

section Get

variable {key key' : Text} {value : Json} {d d' : Dict}

@[simp] lemma get_nil : get [] key = none := rfl

lemma get_cons_self : get ((key, value) :: d) key = some value := by
  simp [get]

lemma get_cons_of_ne (h : key' ≠ key) : get ((key', value) :: d) key = get d key := by
  simp [get, h]

lemma get_append : get (d ++ d') key = (get d key).or (get d' key) := by
  rw [get, get, get, find?_append]
  cases d.find? (·.1 = key) <;> rfl

end Get

end Dict

/-! ### Searching -/

def leadingNumber (py : Python) (s : Text) : Option Nat :=
  let digits := (s.takeWhile fun c => (py.digit c).isSome).filterMap py.digit
  if digits = [] then none else some (digits.foldl (fun n d => 10 * n + d) 0)

/-- `re.search` of a word followed by `(\d+)`. -/
def searchNumber (py : Python) (word : Text) : Text → Option Nat
  | [] => none
  | c :: rest =>
    match if word.isPrefixOf (c :: rest) then leadingNumber py ((c :: rest).drop word.length)
      else none with
    | some n => some n
    | none => searchNumber py word rest

lemma searchNumber_append_digit (py : Python) {word : Text} (hword : word ≠ [])
    (hc : c.isDigit = true) : searchNumber py word (word ++ [c]) = some (c.toNat - 48) := by
  obtain ⟨d, word, rfl⟩ := exists_cons_of_ne_nil hword
  have hascii : c.toNat < 128 := by
    have hrange : 48 ≤ c.toNat ∧ c.toNat ≤ 57 := Char.isDigit_iff_toNat.mp hc
    omega
  have hdigit : py.digit c = some (c.toNat - 48) := by rw [py.digit_ascii c hascii, if_pos hc]
  have hnumber : leadingNumber py [c] = some (c.toNat - 48) := by
    simp [leadingNumber, hdigit]
  have hfound : (d :: word).isPrefixOf (d :: (word ++ [c])) = true := by simp
  rw [cons_append, searchNumber, if_pos hfound, ← cons_append, drop_left, hnumber]

/-- `re.search` of text that ends in a word character, followed by `\b`. -/
def searchWord (py : Python) (word : Text) : Text → Bool
  | [] => false
  | c :: rest =>
    (word.isPrefixOf (c :: rest) &&
      !(((c :: rest).drop word.length).head?.any py.isWord)) || searchWord py word rest

lemma searchWord_of_notMem {py : Python} {w z s : Text} (hs : e ∉ s) :
    searchWord py (w ++ e :: z) s = false := by
  induction s with
  | nil => rfl
  | cons c s ih =>
    have hnot : (w ++ e :: z).isPrefixOf (c :: s) = false := by
      rw [← Bool.not_eq_true, isPrefixOf_iff_prefix]
      exact fun hpre => hs (hpre.subset (by simp))
    rw [searchWord, hnot, ih fun hmem => hs (mem_cons_of_mem c hmem)]
    rfl

lemma append_cons_prefix_iff {w a : Text} (z t : Text) (hw : e ∉ w) (ha : e ∉ a) :
    w ++ e :: z <+: a ++ e :: t ↔ w = a ∧ z <+: t := by
  induction w generalizing a with
  | nil =>
    cases a with
    | nil => simp
    | cons c a =>
      refine iff_of_false (fun hpre => ha ?_) nofun
      exact (cons_prefix_cons.mp hpre).1 ▸ mem_cons_self
  | cons d w ih =>
    cases a with
    | nil =>
      refine iff_of_false (fun hpre => hw ?_) nofun
      exact (cons_prefix_cons.mp hpre).1 ▸ mem_cons_self
    | cons c a =>
      rw [cons_append, cons_append, cons_prefix_cons,
        ih (not_mem_of_not_mem_cons hw) (not_mem_of_not_mem_cons ha), cons.injEq, and_assoc]

lemma searchWord_append_cons {py : Python} {w z a t : Text} (hw : e ∉ w) (ha : e ∉ a) :
    searchWord py (w ++ e :: z) (a ++ e :: t) = true ↔
      (w <:+ a ∧ z <+: t ∧ (t.drop z.length).head?.any py.isWord = false) ∨
        searchWord py (w ++ e :: z) t = true := by
  have hdrop : ((w ++ e :: t).drop (w ++ e :: z).length).head? = (t.drop z.length).head? := by
    rw [length_append, drop_length_add_append, length_cons, drop_succ_cons]
  induction a with
  | nil =>
    rw [nil_append, searchWord, Bool.or_eq_true, Bool.and_eq_true, isPrefixOf_iff_prefix,
      ← nil_append (e :: t), append_cons_prefix_iff z t hw ha, suffix_nil, Bool.not_eq_true',
      and_assoc]
    refine or_congr_left (and_congr_right fun hnil => ?_)
    rw [← hdrop, hnil]
  | cons c a ih =>
    rw [cons_append, searchWord, Bool.or_eq_true, Bool.and_eq_true, isPrefixOf_iff_prefix,
      ← cons_append, append_cons_prefix_iff z t hw ha, suffix_cons_iff,
      Bool.not_eq_true', or_and_right, or_assoc, and_assoc]
    refine or_congr (and_congr_right fun heq => ?_) (ih (not_mem_of_not_mem_cons ha))
    rw [← heq, hdrop]

/-- The operator `in` on strings, for a text that is not empty. -/
def contains (word : Text) : Text → Bool
  | [] => false
  | c :: rest => word.isPrefixOf (c :: rest) || contains word rest

end Python
