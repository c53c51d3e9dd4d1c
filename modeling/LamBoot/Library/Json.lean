import LamBoot.Library.Digits

/-!
# JSON

The grammar of JSON texts. A number without a fraction and an exponent is an integer; other numbers
are kept as they are written. A lone surrogate is refused. The fuel of the readers bounds the depth
of their calls, for which the length of the text is enough.
-/

inductive Json where
  | null
  | bool (b : Bool)
  | int (n : Int)
  | real (text : Text)
  | str (s : Text)
  | arr (items : List Json)
  | obj (members : List (Text × Json))
deriving Repr

namespace Json

open List Text

def isWs (c : Char) : Bool :=
  c == ' ' || c == '\t' || c == '\n' || c == '\r'

def skipWs (s : Text) : Text :=
  s.dropWhile isWs

def expect (c : Char) : Text → Option Text
  | d :: rest => if d = c then some rest else none
  | [] => none

def token (c : Char) (s : Text) : Option Text :=
  expect c (skipWs s)

/-! ### Strings -/

def hexValue (c : Char) : Option Nat :=
  if '0' ≤ c ∧ c ≤ '9' then some (c.toNat - 48)
  else if 'a' ≤ c ∧ c ≤ 'f' then some (c.toNat - 87)
  else if 'A' ≤ c ∧ c ≤ 'F' then some (c.toNat - 55)
  else none

def readUnit : Text → Option (Nat × Text)
  | a :: b :: c :: d :: rest => do
    let a ← hexValue a
    let b ← hexValue b
    let c ← hexValue c
    let d ← hexValue d
    some (0x1000 * a + 0x100 * b + 0x10 * c + d, rest)
  | _ => none

/-- What follows `\u`, with the second half of a pair of surrogates. -/
def readUnicode (s : Text) : Option (Char × Text) := do
  let (unit, rest) ← readUnit s
  if 0xD800 ≤ unit ∧ unit < 0xDC00 then
    let rest ← expect '\\' rest
    let rest ← expect 'u' rest
    let (low, rest) ← readUnit rest
    if 0xDC00 ≤ low ∧ low < 0xE000 then
      some (Char.ofNat (0x10000 + 0x400 * (unit - 0xD800) + (low - 0xDC00)), rest)
    else none
  else if 0xDC00 ≤ unit ∧ unit < 0xE000 then none
  else some (Char.ofNat unit, rest)

def simpleEscape (c : Char) : Option Char :=
  if c = '"' ∨ c = '\\' ∨ c = '/' then some c
  else if c = 'b' then some (Char.ofNat 0x08)
  else if c = 'f' then some (Char.ofNat 0x0C)
  else if c = 'n' then some '\n'
  else if c = 'r' then some '\r'
  else if c = 't' then some '\t'
  else none

def readEscape : Text → Option (Char × Text)
  | [] => none
  | c :: rest => if c = 'u' then readUnicode rest else (simpleEscape c).map (·, rest)

/-- The next character of a string, or `none` at the quote that ends it. -/
def readChar : Text → Option (Option Char × Text)
  | [] => none
  | c :: rest =>
    if c = '"' then some (none, rest)
    else if c = '\\' then (readEscape rest).map fun (c, rest) => (some c, rest)
    else if c.toNat < 0x20 then none
    else some (some c, rest)

def readChars : Nat → Text → Option (Text × Text)
  | 0, _ => none
  | fuel + 1, s =>
    match readChar s with
    | none => none
    | some (none, rest) => some ([], rest)
    | some (some c, rest) => (readChars fuel rest).map fun (cs, rest) => (c :: cs, rest)

def readString (s : Text) : Option (Text × Text) :=
  readChars s.length s

/-! ### Numbers -/

def readDigits (s : Text) : Option (Text × Text) :=
  let digits := s.takeWhile Char.isDigit
  if digits = [] then none else some (digits, s.dropWhile Char.isDigit)

def readIntegerPart (s : Text) : Option (Text × Text) := do
  let (digits, rest) ← readDigits s
  if digits.head? = some '0' ∧ digits.length ≠ 1 then none else some (digits, rest)

def readFraction (s : Text) : Option (Text × Text) :=
  match expect '.' s with
  | none => some ([], s)
  | some rest => (readDigits rest).map fun (digits, rest) => ('.' :: digits, rest)

def readSign (s : Text) : Text × Text :=
  match s with
  | c :: rest => if c = '+' ∨ c = '-' then ([c], rest) else ([], s)
  | [] => ([], [])

def readExponent (s : Text) : Option (Text × Text) :=
  match s with
  | c :: rest =>
    if c = 'e' ∨ c = 'E' then
      let (sign, rest) := readSign rest
      (readDigits rest).map fun (digits, rest) => (c :: sign ++ digits, rest)
    else some ([], s)
  | [] => some ([], [])

def readUnsigned (s : Text) : Option ((Text × Text) × Text) := do
  let (digits, rest) ← readIntegerPart s
  let (fraction, rest) ← readFraction rest
  let (exponent, rest) ← readExponent rest
  some ((digits, fraction ++ exponent), rest)

def readNumber (s : Text) : Option (Json × Text) :=
  let (negative, s) :=
    match expect '-' s with
    | some rest => (true, rest)
    | none => (false, s)
  (readUnsigned s).map fun ((digits, more), rest) =>
    let n : Int := Nat.ofDigitChars 10 digits 0
    if more = [] then (.int (if negative then -n else n), rest)
    else (.real ((if negative then ['-'] else []) ++ digits ++ more), rest)

/-! ### Values -/

def readWord (s : Text) : Option (Json × Text) :=
  let word (w : Text) (v : Json) : Option (Json × Text) :=
    if w.isPrefixOf s then some (v, s.drop w.length) else none
  word "null" .null <|> word "true" (.bool true) <|> word "false" (.bool false)

mutual

def readValue : Nat → Text → Option (Json × Text)
  | 0, _ => none
  | fuel + 1, s =>
    match skipWs s with
    | [] => none
    | c :: rest =>
      if c = '"' then (readString rest).map fun (s, rest) => (.str s, rest)
      else if c = '{' then
        match token '}' rest with
        | some rest => some (.obj [], rest)
        | none => (readMembers fuel rest).map fun (members, rest) => (.obj members, rest)
      else if c = '[' then
        match token ']' rest with
        | some rest => some (.arr [], rest)
        | none => (readItems fuel rest).map fun (items, rest) => (.arr items, rest)
      else (readWord (c :: rest)).or (readNumber (c :: rest))

def readMembers : Nat → Text → Option (List (Text × Json) × Text)
  | 0, _ => none
  | fuel + 1, s => do
    let rest ← token '"' s
    let (key, rest) ← readString rest
    let rest ← token ':' rest
    let (value, rest) ← readValue fuel rest
    match token ',' rest with
    | some rest =>
      let (members, rest) ← readMembers fuel rest
      some ((key, value) :: members, rest)
    | none =>
      let rest ← token '}' rest
      some ([(key, value)], rest)

def readItems : Nat → Text → Option (List Json × Text)
  | 0, _ => none
  | fuel + 1, s => do
    let (value, rest) ← readValue fuel s
    match token ',' rest with
    | some rest =>
      let (items, rest) ← readItems fuel rest
      some (value :: items, rest)
    | none =>
      let rest ← token ']' rest
      some ([value], rest)

end

def parse (s : Text) : Option Json := do
  let (value, rest) ← readValue s.length s
  if skipWs rest = [] then some value else none

/-! ### Reading back what was written -/

variable {c : Char} {s : Text}

lemma skipWs_cons (h : isWs c = false) : skipWs (c :: s) = c :: s := by
  simp [skipWs, h]

@[simp] lemma expect_self (c : Char) (s : Text) : expect c (c :: s) = some s := by
  simp [expect]

lemma token_self (h : isWs c = false) : token c (c :: s) = some s := by
  rw [token, skipWs_cons h, expect_self]

lemma token_of_ne {c d : Char} (h : isWs d = false) (hne : d ≠ c) :
    token c (d :: s) = none := by
  rw [token, skipWs_cons h, expect, if_neg hne]

/-- A piece of a string that is read as the character. -/
def Spells (t : Text) (c : Char) : Prop :=
  ∀ rest, readChar (t ++ rest) = some (some c, rest)

lemma Spells.length_pos {t : Text} (h : Spells t c) : 0 < t.length := by
  cases t with
  | nil => exact nomatch h []
  | cons d t => exact Nat.succ_pos _

lemma spells_self (hquote : c ≠ '"') (hbackslash : c ≠ '\\') (h : 0x20 ≤ c.toNat) :
    Spells [c] c := by
  intro rest
  simp [readChar, hquote, hbackslash, Nat.not_lt.mpr h]

lemma readString_flatMap {esc : Char → Text} (hesc : ∀ c ∈ s, Spells (esc c) c)
    (rest : Text) : readString (s.flatMap esc ++ '"' :: rest) = some (s, rest) := by
  have hchars : ∀ fuel, (s.flatMap esc).length < fuel →
      readChars fuel (s.flatMap esc ++ '"' :: rest) = some (s, rest) := by
    induction s with
    | nil =>
      intro fuel hfuel
      obtain ⟨fuel, rfl⟩ := Nat.exists_eq_succ_of_ne_zero (Nat.ne_of_gt hfuel)
      rfl
    | cons c s ih =>
      intro fuel hfuel
      obtain ⟨fuel, rfl⟩ := Nat.exists_eq_succ_of_ne_zero (Nat.ne_zero_of_lt hfuel)
      have hc := hesc c mem_cons_self
      have hs : (s.flatMap esc).length < fuel := by
        have := hc.length_pos
        rw [flatMap_cons, length_append] at hfuel
        omega
      rw [flatMap_cons, append_assoc, readChars, hc]
      simp only [ih (fun d hd => hesc d (mem_cons_of_mem c hd)) fuel hs, Option.map_some]
  exact hchars _ (by simp)

def Delimited (rest : Text) : Prop :=
  ∀ c, rest.head? = some c → c = ',' ∨ c = '}' ∨ c = ']' ∨ isWs c = true

/-- A text that is read as the value, whatever comes after it. -/
def Reads (text : Text) (value : Json) : Prop :=
  ∀ fuel rest, text.length ≤ fuel → Delimited rest →
    readValue fuel (text ++ rest) = some (value, rest)

lemma parse_of_reads {text : Text} {value : Json} (h : Reads text value) :
    parse text = some value := by
  have hread := h text.length [] le_rfl (by simp [Delimited])
  rw [append_nil] at hread
  simp [parse, hread, skipWs]

lemma reads_string {esc : Char → Text} (hesc : ∀ c, Spells (esc c) c) (s : Text) :
    Reads ('"' :: s.flatMap esc ++ ['"']) (.str s) := by
  intro fuel rest hfuel _
  obtain ⟨fuel, rfl⟩ : ∃ n, fuel = n + 1 :=
    Nat.exists_eq_succ_of_ne_zero (by simp at hfuel; omega)
  have hstring := readString_flatMap (fun c (_ : c ∈ s) => hesc c) rest
  simp [readValue, skipWs_cons, isWs, hstring]

/-! ### Numbers -/

lemma length_toDigits_of_head?_zero {n : Nat} (h : (Nat.toDigits 10 n).head? = some '0') :
    (Nat.toDigits 10 n).length = 1 := by
  induction n using Nat.strong_induction_on with
  | _ n ih =>
    rcases Nat.lt_or_ge n 10 with hn | hn
    · rw [Nat.toDigits_of_lt_base hn]
      rfl
    · -- The first digit of a longer number is that of the number without its last digit.
      rw [Nat.toDigits_of_base_le (by decide) hn, List.head?_append_of_ne_nil _
        Nat.toDigits_ne_nil] at h
      have hlength := ih (n / 10) (by omega) h
      have hsmall : n / 10 < 10 :=
        (Nat.length_toDigits_le_iff (k := 1) (by decide) (by decide)).mp hlength.le
      rw [Nat.toDigits_of_lt_base hsmall] at h
      have hdigit : ∀ k < 10, 0 < k → Nat.digitChar k ≠ '0' := by decide
      exact absurd (Option.some.inj h) (hdigit _ hsmall (by omega))

lemma Delimited.not_number {rest : Text} (h : Delimited rest)
    (hc : rest.head? = some c) : c.isDigit = false ∧ c ≠ '.' ∧ c ≠ 'e' ∧ c ≠ 'E' := by
  rcases h c hc with rfl | rfl | rfl | hws
  · decide
  · decide
  · decide
  · simp only [isWs, Bool.or_eq_true, beq_iff_eq] at hws
    rcases hws with ((rfl | rfl) | rfl) | rfl <;> decide

lemma readUnsigned_toDigits {n : Nat} {rest : Text} (h : Delimited rest) :
    readUnsigned (Nat.toDigits 10 n ++ rest) = some ((Nat.toDigits 10 n, []), rest) := by
  have hdigits : readDigits (Nat.toDigits 10 n ++ rest) = some (Nat.toDigits 10 n, rest) := by
    have hall : ∀ c ∈ Nat.toDigits 10 n, c.isDigit = true := fun c hc =>
      Nat.isDigit_of_mem_toDigits (by decide) (by decide) hc
    have htake : rest.takeWhile Char.isDigit = [] ∧ rest.dropWhile Char.isDigit = rest := by
      cases rest with
      | nil => exact ⟨rfl, rfl⟩
      | cons c rest => simp [(h.not_number rfl).1]
    rw [readDigits, takeWhile_append_of_pos hall, dropWhile_append_of_pos hall, htake.1,
      htake.2, append_nil]
    exact if_neg Nat.toDigits_ne_nil
  have hinteger : readIntegerPart (Nat.toDigits 10 n ++ rest) = some (Nat.toDigits 10 n, rest) := by
    simp only [readIntegerPart, hdigits, Option.bind_eq_bind, Option.bind_some]
    exact if_neg fun hzero => hzero.2 (length_toDigits_of_head?_zero hzero.1)
  have hfraction : readFraction rest = some ([], rest) := by
    cases rest with
    | nil => rfl
    | cons c rest => simp [readFraction, expect, (h.not_number rfl).2.1]
  have hexponent : readExponent rest = some ([], rest) := by
    cases rest with
    | nil => rfl
    | cons c rest => simp [readExponent, (h.not_number rfl).2.2]
  simp [readUnsigned, hinteger, hfraction, hexponent]

lemma isDigit_ne (h : c.isDigit = true) :
    isWs c = false ∧ c ≠ '"' ∧ c ≠ '{' ∧ c ≠ '[' ∧ c ≠ '-' ∧ c ≠ 'n' ∧ c ≠ 't' ∧ c ≠ 'f' := by
  refine ⟨?_, ?_, ?_, ?_, ?_, ?_, ?_, ?_⟩
  · by_contra hws
    simp only [isWs, Bool.not_eq_false, Bool.or_eq_true, beq_iff_eq] at hws
    rcases hws with ((rfl | rfl) | rfl) | rfl <;> cases h
  all_goals
    rintro rfl
    cases h

lemma reads_nat (n : Nat) : Reads (Nat.toDigits 10 n) (.int n) := by
  intro fuel rest hfuel hrest
  obtain ⟨fuel, rfl⟩ : ∃ k, fuel = k + 1 :=
    Nat.exists_eq_succ_of_ne_zero (by have := Nat.length_toDigits_pos (b := 10) (n := n); omega)
  have hunsigned := readUnsigned_toDigits (n := n) hrest
  obtain ⟨c, cs, hcs⟩ := exists_cons_of_ne_nil (Nat.toDigits_ne_nil (b := 10) (n := n))
  have hc : c.isDigit = true :=
    Nat.isDigit_of_mem_toDigits (by decide) (by decide) (hcs ▸ mem_cons_self)
  obtain ⟨hws, hquote, hbrace, hbracket, hminus, hnull, htrue, hfalse⟩ := isDigit_ne hc
  have hword : readWord (c :: (cs ++ rest)) = none := by
    simp [readWord, hnull.symm, htrue.symm, hfalse.symm]
  have hnumber : readNumber (c :: (cs ++ rest)) = some (.int n, rest) := by
    rw [hcs, cons_append] at hunsigned
    simp [readNumber, expect, hminus, hunsigned, ← hcs]
  rw [hcs, cons_append, readValue, skipWs_cons hws]
  simp [hquote, hbrace, hbracket, hword, hnumber]

/-! ### Objects -/

def Plain (s : Text) : Prop :=
  ∀ c ∈ s, c ≠ '"' ∧ c ≠ '\\' ∧ 0x20 ≤ c.toNat

lemma readString_plain (h : Plain s) (rest : Text) :
    readString (s ++ '"' :: rest) = some (s, rest) := by
  have hread : readString (s.flatMap (fun c => [c]) ++ '"' :: rest) = some (s, rest) :=
    readString_flatMap (fun c hc => spells_self (h c hc).1 (h c hc).2.1 (h c hc).2.2) rest
  rwa [flatMap_singleton'] at hread

def memberText (key text : Text) : Text :=
  '"' :: key ++ '"' :: ':' :: text

section Members

variable {fuel : Nat} {key text rest : Text} {value : Json}

lemma readMembers_comma (hkey : Plain key)
    (hread : readValue fuel (text ++ ',' :: rest) = some (value, ',' :: rest)) :
    readMembers (fuel + 1) (memberText key text ++ ',' :: rest) =
      (readMembers fuel rest).map fun p => ((key, value) :: p.1, p.2) := by
  have hstring := readString_plain hkey (':' :: (text ++ ',' :: rest))
  rw [memberText, cons_append, cons_append, append_assoc, cons_append,
    cons_append, readMembers, token_self (by decide)]
  cases hmembers : readMembers fuel rest <;> simp [hstring, token_self, isWs, hread, hmembers]

lemma readMembers_brace (hkey : Plain key)
    (hread : readValue fuel (text ++ '}' :: rest) = some (value, '}' :: rest)) :
    readMembers (fuel + 1) (memberText key text ++ '}' :: rest) = some ([(key, value)], rest) := by
  have hstring := readString_plain hkey (':' :: (text ++ '}' :: rest))
  rw [memberText, cons_append, cons_append, append_assoc, cons_append,
    cons_append, readMembers, token_self (by decide)]
  simp [hstring, token_self, token_of_ne, isWs, hread]

end Members

def Writes (written : Text × Text) (member : Text × Json) : Prop :=
  written.1 = member.1 ∧ Plain member.1 ∧ Reads written.2 member.2

def membersText (written : List (Text × Text)) : Text :=
  join [','] (written.map fun m => memberText m.1 m.2)

lemma membersText_cons_cons (w w' : Text × Text) (written : List (Text × Text)) :
    membersText (w :: w' :: written) =
      memberText w.1 w.2 ++ ',' :: membersText (w' :: written) := by
  simp [membersText, join, intercalate_cons_cons]

lemma membersText_singleton (w : Text × Text) : membersText [w] = memberText w.1 w.2 := by
  simp [membersText, join]

variable {written : List (Text × Text)}

lemma mem_membersText (h : c ∈ membersText written) :
    c ∈ ['"', ':', ','] ∨ ∃ w ∈ written, c ∈ w.1 ∨ c ∈ w.2 := by
  have hmember : ∀ w : Text × Text, c ∈ memberText w.1 w.2 → c ∈ ['"', ':', ','] ∨ c ∈ w.1 ∨
      c ∈ w.2 := by
    intro w hw
    simp only [memberText, cons_append, mem_cons, mem_append] at hw ⊢
    tauto
  induction written with
  | nil => cases h
  | cons w written ih =>
    cases written with
    | nil =>
      rw [membersText_singleton] at h
      exact (hmember w h).imp_right fun hw => ⟨w, mem_cons_self, hw⟩
    | cons w' written =>
      rw [membersText_cons_cons, mem_append, mem_cons] at h
      rcases h with h | rfl | h
      · exact (hmember w h).imp_right fun hw => ⟨w, mem_cons_self, hw⟩
      · exact .inl (by decide)
      · exact (ih h).imp_right fun ⟨w'', hw'', hc⟩ => ⟨w'', mem_cons_of_mem w hw'', hc⟩

lemma mem_membersText_of_mem {w : Text × Text}
    (hw : w ∈ written) (hc : c ∈ w.2) : c ∈ membersText written := by
  induction written with
  | nil => cases hw
  | cons w' written ih =>
    have hmember : w = w' → c ∈ memberText w'.1 w'.2 := by
      rintro rfl
      simp [memberText, hc]
    cases written with
    | nil =>
      rw [membersText_singleton]
      exact hmember (mem_singleton.mp hw)
    | cons w'' written =>
      rw [membersText_cons_cons, mem_append, mem_cons]
      rcases mem_cons.mp hw with hw | hw
      · exact .inl (hmember hw)
      · exact .inr (.inr (ih hw))

lemma readMembers_membersText {members : List (Text × Json)}
    (h : List.Forall₂ Writes written members) (hne : members ≠ []) (fuel : Nat) (rest : Text)
    (hfuel : (membersText written).length ≤ fuel) :
    readMembers fuel (membersText written ++ '}' :: rest) = some (members, rest) := by
  induction h generalizing fuel with
  | nil => exact absurd rfl hne
  | @cons w m written members hw hrest ih =>
    obtain ⟨key, text⟩ := w
    obtain ⟨_, value⟩ := m
    obtain ⟨rfl, hkey, hread⟩ := hw
    dsimp only at hkey hread
    cases hrest with
    | nil =>
      rw [membersText_singleton, memberText, cons_append, length_cons, length_append] at hfuel
      obtain ⟨fuel, rfl⟩ := Nat.exists_eq_succ_of_ne_zero (Nat.ne_zero_of_lt hfuel)
      rw [membersText_singleton]
      refine readMembers_brace hkey (hread fuel _ ?_ ?_)
      · simp at hfuel
        omega
      · simp [Delimited]
    | @cons w' m' written members hw' hrest =>
      rw [membersText_cons_cons, length_append, memberText, cons_append, length_cons,
        length_append] at hfuel
      obtain ⟨fuel, rfl⟩ := Nat.exists_eq_succ_of_ne_zero (Nat.ne_zero_of_lt hfuel)
      simp only [length_cons] at hfuel
      rw [membersText_cons_cons, append_assoc, cons_append,
        readMembers_comma hkey (hread fuel _ (by omega) (by simp [Delimited])),
        ih (by simp) fuel (by omega)]
      rfl

lemma reads_object {members : List (Text × Json)}
    (h : List.Forall₂ Writes written members) (hne : members ≠ []) :
    Reads ('{' :: membersText written ++ ['}']) (.obj members) := by
  intro fuel rest hfuel _
  obtain ⟨fuel, rfl⟩ : ∃ k, fuel = k + 1 :=
    Nat.exists_eq_succ_of_ne_zero (by simp at hfuel; omega)
  have hmembers := readMembers_membersText h hne fuel rest (by simp at hfuel; omega)
  -- The first character of the members is a quote, so the object is not taken for an empty one.
  obtain ⟨s, hs⟩ : ∃ s, membersText written = '"' :: s := by
    cases h with
    | nil => exact absurd rfl hne
    | @cons w m written members hw hrest =>
      cases written <;> simp [membersText, join, memberText, intercalate_cons_cons]
  have hclose : token '}' (membersText written ++ '}' :: rest) = none := by
    rw [hs]
    exact token_of_ne (by decide) (by decide)
  rw [cons_append, cons_append, append_assoc, readValue, skipWs_cons (by decide)]
  simp [hclose, hmembers]

end Json
