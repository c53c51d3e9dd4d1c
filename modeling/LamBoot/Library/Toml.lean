import LamBoot.Library.Text

/-!
# Arrays of strings as TOML writes them

Basic strings, in which the backslash and the quote are escaped, and literal strings, in which
nothing is; with white space around the items, a comma behind the last, and a comment behind the
array.
-/

namespace Toml

open List Text

def Printable (s : Text) : Prop :=
  ∀ c ∈ s, (0x20 ≤ c.toNat ∧ c.toNat ≠ 0x7F) ∨ c = '\t'
deriving Decidable

variable {s : Text}

lemma Printable.newline_not_mem (h : Printable s) : '\n' ∉ s := by
  intro hmem
  rcases h '\n' hmem with ⟨h, -⟩ | h
  · exact absurd h (by decide)
  · exact absurd h (by decide)

/-! ### Strings -/

/-- A string with the way it is written. -/
inductive Quoted where
  | basic (value : Text) (printable : Printable value)
  | literal (value : Text) (printable : Printable value) (unquoted : '\'' ∉ value)

def escape (s : Text) : Text :=
  s.flatMap fun c => if c = '\\' ∨ c = '"' then ['\\', c] else [c]

namespace Quoted

def value : Quoted → Text
  | .basic value _ => value
  | .literal value _ _ => value

def quote : Quoted → Char
  | .basic _ _ => '"'
  | .literal _ _ _ => '\''

def content : Quoted → Text
  | .basic value _ => escape value
  | .literal value _ _ => value

def text (q : Quoted) : Text :=
  q.quote :: q.content ++ [q.quote]

end Quoted

lemma escape_cons (c : Char) (s : Text) :
    escape (c :: s) = (if c = '\\' ∨ c = '"' then ['\\', c] else [c]) ++ escape s :=
  flatMap_cons

variable {c : Char}

lemma count_escape (hc : c ≠ '\\') : (escape s).count c = s.count c := by
  induction s with
  | nil => rfl
  | cons d s ih =>
    have hc' : '\\' ≠ c := Ne.symm hc
    rw [escape_cons, count_append, ih, count_cons, add_comm]
    split_ifs <;> simp_all

lemma mem_escape (hc : c ≠ '\\') : c ∈ escape s ↔ c ∈ s := by
  rw [← count_pos_iff, count_escape hc, count_pos_iff]

lemma count_backslash_escape (s : Text) :
    (escape s).count '\\' = s.count '\\' + (s.count '\\' + s.count '"') := by
  induction s with
  | nil => rfl
  | cons d s ih =>
    rw [escape_cons, count_append, ih]
    by_cases hbs : d = '\\'
    · subst hbs
      simp
      omega
    · by_cases hq : d = '"'
      · subst hq
        simp
        omega
      · simp [hbs, hq]

lemma escape_eq_self (hbs : '\\' ∉ s) (hq : '"' ∉ s) : escape s = s := by
  induction s with
  | nil => rfl
  | cons d s ih =>
    rw [mem_cons, not_or] at hbs hq
    rw [escape_cons, ih hbs.2 hq.2, if_neg (by rintro (h | h) <;> simp_all)]
    rfl

/-! ### Arrays -/

/-- White space between the tokens of an array. -/
structure Gap where
  text : Text
  blank : ∀ c ∈ text, c = ' ' ∨ c = '\t' ∨ c = '\n' ∨ c = '\r'

lemma Gap.whitespace (g : Gap) : ∀ c ∈ g.text, isWhitespace c = true := by
  intro c hc
  rcases g.blank c hc with rfl | rfl | rfl | rfl <;> decide

structure Item where
  before : Gap
  string : Quoted
  after : Gap

def Item.text (i : Item) : Text :=
  i.before.text ++ (i.string.text ++ i.after.text)

/-- A comment at the end of a line, with the white space before it. -/
structure Comment where
  spacing : Text
  note : Text
  blank : ∀ c ∈ spacing, c = ' ' ∨ c = '\t'
  oneLine : '\n' ∉ note

def Comment.text (c : Comment) : Text :=
  c.spacing ++ '#' :: c.note

def commentText (comment : Option Comment) : Text :=
  (comment.map Comment.text).getD []

lemma newline_not_mem_commentText (comment : Option Comment) : '\n' ∉ commentText comment := by
  cases comment with
  | none => simp [commentText]
  | some c =>
    simp only [commentText, Option.map_some, Option.getD_some, Comment.text, mem_append,
      mem_cons, not_or]
    refine ⟨fun h => ?_, by decide, c.oneLine⟩
    rcases c.blank '\n' h with h | h <;> exact absurd h (by decide)

/-- An array: its items, and the gap before the bracket where no item is before it. -/
structure Array where
  items : List Item
  tail : Option Gap
  comment : Option Comment

namespace Array

def values (a : Array) : List Text :=
  a.items.map (·.string.value)

def pieces (a : Array) : List Text :=
  a.items.map Item.text ++ a.tail.toList.map Gap.text

def body (a : Array) : Text :=
  join "," a.pieces

def text (a : Array) : Text :=
  '[' :: a.body ++ ']' :: commentText a.comment

def firstLine (a : Array) : Text :=
  a.text.takeWhile (· != '\n')

end Array

/-! ### Lines -/

lemma Quoted.quote_cases (q : Quoted) : q.quote = '"' ∨ q.quote = '\'' := by
  cases q with
  | basic value printable => exact .inl rfl
  | literal value printable unquoted => exact .inr rfl

lemma Quoted.newline_not_mem_text (q : Quoted) : '\n' ∉ q.text := by
  have hquote : '\n' ≠ q.quote := by
    rcases q.quote_cases with h | h <;> rw [h] <;> decide
  have hcontent : '\n' ∉ q.content := by
    cases q with
    | basic value printable =>
      exact fun h => printable.newline_not_mem ((mem_escape (by decide)).mp h)
    | literal value printable unquoted => exact printable.newline_not_mem
  simp [Quoted.text, hquote, hcontent]

lemma takeWhile_append_of_mem (h : c ∈ s) (t : Text) :
    (s ++ t).takeWhile (· != c) = s.takeWhile (· != c) := by
  induction s with
  | nil => cases h
  | cons d s ih =>
    by_cases hd : d = c
    · simp [hd]
    · have hs : c ∈ s := (mem_cons.mp h).resolve_left (Ne.symm hd)
      simp [hd, ih hs]

lemma takeWhile_append_of_not_mem (h : c ∉ s) (t : Text) :
    (s ++ t).takeWhile (· != c) = s ++ t.takeWhile (· != c) :=
  takeWhile_append_of_pos fun d hd => by
    simpa using fun hdc : d = c => h (hdc ▸ hd)

lemma join_cons (part : Text) (parts : List Text) :
    join "," (part :: parts) =
      part ++ if parts = [] then [] else ',' :: join "," parts := by
  cases parts <;> simp [join]

/-- Text that is still open at its end: after white space there, it is empty or ends with a comma or
a quote. -/
def Open (line : Text) : Prop :=
  ∃ s w, line = s ++ w ∧ (∀ c ∈ w, isWhitespace c = true) ∧
    ∀ c, s.getLast? = some c → c = ',' ∨ c = '"' ∨ c = '\''

lemma open_of_blank {w : Text} (h : ∀ c ∈ w, isWhitespace c = true) : Open w :=
  ⟨[], w, rfl, h, by simp⟩

lemma Open.append {line : Text} (h : Open line) (hs : s.getLast? = some c)
    (hc : c = ',' ∨ c = '"' ∨ c = '\'') : Open (s ++ line) := by
  obtain ⟨t, w, rfl, hw, ht⟩ := h
  refine ⟨s ++ t, w, (append_assoc s t w).symm, hw, fun d hd => ?_⟩
  rw [getLast?_append] at hd
  cases hlast : t.getLast? with
  | none =>
    rw [hlast, hs] at hd
    cases hd
    exact hc
  | some e =>
    rw [hlast] at hd
    cases hd
    exact ht _ hlast

lemma Gap.blank_takeWhile (g : Gap) (p : Char → Bool) :
    ∀ c ∈ g.text.takeWhile p, isWhitespace c = true :=
  fun c hc => g.whitespace c ((takeWhile_sublist p).subset hc)

lemma Quoted.getLast?_text (q : Quoted) : q.text.getLast? = some q.quote :=
  getLast?_concat

lemma open_takeWhile_join (items : List Item) (tail : Option Gap)
    (h : '\n' ∈ join "," (items.map Item.text ++ tail.toList.map Gap.text)) :
    Open ((join "," (items.map Item.text ++ tail.toList.map Gap.text)).takeWhile (· != '\n')) := by
  induction items with
  | nil =>
    cases tail with
    | none => cases h
    | some g =>
      rw [show join "," (([] : List Item).map Item.text ++ (some g).toList.map Gap.text) = g.text
        by simp [join]]
      exact open_of_blank (g.blank_takeWhile _)
  | cons i rest ih =>
    rw [map_cons, cons_append, join_cons, Item.text, append_assoc, append_assoc] at h ⊢
    by_cases hbefore : '\n' ∈ i.before.text
    · rw [takeWhile_append_of_mem hbefore]
      exact open_of_blank (i.before.blank_takeWhile _)
    rw [takeWhile_append_of_not_mem hbefore,
      takeWhile_append_of_not_mem i.string.newline_not_mem_text, ← append_assoc]
    have hlast : (i.before.text ++ i.string.text).getLast? = some i.string.quote := by
      rw [getLast?_append, Quoted.getLast?_text]
      rfl
    refine Open.append ?_ hlast ?_
    · by_cases hafter : '\n' ∈ i.after.text
      · rw [takeWhile_append_of_mem hafter]
        exact open_of_blank (i.after.blank_takeWhile _)
      · rw [takeWhile_append_of_not_mem hafter]
        simp only [mem_append, hbefore, i.string.newline_not_mem_text, hafter, false_or] at h
        split_ifs at h ⊢ with hmore
        · cases h
        · have hrest := (mem_cons.mp h).resolve_left (by decide)
          rw [takeWhile_cons_of_pos (by decide), append_cons]
          exact (ih hrest).append (c := ',') (by simp) (.inl rfl)
    · rcases i.string.quote_cases with hq | hq
      · exact .inr (.inl hq)
      · exact .inr (.inr hq)

/-- A line inside an array: after white space it is empty, or begins as a string does or with a
comma or the closing bracket. -/
def Continuation (line : Text) : Prop :=
  ∀ c, (trim line).head? = some c → c = ',' ∨ c = ']' ∨ c = '"' ∨ c = '\''

lemma continuation_nil : Continuation [] :=
  fun _ hc => nomatch hc

lemma head?_trim_cons (hc : isWhitespace c = false) (s : Text) :
    (trim (c :: s)).head? = some c := by
  rw [trim_eq_trimBy, ← singleton_append, trimBy_append_of_ends (d := c) (e := c) rfl hc rfl hc]
  rfl

def Continues (t : Text) : Prop :=
  ∀ line ∈ t.splitOn '\n', Continuation line

lemma Continues.append_blank {t w : Text}
    (hw : ∀ c ∈ w, c = ' ' ∨ c = '\t' ∨ c = '\n' ∨ c = '\r') (h : Continues t) :
    Continues (w ++ t) := by
  induction w with
  | nil => exact h
  | cons c w ih =>
    have hrest := ih fun d hd => hw d (mem_cons_of_mem _ hd)
    intro line hline
    rw [cons_append, splitOn_cons_eq_if_modifyHead] at hline
    split_ifs at hline with hc
    · rcases mem_cons.mp hline with rfl | hline
      · exact continuation_nil
      · exact hrest line hline
    · obtain ⟨first, rest, hfirst⟩ := exists_cons_of_ne_nil (splitOn_ne_nil '\n' (w ++ t))
      rw [hfirst, modifyHead_cons] at hline
      rcases mem_cons.mp hline with rfl | hline
      · have hblank : ∀ d ∈ [c], isWhitespace d = true := by
          intro d hd
          rw [mem_singleton] at hd
          rcases hw c mem_cons_self with rfl | rfl | rfl | rfl <;> rw [hd] <;> decide
        have htrim : trim (c :: first) = trim first := trimBy_append_left hblank
        rw [Continuation, htrim]
        exact hrest first (by rw [hfirst]; exact mem_cons_self)
      · exact hrest line (by rw [hfirst]; exact mem_cons_of_mem _ hline)

lemma Continues.append_token {t s : Text}
    (hc : c = ',' ∨ c = ']' ∨ c = '"' ∨ c = '\'') (hs : '\n' ∉ s) (h : Continues t) :
    Continues (c :: s ++ t) := by
  have hnewline : '\n' ∉ c :: s := by
    rw [mem_cons, not_or]
    exact ⟨by rcases hc with rfl | rfl | rfl | rfl <;> decide, hs⟩
  obtain ⟨first, rest, hfirst⟩ := exists_cons_of_ne_nil (splitOn_ne_nil '\n' t)
  intro line hline
  rw [splitOn_append_of_not_mem hnewline, hfirst, modifyHead_cons] at hline
  rcases mem_cons.mp hline with rfl | hline
  · intro d hd
    rw [cons_append, head?_trim_cons (by rcases hc with rfl | rfl | rfl | rfl <;> decide)] at hd
    cases hd
    exact hc
  · exact h line (by rw [hfirst]; exact mem_cons_of_mem _ hline)

lemma Continues.append_quoted {t : Text} (h : Continues t) (q : Quoted) :
    Continues (q.text ++ t) := by
  have hquote : q.quote = ',' ∨ q.quote = ']' ∨ q.quote = '"' ∨ q.quote = '\'' :=
    .inr (.inr q.quote_cases)
  have hcontent : '\n' ∉ q.content ++ [q.quote] :=
    fun hmem => q.newline_not_mem_text (mem_cons_of_mem _ hmem)
  exact h.append_token hquote hcontent

lemma Array.continuation_of_mem_tail (a : Array) :
    ∀ line ∈ (a.text.splitOn '\n').tail, Continuation line := by
  have hclose : Continues (']' :: commentText a.comment) := by
    have hnil : Continues [] := by
      intro line hline
      rw [splitOn_nil, mem_singleton] at hline
      exact hline ▸ continuation_nil
    simpa using hnil.append_token (c := ']') (by simp) (newline_not_mem_commentText a.comment)
  have hitem : ∀ (i : Item) (t : Text), Continues t → Continues (i.text ++ t) := by
    intro i t h
    rw [Item.text, append_assoc, append_assoc]
    exact ((h.append_blank i.after.blank).append_quoted i.string).append_blank i.before.blank
  have hitems : ∀ (items : List Item) (tail : Option Gap),
      Continues (join "," (items.map Item.text ++ tail.toList.map Gap.text) ++
        ']' :: commentText a.comment) := by
    intro items tail
    induction items with
    | nil =>
      cases tail with
      | none => exact hclose
      | some g => simpa [join] using hclose.append_blank g.blank
    | cons i rest ih =>
      rw [map_cons, cons_append, join_cons, append_assoc]
      refine hitem i _ ?_
      split_ifs
      · exact hclose
      · exact ih.append_token (s := []) (.inl rfl) (by simp)
  intro line hline
  have hbody := hitems a.items a.tail line
  rw [Array.text, cons_append, splitOn_cons_eq_if_modifyHead, if_neg (by decide)] at hline
  refine hbody (mem_of_mem_tail ?_)
  rwa [tail_modifyHead] at hline

/-! ### Counting characters -/

/-- A character that occurs in a written array only where a string holds it. -/
structure Inner (c : Char) : Prop where
  backslash : c ≠ '\\'
  quote : c ≠ '"'
  apostrophe : c ≠ '\''
  comma : c ≠ ','
  blank : isWhitespace c = false

def Quoted.escapes : Quoted → Nat
  | .basic value _ => value.count '\\' + value.count '"'
  | .literal _ _ _ => 0

lemma Quoted.count_text {q : Quoted} (hq : c ≠ '"') (ha : c ≠ '\'') :
    q.text.count c = q.content.count c := by
  have hquote : q.quote ≠ c := by
    rcases q.quote_cases with h | h
    · rw [h]
      exact Ne.symm hq
    · rw [h]
      exact Ne.symm ha
  simp [Quoted.text, count_cons_of_ne hquote]

lemma Quoted.count_content {q : Quoted} (hc : c ≠ '\\') :
    q.content.count c = q.value.count c := by
  cases q with
  | basic value printable => exact count_escape hc
  | literal value printable unquoted => rfl

lemma Quoted.count_backslash_content (q : Quoted) :
    q.content.count '\\' = q.value.count '\\' + q.escapes := by
  cases q with
  | basic value printable => exact count_backslash_escape value
  | literal value printable unquoted => rfl

lemma Gap.count_text (g : Gap) (hc : isWhitespace c = false) : g.text.count c = 0 := by
  rw [count_eq_zero]
  intro hmem
  rw [g.whitespace c hmem] at hc
  cases hc

lemma Item.count_text (i : Item) (hq : c ≠ '"') (ha : c ≠ '\'')
    (hw : isWhitespace c = false) : i.text.count c = i.string.content.count c := by
  rw [Item.text, count_append, count_append, i.before.count_text hw,
    i.after.count_text hw, Quoted.count_text hq ha]
  omega

lemma count_join (hc : c ≠ ',') (parts : List Text) :
    (join "," parts).count c = (parts.map (count c)).sum := by
  induction parts with
  | nil => rfl
  | cons part parts ih =>
    cases parts with
    | nil => simp [join]
    | cons next rest =>
      have hcons : join "," (part :: next :: rest) = part ++ (',' :: join "," (next :: rest)) := by
        simp [join]
      rw [hcons, count_append, count_cons_of_ne (Ne.symm hc), ih]
      simp only [map_cons, sum_cons]

namespace Array

variable (a : Array)

lemma count_body (hq : c ≠ '"') (ha : c ≠ '\'') (hcomma : c ≠ ',')
    (hw : isWhitespace c = false) :
    a.body.count c = (a.items.map fun i => i.string.content.count c).sum := by
  have htail : (a.tail.toList.map fun g => g.text.count c).sum = 0 := by
    cases a.tail with
    | none => rfl
    | some g => simpa using g.count_text hw
  have hitems : a.items.map (fun i => i.text.count c) =
      a.items.map fun i => i.string.content.count c :=
    map_congr_left fun i _ => i.count_text hq ha hw
  rw [body, count_join hcomma, pieces, map_append, sum_append, map_map, map_map]
  exact (congrArg₂ (· + ·) (congrArg sum hitems) htail).trans (Nat.add_zero _)

lemma count_values (c : Char) :
    a.values.flatten.count c = (a.items.map fun i => i.string.value.count c).sum := by
  rw [values, count_flatten, map_map]
  rfl

lemma count_body_of_inner (hc : Inner c) :
    a.body.count c = a.values.flatten.count c := by
  rw [a.count_body hc.quote hc.apostrophe hc.comma hc.blank, a.count_values]
  exact congrArg sum (map_congr_left fun i _ => Quoted.count_content hc.backslash)

lemma count_backslash_body :
    a.body.count '\\' =
      a.values.flatten.count '\\' + (a.items.map fun i => i.string.escapes).sum := by
  rw [a.count_body (by decide) (by decide) (by decide) (by decide), a.count_values, ← sum_map_add]
  exact congrArg sum (map_congr_left fun i _ => i.string.count_backslash_content)

end Array

end Toml
