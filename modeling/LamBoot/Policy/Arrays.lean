import LamBoot.Library.Toml
import LamBoot.Policy.Toml

/-!
# What the array parser reads

`parse_toml_array` cuts the line an array begins on at its commas and takes the white space and the
quotes off the pieces.
-/

namespace LamBoot

open List Text

/-! ### The items of a line -/

section Items

variable {c : Char} {inner x : Text}

lemma count_stripItem (hw : isWhitespace c = false) (hq : c ≠ '"') (ha : c ≠ '\'') (s : Text) :
    (stripItem s).count c = s.count c := by
  rw [stripItem, trimMatches_eq_trimBy, trimMatches_eq_trimBy, trim_eq_trimBy,
    count_trimBy (by simpa using ha), count_trimBy (by simpa using hq), count_trimBy hw]

/-- What every item has in common: it is not empty, and neither holds a comma nor begins or ends
with an apostrophe. -/
structure ItemShape (x : Text) : Prop where
  ne_nil : x ≠ []
  comma : ',' ∉ x
  head : x.head? ≠ some '\''
  last : x.getLast? ≠ some '\''

lemma itemShape_of_mem (h : x ∈ arrayItems inner) : ItemShape x := by
  obtain ⟨hx, hne⟩ := mem_filter.mp h
  obtain ⟨piece, hpiece, rfl⟩ := mem_map.mp hx
  refine ⟨by simpa using hne, ?_, fun hhead => ?_, fun hlast => ?_⟩
  · rw [← count_eq_zero, count_stripItem (by decide) (by decide) (by decide), count_eq_zero]
    exact not_mem_of_mem_splitOn hpiece
  · exact absurd (head?_trimBy hhead) (by decide)
  · exact absurd (getLast?_trimBy hlast) (by decide)

lemma count_arrayItems (hc : c ≠ '"' ∧ c ≠ '\'' ∧ c ≠ ',' ∧ isWhitespace c = false) (inner : Text) :
    (arrayItems inner).flatten.count c = inner.count c := by
  obtain ⟨hq, ha, hcomma, hw⟩ := hc
  have hjoin := Toml.count_join hcomma (inner.splitOn ',')
  rw [join, show "," = [','] from rfl, intercalate_splitOn] at hjoin
  rw [hjoin, arrayItems, flatten_filter_ne_nil, count_flatten, map_map]
  exact congrArg sum (map_congr_left fun s _ => count_stripItem hw hq ha s)

lemma arrayItems_bracket (s : Text) :
    (arrayItems ('[' :: s)).head? = some (stripItem ('[' :: s.takeWhile (· != ','))) := by
  obtain ⟨rest, hrest⟩ := exists_splitOn_eq_cons ',' ('[' :: s)
  rw [takeWhile_cons_of_pos (by decide)] at hrest
  have hbracket : '[' ∈ stripItem ('[' :: s.takeWhile (· != ',')) := by
    rw [← count_pos_iff, count_stripItem (by decide) (by decide) (by decide), count_cons_self]
    omega
  rw [arrayItems, hrest, map_cons, filter_cons_of_pos (by simpa using ne_nil_of_mem hbracket)]
  rfl

lemma parseTomlArray_of_trim {raw t : Text} (h : trim raw = t) :
    parseTomlArray raw =
      arrayItems (if t.head? = some '[' ∧ t.getLast? = some ']' then t.tail.dropLast else t) := by
  rw [parseTomlArray, h]

end Items

/-! ### Arrays that are read as they are meant -/

/-- A string that needs no decoding. -/
inductive PlainString : Toml.Quoted → Prop where
  | basic {value : Text} {printable : Toml.Printable value} (shape : ItemShape value)
      (backslash : '\\' ∉ value) (quote : '"' ∉ value) : PlainString (.basic value printable)
  | literal {value : Text} {printable : Toml.Printable value} {unquoted : '\'' ∉ value}
      (shape : ItemShape value) : PlainString (.literal value printable unquoted)

/-- An array on one line, without a comment, of such strings. -/
structure PlainArray (a : Toml.Array) : Prop where
  comment : a.comment = none
  oneLine : '\n' ∉ a.body
  items : ∀ i ∈ a.items, PlainString i.string

/-- The one array over several lines whose reading comes out right: the bracket that is left alone
on the first line is read as the only string, and is it. -/
def BareBracket (a : Toml.Array) : Prop :=
  ∃ i, a.items = [i] ∧ '\n' ∈ i.before.text ∧ i.string.value = ['[']

/-! ### Reading an array -/

section Reading

variable {a : Toml.Array}

lemma firstLine_of_oneLine (hline : '\n' ∉ a.body) : a.firstLine = a.text := by
  have hcomment := Toml.newline_not_mem_commentText a.comment
  have htext : '\n' ∉ a.text := by
    simp [Toml.Array.text, hline, hcomment]
  rw [Toml.Array.firstLine, takeWhile_eq_self_iff]
  intro c hc
  simpa using fun h : c = '\n' => htext (h ▸ hc)

lemma parse_of_oneLine (hcomment : a.comment = none) (hline : '\n' ∉ a.body) :
    parseTomlArray a.firstLine = arrayItems a.body := by
  have htext : a.firstLine = ('[' :: a.body) ++ [']'] := by
    rw [firstLine_of_oneLine hline, Toml.Array.text, hcomment]
    rfl
  have htrim : trim a.firstLine = ('[' :: a.body) ++ [']'] := by
    rw [htext, trim_eq_trimBy]
    exact trimBy_of_ends (d := '[') (e := ']') rfl (by decide) getLast?_concat (by decide)
  rw [parseTomlArray_of_trim htrim, if_pos ⟨rfl, getLast?_concat⟩]
  simp

lemma inner_open : Toml.Inner '[' :=
  ⟨by decide, by decide, by decide, by decide, by decide⟩

lemma inner_close : Toml.Inner ']' :=
  ⟨by decide, by decide, by decide, by decide, by decide⟩

lemma count_of_arrayItems_eq {inner : Text} {c : Char} (hc : Toml.Inner c)
    (h : arrayItems inner = a.values) : inner.count c = a.body.count c := by
  rw [← count_arrayItems ⟨hc.quote, hc.apostrophe, hc.comma, hc.blank⟩, h, a.count_body_of_inner hc]

lemma parse_ne_of_comment {comment : Toml.Comment} (hcomment : a.comment = some comment)
    (hline : '\n' ∉ a.body) : parseTomlArray a.firstLine ≠ a.values := by
  intro h
  let start : Text := '[' :: a.body ++ ']' :: comment.spacing ++ ['#']
  let note : Text := comment.note.rdropWhile isWhitespace
  have htrim : trim a.firstLine = start ++ note := by
    have htext : a.firstLine = start ++ comment.note := by
      rw [firstLine_of_oneLine hline, Toml.Array.text, hcomment]
      simp [Toml.commentText, Toml.Comment.text, start]
    rw [htext, trim_eq_trimBy]
    exact trimBy_append_of_ends (d := '[') (e := '#') rfl (by decide) getLast?_concat
      (by decide)
  rw [parseTomlArray_of_trim htrim] at h
  split_ifs at h with hclosed
  · -- the bracket at the end belongs to the comment, and that of the array is left
    obtain ⟨n, hn⟩ : ∃ n, note = n ++ [']'] := by
      have hlast := hclosed.2
      rw [getLast?_append] at hlast
      cases hnote : note.getLast? with
      | none =>
        rw [hnote, show start.getLast? = some '#' from getLast?_concat] at hlast
        cases hlast
      | some d =>
        rw [hnote] at hlast
        cases hlast
        exact ⟨note.dropLast, (dropLast_append_getLast? _ hnote).symm⟩
    have hinner : (start ++ note).tail.dropLast =
        a.body ++ ']' :: (comment.spacing ++ '#' :: n) := by
      have hsplit : start ++ note =
          '[' :: ((a.body ++ ']' :: (comment.spacing ++ '#' :: n)) ++ [']']) := by
        simp [start, hn]
      rw [hsplit, tail_cons, dropLast_concat]
    have hcount := count_of_arrayItems_eq inner_close h
    rw [hinner, count_append, count_cons_self] at hcount
    omega
  · have hcount := count_of_arrayItems_eq inner_open h
    simp only [start, cons_append, count_cons_self, count_append] at hcount
    omega

lemma parse_of_newline (hline : '\n' ∈ a.body) :
    ∃ s w, a.body.takeWhile (· != '\n') = s ++ w ∧ (∀ c ∈ w, isWhitespace c = true) ∧
      (∀ c, s.getLast? = some c → c = ',' ∨ c = '"' ∨ c = '\'') ∧
        parseTomlArray a.firstLine = arrayItems ('[' :: s) := by
  obtain ⟨s, w, hopen, hw, hs⟩ := Toml.open_takeWhile_join a.items a.tail hline
  refine ⟨s, w, hopen, hw, hs, ?_⟩
  have hfirst : a.firstLine = ('[' :: s) ++ w := by
    rw [Toml.Array.firstLine, Toml.Array.text, cons_append,
      takeWhile_cons_of_pos (by decide), Toml.takeWhile_append_of_mem hline,
      show a.body.takeWhile (· != '\n') = s ++ w from hopen]
    rfl
  have hlast : ∀ d, ('[' :: s).getLast? = some d → isWhitespace d = false ∧ d ≠ ']' := by
    intro d hd
    rw [getLast?_cons] at hd
    cases hsl : s.getLast? with
    | none =>
      rw [hsl] at hd
      cases hd
      decide
    | some e =>
      rw [hsl] at hd
      cases hd
      rcases hs _ hsl with rfl | rfl | rfl <;> decide
  have htrim : trim a.firstLine = '[' :: s := by
    rw [hfirst, trim_eq_trimBy, trimBy_append_right hw]
    refine trimBy_eq_self (fun d hd => ?_) (fun d hd => (hlast d hd).1)
    cases hd
    decide
  rw [parseTomlArray_of_trim htrim, if_neg]
  rintro ⟨-, hclosed⟩
  exact (hlast _ hclosed).2 rfl

variable {q : Toml.Quoted}

lemma comma_not_mem_text (h : ',' ∉ q.value) : ',' ∉ q.text := by
  rw [← count_eq_zero, Toml.Quoted.count_text (by decide) (by decide),
    Toml.Quoted.count_content (by decide), count_eq_zero]
  exact h

lemma comma_not_mem_gap (g : Toml.Gap) : ',' ∉ g.text := by
  rw [← count_eq_zero]
  exact g.count_text (by decide)

lemma count_bracket_first {i : Toml.Item} {rest : List Toml.Item} {s w : Text}
    (hitems : a.items = i :: rest) (hbefore : '\n' ∉ i.before.text) (hcomma : ',' ∉ i.string.value)
    (hfirst : a.body.takeWhile (· != '\n') = s ++ w) (hw : ∀ c ∈ w, isWhitespace c = true) :
    i.string.value.count '[' ≤ (s.takeWhile (· != ',')).count '[' := by
  obtain ⟨z, hz⟩ : ∃ z, s ++ w = i.before.text ++ (i.string.text ++ z) := by
    rw [← hfirst, Toml.Array.body, Toml.Array.pieces, hitems, map_cons, cons_append,
      Toml.join_cons, Toml.Item.text, append_assoc, append_assoc,
      Toml.takeWhile_append_of_not_mem hbefore,
      Toml.takeWhile_append_of_not_mem i.string.newline_not_mem_text]
    exact ⟨_, rfl⟩
  have hline : i.string.value.count '[' ≤ ((s ++ w).takeWhile (· != ',')).count '[' := by
    rw [hz, Toml.takeWhile_append_of_not_mem (comma_not_mem_gap _),
      Toml.takeWhile_append_of_not_mem (comma_not_mem_text hcomma), count_append,
      count_append, Toml.Quoted.count_text (by decide) (by decide),
      Toml.Quoted.count_content (by decide)]
    omega
  have hblank : ((w.takeWhile (· != ',')).count '[') = 0 := by
    rw [count_eq_zero]
    intro hmem
    exact absurd (hw _ ((takeWhile_sublist _).subset hmem)) (by decide)
  by_cases hs : ',' ∈ s
  · rwa [Toml.takeWhile_append_of_mem hs] at hline
  · rw [Toml.takeWhile_append_of_not_mem hs, count_append, hblank] at hline
    rw [show s.takeWhile (· != ',') = s by simpa using Toml.takeWhile_append_of_not_mem hs []]
    exact hline

lemma eq_nil_of_newline_before {i : Toml.Item} {rest : List Toml.Item} {s w : Text}
    (hitems : a.items = i :: rest) (hbefore : '\n' ∈ i.before.text)
    (hfirst : a.body.takeWhile (· != '\n') = s ++ w)
    (hs : ∀ c, s.getLast? = some c → c = ',' ∨ c = '"' ∨ c = '\'') : s = [] := by
  rw [Toml.Array.body, Toml.Array.pieces, hitems, map_cons, cons_append,
    Toml.join_cons, Toml.Item.text, append_assoc, Toml.takeWhile_append_of_mem hbefore]
    at hfirst
  rcases eq_nil_or_concat s with hnil | ⟨t, c, rfl⟩
  · exact hnil
  · have hc : c ∈ i.before.text.takeWhile (· != '\n') := by simp [hfirst]
    have hblank := i.before.blank_takeWhile _ c hc
    rcases hs c (by simp) with rfl | rfl | rfl <;> exact absurd hblank (by decide)

lemma bareBracket_of_parse_eq (hline : '\n' ∈ a.body) (h : parseTomlArray a.firstLine = a.values) :
    BareBracket a := by
  obtain ⟨s, w, hfirst, hw, hs, hparse⟩ := parse_of_newline hline
  rw [hparse] at h
  have hhead := arrayItems_bracket s
  rw [h] at hhead
  cases hitems : a.items with
  | nil =>
    rw [Toml.Array.values, hitems] at hhead
    cases hhead
  | cons i rest =>
    rw [Toml.Array.values, hitems, map_cons, head?_cons, Option.some.injEq] at hhead
    have hmem : i.string.value ∈ arrayItems ('[' :: s) := by
      rw [h, Toml.Array.values, hitems]
      exact mem_cons_self
    by_cases hbefore : '\n' ∈ i.before.text
    · have hsnil := eq_nil_of_newline_before hitems hbefore hfirst hs
      rw [hsnil, show arrayItems ['['] = [['[']] by decide, Toml.Array.values, hitems] at h
      simp only [map_cons, cons.injEq, nil_eq, map_eq_nil_iff] at h
      exact ⟨i, by rw [hitems, h.2], hbefore, h.1.symm⟩
    · -- the first item has a bracket too many
      have hcount := congrArg (count '[') hhead
      rw [count_stripItem (by decide) (by decide) (by decide), count_cons_self] at hcount
      have hle := count_bracket_first hitems hbefore (itemShape_of_mem hmem).comma hfirst hw
      omega

lemma trim_text (i : Toml.Item) : trim i.text = i.string.text := by
  have hquote : isWhitespace i.string.quote = false := by
    rcases i.string.quote_cases with h | h <;> rw [h] <;> decide
  rw [Toml.Item.text, trim_eq_trimBy, trimBy_append_left i.before.whitespace,
    trimBy_append_right i.after.whitespace]
  exact trimBy_of_ends rfl hquote i.string.getLast?_text hquote

lemma trimMatches_quoted {c : Char} {s : Text} (h : c ∉ s) :
    trimMatches c (c :: s ++ [c]) = s := by
  have hc : ∀ d ∈ [c], (d == c) = true := by simp
  have hs : ∀ d ∈ s, (d == c) = false := fun d hd => by
    simpa using fun hdc : d = c => h (hdc ▸ hd)
  rw [trimMatches_eq_trimBy, trimBy_append_right hc, ← singleton_append, trimBy_append_left hc]
  exact trimBy_eq_self (fun d hd => hs d (mem_of_head? hd))
    (fun d hd => hs d (mem_of_getLast? hd))

lemma trimMatches_eq_self {c : Char} {s : Text} (hhead : s.head? ≠ some c)
    (hlast : s.getLast? ≠ some c) : trimMatches c s = s :=
  trimBy_eq_self (fun d hd => by simpa using fun hdc : d = c => hhead (hdc ▸ hd))
    (fun d hd => by simpa using fun hdc : d = c => hlast (hdc ▸ hd))

lemma unquote_of_plain (h : PlainString q) :
    trimMatches '\'' (trimMatches '"' q.text) = q.value := by
  cases h with
  | @basic value printable shape backslash quote =>
    have htext : (Toml.Quoted.basic value printable).text = '"' :: value ++ ['"'] := by
      simp [Toml.Quoted.text, Toml.Quoted.quote, Toml.Quoted.content,
        Toml.escape_eq_self backslash quote]
    rw [htext, trimMatches_quoted quote, trimMatches_eq_self shape.head shape.last]
    rfl
  | @literal value printable unquoted shape =>
    have htext : (Toml.Quoted.literal value printable unquoted).text = '\'' :: value ++ ['\''] :=
      rfl
    rw [htext, trimMatches_eq_self (c := '"') (by simp) (by rw [getLast?_concat]; decide),
      trimMatches_quoted unquoted]
    rfl

lemma PlainString.shape (h : PlainString q) : ItemShape q.value := by
  cases h with
  | basic shape backslash quote => exact shape
  | literal shape => exact shape

lemma stripItem_gap (g : Toml.Gap) : stripItem g.text = [] := by
  have htrim : trim g.text = [] := by
    rw [← append_nil g.text, trim_eq_trimBy, trimBy_append_left g.whitespace]
    rfl
  rw [stripItem, htrim]
  rfl

lemma comma_not_mem_pieces (h : ∀ i ∈ a.items, ',' ∉ i.string.value) :
    ∀ piece ∈ a.pieces, ',' ∉ piece := by
  intro piece hpiece
  rcases mem_append.mp hpiece with hmem | hmem
  · obtain ⟨i, hi, rfl⟩ := mem_map.mp hmem
    simp [Toml.Item.text, comma_not_mem_gap, comma_not_mem_text (h i hi)]
  · obtain ⟨g, -, rfl⟩ := mem_map.mp hmem
    exact comma_not_mem_gap g

lemma parse_of_plain (h : PlainArray a) : parseTomlArray a.firstLine = a.values := by
  rw [parse_of_oneLine h.comment h.oneLine]
  have hcomma := comma_not_mem_pieces fun i hi => (h.items i hi).shape.comma
  have hitems : (a.items.map Toml.Item.text).map stripItem = a.values := by
    rw [map_map]
    refine map_congr_left fun i hi => ?_
    rw [Function.comp_apply, stripItem, trim_text, unquote_of_plain (h.items i hi)]
  have htail : ((a.tail.toList.map Toml.Gap.text).map stripItem).filter (· ≠ []) = [] := by
    cases a.tail with
    | none => rfl
    | some g => simp [stripItem_gap]
  have hvalues : a.values.filter (· ≠ []) = a.values := by
    rw [filter_eq_self]
    intro value hvalue
    obtain ⟨i, hi, rfl⟩ := mem_map.mp hvalue
    simpa using (h.items i hi).shape.ne_nil
  by_cases hpieces : a.pieces = []
  · have hnil : a.items = [] := map_eq_nil_iff.mp (append_eq_nil_iff.mp hpieces).1
    rw [Toml.Array.body, hpieces, Toml.Array.values, hnil]
    decide
  · have hsplit : a.body.splitOn ',' = a.pieces := splitOn_intercalate ',' hcomma hpieces
    rw [arrayItems, hsplit, Toml.Array.pieces, map_append, filter_append, hitems, htail,
      hvalues, append_nil]

lemma plain_of_parse_eq (hcomment : a.comment = none) (hline : '\n' ∉ a.body)
    (h : parseTomlArray a.firstLine = a.values) : PlainArray a := by
  rw [parse_of_oneLine hcomment hline] at h
  have hbackslash : (a.items.map fun i => i.string.escapes).sum = 0 := by
    have hcount := count_arrayItems (c := '\\') (by decide) a.body
    rw [h, a.count_backslash_body] at hcount
    omega
  refine ⟨hcomment, hline, fun i hi => ?_⟩
  have hshape : ItemShape i.string.value := by
    have hmem : i.string.value ∈ a.values := mem_map_of_mem hi
    rw [← h] at hmem
    exact itemShape_of_mem hmem
  have hescapes : i.string.escapes = 0 :=
    sum_eq_zero_iff.mp hbackslash _ (mem_map_of_mem hi)
  cases hstring : i.string with
  | basic value printable =>
    rw [hstring] at hshape hescapes
    obtain ⟨hbs, hq⟩ := Nat.add_eq_zero_iff.mp hescapes
    exact .basic hshape (count_eq_zero.mp hbs) (count_eq_zero.mp hq)
  | literal value printable unquoted =>
    rw [hstring] at hshape
    exact .literal hshape

lemma parse_of_bareBracket (h : BareBracket a) : parseTomlArray a.firstLine = a.values := by
  obtain ⟨i, hitems, hbefore, hvalue⟩ := h
  have hline : '\n' ∈ a.body := by
    rw [Toml.Array.body, Toml.Array.pieces, hitems, map_cons, cons_append,
      Toml.join_cons, Toml.Item.text]
    simp [hbefore]
  obtain ⟨s, w, hfirst, -, hs, hparse⟩ := parse_of_newline hline
  rw [hparse, eq_nil_of_newline_before hitems hbefore hfirst hs, Toml.Array.values, hitems,
    map_singleton, hvalue]
  decide

/-- The parser gets back the strings that were written exactly from plain arrays, and from one
bracket. -/
theorem parseTomlArray_eq_values_iff (a : Toml.Array) :
    parseTomlArray a.firstLine = a.values ↔ PlainArray a ∨ BareBracket a := by
  constructor
  · intro h
    by_cases hline : '\n' ∈ a.body
    · exact .inr (bareBracket_of_parse_eq hline h)
    · cases hcomment : a.comment with
      | none => exact .inl (plain_of_parse_eq hcomment hline h)
      | some comment => exact absurd h (parse_ne_of_comment hcomment hline)
  · rintro (h | h)
    · exact parse_of_plain h
    · exact parse_of_bareBracket h

end Reading

end LamBoot
