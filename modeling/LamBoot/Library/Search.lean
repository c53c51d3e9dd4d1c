import LamBoot.Library.Text

/-!
# Searching

The first occurrence of a list in another, as `find` of strings and of byte strings gives it; a
search that goes on behind each occurrence; and a search for a word between quotes.
-/

namespace Search

open List Option

section Find

variable {α : Type} [DecidableEq α] {needle s t : List α} {a : α}

def find (needle : List α) : List α → Option Nat
  | [] => if needle = [] then some 0 else none
  | a :: s => if needle <+: a :: s then some 0 else (find needle s).map (· + 1)

def afterFirst (needle s : List α) : Option (List α) :=
  (find needle s).map fun i => s.drop (i + needle.length)

lemma find_eq_zero (h : needle <+: s) : find needle s = some 0 := by
  cases s with
  | nil => rw [find, if_pos (prefix_nil.mp h)]
  | cons a s => rw [find, if_pos h]

@[simp] lemma afterFirst_append_self (needle s : List α) :
    afterFirst needle (needle ++ s) = some s := by
  rw [afterFirst, find_eq_zero (prefix_append needle s)]
  simp

lemma afterFirst_nil (h : needle ≠ []) : afterFirst needle [] = none := by
  rw [afterFirst, find, if_neg h]
  rfl

lemma afterFirst_cons (h : ¬ needle <+: a :: s) :
    afterFirst needle (a :: s) = afterFirst needle s := by
  rw [afterFirst, find, if_neg h, afterFirst, Option.map_map]
  congr 1
  funext i
  rw [Function.comp_apply, Nat.add_right_comm, drop_succ_cons]

lemma afterFirst_cons_of_ne {b : α} (h : b ≠ a) :
    afterFirst (a :: needle) (b :: s) = afterFirst (a :: needle) s :=
  afterFirst_cons fun hprefix => h (cons_prefix_cons.mp hprefix).1.symm

lemma afterFirst_append_of_not_mem (h : a ∉ t) :
    afterFirst (a :: needle) (t ++ s) = afterFirst (a :: needle) s := by
  induction t with
  | nil => rfl
  | cons b t ih =>
    rw [mem_cons, not_or] at h
    rw [cons_append, afterFirst_cons_of_ne (Ne.symm h.1), ih h.2]

lemma afterFirst_singleton (h : a ∉ t) : afterFirst [a] (t ++ a :: s) = some s := by
  rw [afterFirst_append_of_not_mem h]
  exact afterFirst_append_self [a] s

lemma afterFirst_eq_none_of_not_mem (h : a ∉ s) : afterFirst (a :: needle) s = none := by
  have happend : afterFirst (a :: needle) (s ++ []) = afterFirst (a :: needle) [] :=
    afterFirst_append_of_not_mem h
  rwa [append_nil, afterFirst_nil (cons_ne_nil _ _)] at happend

lemma find_eq_some_iff {i : Nat} :
    find needle s = some i ↔ needle <+: s.drop i ∧ ∀ j < i, ¬ needle <+: s.drop j := by
  induction s generalizing i with
  | nil =>
    by_cases h : needle = []
    · rw [find, if_pos h, h, some.injEq]
      constructor
      · rintro rfl
        exact .intro nil_prefix fun j hj => absurd hj (Nat.not_lt_zero j)
      · exact fun hi => (Nat.eq_zero_of_not_pos fun hpos => hi.2 0 hpos nil_prefix).symm
    · simp [find, h]
  | cons a s ih =>
    rw [find]
    split_ifs with h
    · rw [some.injEq]
      constructor
      · rintro rfl
        exact ⟨h, fun j hj => absurd hj (Nat.not_lt_zero j)⟩
      · exact fun hi => (Nat.eq_zero_of_not_pos fun hpos => hi.2 0 hpos h).symm
    · cases i with
      | zero => simp [h]
      | succ i =>
        rw [map_eq_some_iff]
        simp only [Nat.add_right_cancel_iff, exists_eq_right, ih, drop_succ_cons]
        refine and_congr_right fun _ => ⟨fun hi j hj => ?_, fun hi j hj => hi (j + 1) (by omega)⟩
        cases j with
        | zero => exact h
        | succ j => exact hi j (by omega)

lemma find_eq_none_iff : find needle s = none ↔ ∀ i, ¬ needle <+: s.drop i := by
  constructor
  · intro hnone i hi
    have hex : ∃ i, needle <+: s.drop i := ⟨i, hi⟩
    have hfirst := find_eq_some_iff.mpr
      ⟨Nat.find_spec hex, fun j hj => Nat.find_min hex hj⟩
    rw [hnone] at hfirst
    cases hfirst
  · intro h
    cases hfind : find needle s with
    | none => rfl
    | some i => exact absurd (find_eq_some_iff.mp hfind).1 (h i)

lemma find_singleton_eq_some_iff {i : Nat} :
    find [a] s = some i ↔ ∃ t u, s = t ++ a :: u ∧ a ∉ t ∧ t.length = i := by
  constructor
  · intro h
    obtain ⟨⟨u, hu⟩, hbefore⟩ := find_eq_some_iff.mp h
    have hlen : i ≤ s.length := by
      have := congrArg length hu
      simp only [length_append, length_cons, length_drop] at this
      omega
    refine ⟨s.take i, u, ?_, fun hmem => ?_, length_take_of_le hlen⟩
    · rw [← singleton_append, hu, take_append_drop]
    · obtain ⟨j, hj, hget⟩ := mem_take_iff_getElem.mp hmem
      refine hbefore j (by omega) ?_
      rw [drop_eq_getElem_cons (by omega), hget]
      exact prefix_append [a] _
  · rintro ⟨t, u, rfl, ht, rfl⟩
    refine find_eq_some_iff.mpr ⟨?_, fun j hj hprefix => ht ?_⟩
    · rw [drop_left]
      exact prefix_append [a] u
    · rw [drop_append_of_le_length hj.le, drop_eq_getElem_cons hj, cons_append,
        cons_prefix_cons] at hprefix
      exact hprefix.1 ▸ getElem_mem hj

end Find

/-! ### A search that goes on -/

section Occurrences

variable {α β : Type} [DecidableEq α] {needle s : List α}

def visit (needle s : List α) (f : β → Nat → β) : Nat → Nat → β → β
  | 0, _, x => x
  | fuel + 1, pos, x =>
    match find needle (s.drop pos) with
    | none => x
    | some i => visit needle s f fuel (pos + i + needle.length) (f x (pos + i))

def occurrences (needle s : List α) : List Nat :=
  (range s.length).filter fun pos => needle <+: s.drop pos

/-- The needle does not overlap itself. -/
def Unbordered (needle : List α) : Prop :=
  ∀ k < needle.length, 0 < k → ¬ needle.drop k <+: needle

instance Unbordered.decidable (needle : List α) : Decidable (Unbordered needle) :=
  inferInstanceAs (Decidable (∀ k < needle.length, 0 < k → ¬ needle.drop k <+: needle))

lemma mem_occurrences {pos : Nat} (hne : needle ≠ []) :
    pos ∈ occurrences needle s ↔ needle <+: s.drop pos := by
  rw [occurrences, mem_filter, mem_range, decide_eq_true_eq, and_iff_right_iff_imp]
  intro h
  have hlen := h.length_le
  have hpos := length_pos_iff.mpr hne
  rw [length_drop] at hlen
  omega

omit [DecidableEq α] in
lemma Unbordered.not_later {pos k : Nat} (h : Unbordered needle) (hpos : needle <+: s.drop pos)
    (hk : 0 < k) (hlt : k < needle.length) : ¬ needle <+: s.drop (pos + k) := by
  intro hlater
  refine h k hlt hk (prefix_of_prefix_length_le ?_ hlater ?_)
  · rw [← drop_drop]
    exact hpos.drop k
  · rw [length_drop]
    exact Nat.sub_le ..

lemma Unbordered.visit_eq_foldl (h : Unbordered needle) (hne : needle ≠ []) (f : β → Nat → β)
    (x : β) : visit needle s f (s.length + 1) 0 x = (occurrences needle s).foldl f x := by
  have hgo : ∀ fuel pos x, s.length < fuel + pos → visit needle s f fuel pos x =
      ((range' pos (s.length - pos)).filter fun pos => needle <+: s.drop pos).foldl f x := by
    intro fuel
    induction fuel with
    | zero =>
      intro pos x hfuel
      have hnone : s.length - pos = 0 := by omega
      rw [visit, hnone]
      rfl
    | succ fuel ih =>
      intro pos x hfuel
      rw [visit]
      cases hfind : find needle (s.drop pos) with
      | none =>
        have hfilter : ((range' pos (s.length - pos)).filter
            fun pos => needle <+: s.drop pos) = [] := by
          refine filter_eq_nil_iff.mpr fun q hq => ?_
          have hle := (mem_range'_1.mp hq).1
          have hno := find_eq_none_iff.mp hfind (q - pos)
          rw [drop_drop, Nat.add_sub_cancel' hle] at hno
          simpa using hno
        rw [hfilter]
        rfl
      | some i =>
        obtain ⟨hat, hbefore⟩ := find_eq_some_iff.mp hfind
        rw [drop_drop] at hat
        have hpos := length_pos_iff.mpr hne
        have hlen := hat.length_le
        rw [length_drop] at hlen
        -- the positions before the occurrence, the occurrence, those inside it, and the others
        have hrange : range' pos (s.length - pos) = range' pos i ++ (pos + i) ::
            (range' (pos + i + 1) (needle.length - 1) ++
              range' (pos + i + needle.length) (s.length - (pos + i + needle.length))) := by
          have h1 : s.length - pos = i + (1 + ((needle.length - 1) +
              (s.length - (pos + i + needle.length)))) := by omega
          have h2 : pos + i + needle.length = pos + i + 1 + (needle.length - 1) := by omega
          rw [h1, ← range'_append_1, Nat.add_comm 1, range'_succ, h2,
            range'_append_1]
        have hfirst : (range' pos i).filter (fun pos => needle <+: s.drop pos) = [] := by
          refine filter_eq_nil_iff.mpr fun q hq => ?_
          obtain ⟨hle, hlt⟩ := mem_range'_1.mp hq
          have hno := hbefore (q - pos) (by omega)
          rw [drop_drop, Nat.add_sub_cancel' hle] at hno
          simpa using hno
        have hinside : (range' (pos + i + 1) (needle.length - 1)).filter
            (fun pos => needle <+: s.drop pos) = [] := by
          refine filter_eq_nil_iff.mpr fun q hq => ?_
          obtain ⟨hle, hlt⟩ := mem_range'_1.mp hq
          have hno := h.not_later hat (k := q - (pos + i)) (by omega) (by omega)
          rw [Nat.add_sub_cancel' (by omega)] at hno
          simpa using hno
        rw [hrange, filter_append, hfirst, nil_append,
          filter_cons_of_pos (by simpa using hat), filter_append, hinside, nil_append, foldl_cons]
        exact ih _ _ (by omega)
  rw [hgo _ _ _ (by omega), occurrences, range_eq_range', Nat.sub_zero]

end Occurrences

/-! ### Words between quotes -/

section Quoted

/-- How characters are written between quotes: as they are, or with a backslash in front; and a
quote is written with nothing else. -/
structure EscapesQuotes (esc : Char → Text) : Prop where
  quote : esc '"' = ['\\', '"']
  other : ∀ c, c ≠ '"' → esc c = [c] ∧ c ≠ '\\' ∨ ∃ d t, esc c = '\\' :: d :: t ∧ '"' ∉ d :: t

/-- A string that is a word or ends with the word after a quote: one with the word between quotes
when it is itself written between quotes. -/
def Shows (word s : Text) : Prop :=
  '"' :: word <:+ '"' :: s
deriving Decidable

variable {esc : Char → Text} {word s rest : Text} {c : Char}

lemma shows_iff : Shows word s ↔ s = word ∨ '"' :: word <:+ s := by
  rw [Shows, suffix_cons_iff, cons.injEq]
  simp [eq_comm]

lemma EscapesQuotes.prefix_iff (hesc : EscapesQuotes esc) (hword : ∀ c ∈ word, esc c = [c]) :
    word ++ ['"'] <+: s.flatMap esc ++ '"' :: rest ↔ s = word := by
  induction word generalizing s with
  | nil =>
    cases s with
    | nil => simp
    | cons c s =>
      rw [flatMap_cons, append_assoc]
      by_cases hc : c = '"'
      · rw [hc, hesc.quote]
        simp
      · rcases hesc.other c hc with ⟨h, -⟩ | ⟨d, t, h, -⟩
        · rw [h]
          simp [Ne.symm hc]
        · rw [h]
          simp
  | cons k word ih =>
    have hk := hword k (mem_cons_self ..)
    have hquote : k ≠ '"' := by
      rintro rfl
      rw [hesc.quote] at hk
      simp at hk
    have hbackslash : k ≠ '\\' := by
      rintro rfl
      rcases hesc.other _ hquote with ⟨-, h⟩ | ⟨d, t, h, -⟩
      · exact h rfl
      · rw [hk] at h
        simp at h
    cases s with
    | nil => simp [hquote]
    | cons c s =>
      have ih' := ih (s := s) fun c hc => hword c (mem_cons_of_mem _ hc)
      rw [flatMap_cons, append_assoc, cons_append]
      by_cases hc : c = '"'
      · rw [hc, hesc.quote]
        simp [hbackslash, Ne.symm hquote]
      · rcases hesc.other c hc with ⟨h, -⟩ | ⟨d, t, h, -⟩
        · rw [h, singleton_append, cons_prefix_cons, ih', cons.injEq, eq_comm]
        · have hne : c ≠ k := by
            rintro rfl
            rw [hk] at h
            simp at h
          rw [h]
          simp [hbackslash, hne]

lemma EscapesQuotes.afterFirst_quote (hesc : EscapesQuotes esc) (hword : ∀ c ∈ word, esc c = [c]) :
    afterFirst ('"' :: (word ++ ['"'])) ('"' :: (s.flatMap esc ++ '"' :: rest)) =
      if s = word then some rest
      else afterFirst ('"' :: (word ++ ['"'])) (s.flatMap esc ++ '"' :: rest) := by
  split_ifs with hs
  · have hself : word.flatMap esc = word := by
      rw [flatMap_congr hword, flatMap_singleton']
    have happend := afterFirst_append_self ('"' :: (word ++ ['"'])) rest
    rw [hs, hself]
    simpa using happend
  · refine afterFirst_cons fun hprefix => hs ?_
    exact (hesc.prefix_iff hword).mp (cons_prefix_cons.mp hprefix).2

lemma EscapesQuotes.afterFirst_inside (hesc : EscapesQuotes esc) (hword : ∀ c ∈ word, esc c = [c])
    (hrest : ¬ word ++ ['"'] <+: rest) :
    afterFirst ('"' :: (word ++ ['"'])) (s.flatMap esc ++ '"' :: rest) =
      if '"' :: word <:+ s then some rest else afterFirst ('"' :: (word ++ ['"'])) rest := by
  induction s with
  | nil =>
    rw [if_neg (by simp), flatMap_nil, nil_append]
    exact afterFirst_cons fun hprefix => hrest (cons_prefix_cons.mp hprefix).2
  | cons c s ih =>
    simp only [suffix_cons_iff, cons.injEq]
    rw [flatMap_cons, append_assoc]
    by_cases hc : c = '"'
    · rw [hc, hesc.quote]
      change afterFirst _ ('\\' :: '"' :: (s.flatMap esc ++ '"' :: rest)) = _
      rw [afterFirst_cons_of_ne (by decide), hesc.afterFirst_quote hword, ih]
      simp only [true_and, eq_comm (a := word), ite_or]
    · have hnotMem : '"' ∉ esc c := by
        rcases hesc.other c hc with ⟨h, -⟩ | ⟨d, t, h, ht⟩
        · rw [h, mem_singleton]
          exact Ne.symm hc
        · rw [h, mem_cons, not_or]
          exact ⟨by decide, ht⟩
      rw [afterFirst_append_of_not_mem hnotMem, ih]
      simp only [Ne.symm hc, false_and, false_or]

lemma EscapesQuotes.afterFirst_quoted (hesc : EscapesQuotes esc) (hword : ∀ c ∈ word, esc c = [c])
    (hrest : ¬ word ++ ['"'] <+: rest) :
    afterFirst ('"' :: (word ++ ['"'])) ('"' :: (s.flatMap esc ++ '"' :: rest)) =
      if Shows word s then some rest else afterFirst ('"' :: (word ++ ['"'])) rest := by
  rw [hesc.afterFirst_quote hword, hesc.afterFirst_inside hword hrest]
  simp only [shows_iff, ite_or]

end Quoted

end Search
