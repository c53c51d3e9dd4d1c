import LamBoot.Library.Json

/-!
# Where the strings of a JSON text end

A value that is read closes every string that it opens. So text that ends inside a string is no JSON
text, and text that begins inside a string is no object with members, if it is cut from one.
-/

namespace Json

open List Text Option

/-- Where a reader stands: between strings, in a string, or behind a backslash in a string. -/
inductive Position where
  | outside
  | inside
  | escaped
deriving DecidableEq, Repr

def Position.next : Position → Char → Position
  | .outside, c => if c = '"' then .inside else .outside
  | .inside, c => if c = '"' then .outside else if c = '\\' then .escaped else .inside
  | .escaped, _ => .inside

def position (p : Position) (s : Text) : Position :=
  s.foldl Position.next p

/-- Reading comes from one position to another. -/
def Passes (p : Position) (s : Text) (q : Position) (rest : Text) : Prop :=
  ∃ used, s = used ++ rest ∧ position p used = q

section Position

variable {p q q' : Position} {c : Char} {s t rest : Text}

@[simp] lemma position_nil : position p [] = p := rfl

@[simp] lemma position_cons : position p (c :: s) = position (p.next c) s := rfl

@[simp] lemma position_append : position p (s ++ t) = position (position p s) t :=
  foldl_append

lemma position_eq_self (h : ∀ c ∈ s, p.next c = p) : position p s = p := by
  induction s with
  | nil => rfl
  | cons c s ih =>
    rw [position_cons, h c mem_cons_self]
    exact ih fun d hd => h d (mem_cons_of_mem c hd)

lemma Passes.refl : Passes p s p s :=
  ⟨[], rfl, rfl⟩

lemma Passes.cons (h : Passes (p.next c) s q rest) : Passes p (c :: s) q rest := by
  obtain ⟨used, rfl, hq⟩ := h
  exact ⟨c :: used, rfl, hq⟩

lemma Passes.trans (h : Passes p s q t) (h' : Passes q t q' rest) : Passes p s q' rest := by
  obtain ⟨used, rfl, rfl⟩ := h
  obtain ⟨used', rfl, rfl⟩ := h'
  exact ⟨used ++ used', (append_assoc _ _ _).symm, position_append⟩

lemma passes_dropWhile {f : Char → Bool} (h : ∀ c, f c = true → p.next c = p) :
    Passes p s p (s.dropWhile f) :=
  ⟨s.takeWhile f, takeWhile_append_dropWhile.symm, position_eq_self fun c hc =>
    h c (mem_takeWhile_imp hc)⟩

lemma Position.next_outside (h : c ≠ '"') : Position.next .outside c = .outside := by
  simp [Position.next, h]

lemma Position.next_inside (hquote : c ≠ '"') (hbackslash : c ≠ '\\') :
    Position.next .inside c = .inside := by
  simp [Position.next, hquote, hbackslash]

end Position

/-! ### Strings -/

section Readers

variable {s rest : Text} {c : Char}

lemma of_expect_eq_some (h : expect c s = some rest) : s = c :: rest := by
  cases s with
  | nil => cases h
  | cons d s =>
    rw [expect] at h
    split_ifs at h with hd
    rw [hd, some.inj h]

lemma passes_skipWs : Passes .outside s .outside (skipWs s) := by
  refine passes_dropWhile fun c hc => Position.next_outside ?_
  rintro rfl
  cases hc

lemma passes_token (h : token c s = some rest) :
    Passes .outside s (Position.next .outside c) rest := by
  refine passes_skipWs.trans ?_
  rw [of_expect_eq_some h]
  exact Passes.refl.cons

lemma next_of_hexValue {n : Nat} (h : hexValue c = some n) :
    Position.next .inside c = .inside := by
  refine Position.next_inside ?_ ?_
  · rintro rfl
    cases h
  · rintro rfl
    cases h

lemma passes_readUnit {n : Nat} (h : readUnit s = some (n, rest)) :
    Passes .inside s .inside rest := by
  unfold readUnit at h
  split at h
  · simp only [bind_eq_bind, bind_eq_some_iff, some.injEq, Prod.mk.injEq] at h
    obtain ⟨a, ha, b, hb, c, hc, d, hd, -, rfl⟩ := h
    refine .cons (.cons (.cons (.cons ?_)))
    rw [next_of_hexValue ha, next_of_hexValue hb, next_of_hexValue hc, next_of_hexValue hd]
    exact Passes.refl
  · cases h

lemma passes_readUnicode (h : readUnicode s = some (c, rest)) :
    Passes .inside s .inside rest := by
  rw [readUnicode, bind_eq_bind, bind_eq_some_iff] at h
  obtain ⟨⟨unit, t⟩, hunit, h⟩ := h
  dsimp only at h
  refine (passes_readUnit hunit).trans ?_
  split_ifs at h
  · -- The second half of a pair has its own backslash.
    simp only [bind_eq_bind, bind_eq_some_iff] at h
    obtain ⟨t', hbackslash, t'', hu, ⟨low, t₃⟩, hlow, h⟩ := h
    dsimp only at h
    split_ifs at h
    obtain ⟨-, rfl⟩ := Prod.mk.inj (some.inj h)
    rw [of_expect_eq_some hbackslash, of_expect_eq_some hu]
    exact .cons (.cons (passes_readUnit hlow))
  · obtain ⟨-, rfl⟩ := Prod.mk.inj (some.inj h)
    exact Passes.refl

lemma passes_readEscape (h : readEscape s = some (c, rest)) :
    Passes .escaped s .inside rest := by
  cases s with
  | nil => cases h
  | cons d s =>
    rw [readEscape] at h
    refine .cons ?_
    split_ifs at h
    · exact passes_readUnicode h
    · obtain ⟨e, -, he⟩ := map_eq_some_iff.mp h
      cases he
      exact Passes.refl

lemma passes_readChar {c : Option Char} (h : readChar s = some (c, rest)) :
    Passes .inside s (if c.isSome then .inside else .outside) rest := by
  cases s with
  | nil => cases h
  | cons d s =>
    rw [readChar] at h
    refine .cons ?_
    split_ifs at h with hquote hbackslash
    · cases h
      rw [hquote]
      exact Passes.refl
    · obtain ⟨⟨e, t⟩, hescape, he⟩ := map_eq_some_iff.mp h
      cases he
      rw [hbackslash]
      exact passes_readEscape hescape
    · cases h
      rw [Position.next_inside hquote hbackslash]
      exact Passes.refl

lemma passes_readChars {fuel : Nat} {cs : Text} (h : readChars fuel s = some (cs, rest)) :
    Passes .inside s .outside rest := by
  induction fuel generalizing s cs with
  | zero => cases h
  | succ fuel ih =>
    rw [readChars] at h
    split at h
    · cases h
    · next hchar =>
      cases h
      exact passes_readChar hchar
    · next hchar =>
      obtain ⟨⟨cs, t⟩, hchars, he⟩ := map_eq_some_iff.mp h
      cases he
      exact (passes_readChar hchar).trans (ih hchars)

lemma passes_readString {cs : Text} (h : readString s = some (cs, rest)) :
    Passes .inside s .outside rest :=
  passes_readChars h

/-! ### Numbers and words -/

lemma passes_readDigits {digits : Text} (h : readDigits s = some (digits, rest)) :
    Passes .outside s .outside rest := by
  rw [readDigits] at h
  split_ifs at h
  cases h
  refine passes_dropWhile fun c hc => Position.next_outside ?_
  rintro rfl
  cases hc

lemma passes_readFraction {digits : Text} (h : readFraction s = some (digits, rest)) :
    Passes .outside s .outside rest := by
  unfold readFraction at h
  split at h
  · cases h
    exact Passes.refl
  · next hpoint =>
    obtain ⟨⟨digits, t⟩, hdigits, he⟩ := map_eq_some_iff.mp h
    cases he
    rw [of_expect_eq_some hpoint]
    exact .cons (passes_readDigits hdigits)

lemma passes_readSign : Passes .outside s .outside (readSign s).2 := by
  unfold readSign
  split
  · split_ifs with hsign
    · refine .cons ?_
      rcases hsign with rfl | rfl <;> exact Passes.refl
    · exact Passes.refl
  · exact Passes.refl

lemma passes_readExponent {exponent : Text} (h : readExponent s = some (exponent, rest)) :
    Passes .outside s .outside rest := by
  unfold readExponent at h
  split at h
  · split_ifs at h with he
    · obtain ⟨⟨digits, t⟩, hdigits, heq⟩ := map_eq_some_iff.mp h
      cases heq
      refine .cons ?_
      rcases he with rfl | rfl <;> exact passes_readSign.trans (passes_readDigits hdigits)
    · cases h
      exact Passes.refl
  · cases h
    exact Passes.refl

lemma passes_readUnsigned {number : Text × Text} (h : readUnsigned s = some (number, rest)) :
    Passes .outside s .outside rest := by
  simp only [readUnsigned, readIntegerPart, bind_eq_bind, bind_eq_some_iff] at h
  obtain ⟨⟨digits, t⟩, ⟨⟨digits', t'⟩, hdigits, hinteger⟩, ⟨fraction, t''⟩, hfraction,
    ⟨exponent, t₃⟩, hexponent, h⟩ := h
  dsimp only at hinteger hfraction hexponent h
  split_ifs at hinteger
  cases hinteger
  cases h
  exact (passes_readDigits hdigits).trans
    ((passes_readFraction hfraction).trans (passes_readExponent hexponent))

lemma of_readNumber_eq_some {v : Json} (h : readNumber s = some (v, rest)) :
    Passes .outside s .outside rest ∧ ∀ members, v ≠ .obj members := by
  rw [readNumber] at h
  split at h
  next negative t₀ hpair =>
  have hsign : Passes .outside s .outside t₀ := by
    split at hpair
    · next hminus =>
      cases hpair
      rw [of_expect_eq_some hminus]
      exact Passes.refl.cons
    · cases hpair
      exact Passes.refl
  obtain ⟨⟨⟨digits, more⟩, t⟩, hunsigned, he⟩ := map_eq_some_iff.mp h
  dsimp only at he
  by_cases hmore : more = []
  · rw [if_pos hmore] at he
    obtain ⟨rfl, rfl⟩ := Prod.mk.inj he
    exact ⟨hsign.trans (passes_readUnsigned hunsigned), by simp⟩
  · rw [if_neg hmore] at he
    obtain ⟨rfl, rfl⟩ := Prod.mk.inj he
    exact ⟨hsign.trans (passes_readUnsigned hunsigned), by simp⟩

lemma of_readWord_eq_some {v : Json} (h : readWord s = some (v, rest)) :
    Passes .outside s .outside rest ∧ ∀ members, v ≠ .obj members := by
  have hword : ∀ w : Text, '"' ∉ w → ∀ u : Json, (∀ members, u ≠ .obj members) →
      (if w.isPrefixOf s then some (u, s.drop w.length) else none) = some (v, rest) →
        Passes .outside s .outside rest ∧ ∀ members, v ≠ .obj members := by
    intro w hquote u hu hw
    split_ifs at hw with hfront
    cases hw
    obtain ⟨t, rfl⟩ := isPrefixOf_iff_prefix.mp hfront
    refine ⟨⟨w, by rw [drop_left], position_eq_self fun c hc => ?_⟩, hu⟩
    refine Position.next_outside ?_
    rintro rfl
    exact hquote hc
  rw [readWord] at h
  simp only [orElse_eq_orElse, orElse_eq_or, or_eq_some_iff] at h
  rcases h with h | ⟨-, h | ⟨-, h⟩⟩
  · exact hword "null" (by decide) .null (by simp) h
  · exact hword "true" (by decide) (.bool true) (by simp) h
  · exact hword "false" (by decide) (.bool false) (by simp) h

/-! ### Values -/

lemma passes_readers (fuel : Nat) :
    (∀ s v rest, readValue fuel s = some (v, rest) → Passes .outside s .outside rest) ∧
      (∀ s m rest, readMembers fuel s = some (m, rest) → Passes .outside s .outside rest) ∧
      ∀ s i rest, readItems fuel s = some (i, rest) → Passes .outside s .outside rest := by
  induction fuel with
  | zero => exact ⟨nofun, nofun, nofun⟩
  | succ fuel ih =>
    obtain ⟨hvalue, hmembers, hitems⟩ := ih
    refine ⟨fun s v rest h => ?_, fun s m rest h => ?_, fun s i rest h => ?_⟩
    · rw [readValue] at h
      refine passes_skipWs.trans ?_
      cases hskip : skipWs s with
      | nil =>
        rw [hskip] at h
        cases h
      | cons c t =>
        rw [hskip] at h
        dsimp only at h
        split_ifs at h with hquote hbrace hbracket
        · obtain ⟨⟨cs, t'⟩, hstring, he⟩ := map_eq_some_iff.mp h
          cases he
          rw [hquote]
          exact .cons (passes_readString hstring)
        · rw [hbrace]
          refine .cons ?_
          split at h
          · next hclose =>
            cases h
            exact passes_token hclose
          · obtain ⟨⟨m, t'⟩, hm, he⟩ := map_eq_some_iff.mp h
            cases he
            exact hmembers _ _ _ hm
        · rw [hbracket]
          refine .cons ?_
          split at h
          · next hclose =>
            cases h
            exact passes_token hclose
          · obtain ⟨⟨i, t'⟩, hi, he⟩ := map_eq_some_iff.mp h
            cases he
            exact hitems _ _ _ hi
        · rcases or_eq_some_iff.mp h with h | ⟨-, h⟩
          · exact (of_readWord_eq_some h).1
          · exact (of_readNumber_eq_some h).1
    · simp only [readMembers, bind_eq_bind, bind_eq_some_iff] at h
      obtain ⟨t, hquote, ⟨key, t'⟩, hkey, t'', hcolon, ⟨v, t₃⟩, hv, h⟩ := h
      dsimp only at hcolon hv h
      refine (passes_token hquote).trans ((passes_readString hkey).trans
        ((passes_token hcolon).trans ((hvalue _ _ _ hv).trans ?_)))
      split at h
      · next hcomma =>
        obtain ⟨⟨m, t₄⟩, hm, he⟩ := bind_eq_some_iff.mp h
        cases he
        exact (passes_token hcomma).trans (hmembers _ _ _ hm)
      · obtain ⟨t₄, hclose, he⟩ := bind_eq_some_iff.mp h
        cases he
        exact passes_token hclose
    · simp only [readItems, bind_eq_bind, bind_eq_some_iff] at h
      obtain ⟨⟨v, t⟩, hv, h⟩ := h
      dsimp only at h
      refine (hvalue _ _ _ hv).trans ?_
      split at h
      · next hcomma =>
        obtain ⟨⟨i, t'⟩, hi, he⟩ := bind_eq_some_iff.mp h
        cases he
        exact (passes_token hcomma).trans (hitems _ _ _ hi)
      · obtain ⟨t', hclose, he⟩ := bind_eq_some_iff.mp h
        cases he
        exact passes_token hclose

lemma position_of_parse {v : Json} (h : parse s = some v) : position .outside s = .outside := by
  simp only [parse, bind_eq_bind, bind_eq_some_iff] at h
  obtain ⟨⟨v', t⟩, hread, h⟩ := h
  dsimp only at h
  split_ifs at h with hend
  obtain ⟨used, hs, hused⟩ :=
    ((passes_readers _).1 _ _ _ hread).trans passes_skipWs
  rw [hs, hend, append_nil, hused]

lemma of_parse_eq_obj {members : List (Text × Json)} (h : parse s = some (.obj members)) :
    members = [] ∨ ∃ z t key u v, s = z ++ '"' :: t ∧ (∀ c ∈ z, c = '{' ∨ isWs c = true) ∧
      readString t = some (key, u) ∧ token ':' u = some v := by
  simp only [parse, bind_eq_bind, bind_eq_some_iff] at h
  obtain ⟨⟨value, t⟩, hread, h⟩ := h
  dsimp only at h
  split_ifs at h
  obtain rfl := some.inj h
  have hws : ∀ s : Text, ∃ w, s = w ++ skipWs s ∧ ∀ c ∈ w, isWs c = true := fun s =>
    ⟨s.takeWhile isWs, takeWhile_append_dropWhile.symm, fun c hc => mem_takeWhile_imp hc⟩
  obtain ⟨fuel, hfuel⟩ : ∃ fuel, s.length = fuel + 1 := by
    refine Nat.exists_eq_succ_of_ne_zero fun hzero => ?_
    rw [hzero] at hread
    cases hread
  rw [hfuel, readValue] at hread
  obtain ⟨w, hs, hw⟩ := hws s
  cases hskip : skipWs s with
  | nil =>
    rw [hskip] at hread
    cases hread
  | cons c t' =>
    rw [hskip] at hread hs
    dsimp only at hread
    split_ifs at hread with hquote hbrace hbracket
    · obtain ⟨p, -, he⟩ := map_eq_some_iff.mp hread
      cases he
    · split at hread
      · cases hread
        exact .inl rfl
      · -- The first key begins behind white space.
        obtain ⟨⟨m, t''⟩, hm, -⟩ := map_eq_some_iff.mp hread
        cases fuel with
        | zero => cases hm
        | succ fuel =>
          simp only [readMembers, bind_eq_bind, bind_eq_some_iff] at hm
          obtain ⟨u, hopen, ⟨key, u'⟩, hkey, u'', hcolon, -⟩ := hm
          obtain ⟨w', ht', hw'⟩ := hws t'
          rw [of_expect_eq_some hopen] at ht'
          refine .inr ⟨w ++ c :: w', u, key, u', u'', ?_, fun d hd => ?_, hkey, hcolon⟩
          · rw [hs, ht', append_assoc, cons_append]
          · rcases mem_append.mp hd with hd | hd
            · exact .inr (hw d hd)
            · rcases mem_cons.mp hd with rfl | hd
              · exact .inl hbrace
              · exact .inr (hw' d hd)
    · split at hread
      · cases hread
      · obtain ⟨p, -, he⟩ := map_eq_some_iff.mp hread
        cases he
    · rcases or_eq_some_iff.mp hread with hread | ⟨-, hread⟩
      · exact absurd rfl ((of_readWord_eq_some hread).2 members)
      · exact absurd rfl ((of_readNumber_eq_some hread).2 members)

end Readers

/-! ### Text that was written -/

section Written

variable {esc : Char → Text} {c : Char} {s t z back : Text}

lemma Spells.position_inside (h : Spells t c) : position .inside t = .inside := by
  obtain ⟨used, ht, hused⟩ := passes_readChar (h [])
  rw [append_nil, append_nil] at ht
  rw [ht, hused]
  rfl

lemma position_flatMap (hesc : ∀ c, Spells (esc c) c) (s : Text) :
    position .inside (s.flatMap esc) = .inside := by
  induction s with
  | nil => rfl
  | cons c s ih => rw [flatMap_cons, position_append, (hesc c).position_inside, ih]

lemma Spells.cases (h : Spells t c) :
    t = [c] ∧ c ≠ '"' ∧ c ≠ '\\' ∨ ∃ u, t = '\\' :: u := by
  have hread := h []
  rw [append_nil] at hread
  cases t with
  | nil => cases hread
  | cons d u =>
    rw [readChar] at hread
    split_ifs at hread with hquote hbackslash
    · cases hread
    · exact .inr ⟨u, by rw [hbackslash]⟩
    · cases hread
      exact .inl ⟨rfl, hquote, hbackslash⟩

lemma eq_of_flatMap_append (hesc : ∀ c, Spells (esc c) c)
    (hz : ∀ c ∈ z, c ≠ '"' ∧ c ≠ '\\') (h : z ++ '"' :: t = s.flatMap esc ++ '"' :: back) :
    t = back := by
  induction s generalizing z with
  | nil =>
    cases z with
    | nil => exact (cons.inj h).2
    | cons d z => exact absurd (cons.inj h).1 (hz d mem_cons_self).1
  | cons c s ih =>
    rw [flatMap_cons] at h
    rcases (hesc c).cases with ⟨hc, hquote, hbackslash⟩ | ⟨u, hc⟩
    · rw [hc] at h
      cases z with
      | nil => exact absurd (cons.inj h).1.symm hquote
      | cons d z =>
        exact ih (fun e he => hz e (mem_cons_of_mem d he)) (cons.inj h).2
    · rw [hc] at h
      cases z with
      | nil => exact absurd (cons.inj h).1 (by decide)
      | cons d z => exact absurd (cons.inj h).1 (hz d mem_cons_self).2

def Closes (back : Text) : Prop :=
  back = ['}'] ∨ ∃ c more, back = ',' :: '"' :: c :: more ∧ isWs c = false ∧ c ≠ ':'

lemma Closes.token_eq_none (h : Closes back) {key u more : Text} (hback : t ++ more = back)
    (hread : readString t = some (key, u)) : token ':' u = none := by
  rcases h with rfl | ⟨c, rest, rfl, hws, hcolon⟩
  · cases t with
    | nil => cases hread
    | cons d t =>
      obtain ⟨rfl, hnil⟩ := cons.inj hback
      rw [(append_eq_nil_iff.mp hnil).1] at hread
      cases hread
  · cases t with
    | nil => cases hread
    | cons d t =>
      obtain ⟨rfl, hback'⟩ := cons.inj hback
      cases t with
      | nil => cases hread
      | cons e t =>
        -- The key is the comma, and what comes next belongs to the next key.
        obtain ⟨rfl, hnext⟩ := cons.inj hback'
        obtain ⟨-, rfl⟩ := Prod.mk.inj (some.inj hread)
        cases t with
        | nil => rfl
        | cons f t =>
          obtain ⟨rfl, -⟩ := cons.inj hnext
          exact token_of_ne hws hcolon

lemma members_eq_nil_of_cut (hesc : ∀ c, Spells (esc c) c) (hback : Closes back)
    {space more : Text} (hspace : ∀ c ∈ space, c ≠ '"' ∧ c ≠ '\\')
    (h : space ++ t ++ more = s.flatMap esc ++ '"' :: back) {members : List (Text × Json)}
    (hparse : parse t = some (.obj members)) : members = [] := by
  rcases of_parse_eq_obj hparse with hnil | ⟨z, r, key, u, v, rfl, hz, hkey, hcolon⟩
  · exact hnil
  · have hbare : ∀ c ∈ space ++ z, c ≠ '"' ∧ c ≠ '\\' := by
      intro c hc
      rcases mem_append.mp hc with hc | hc
      · exact hspace c hc
      · rcases hz c hc with rfl | hws
        · decide
        · simp only [isWs, Bool.or_eq_true, beq_iff_eq] at hws
          rcases hws with ((rfl | rfl) | rfl) | rfl <;> decide
    have heq : r ++ more = back := by
      refine eq_of_flatMap_append hesc hbare (s := s) ?_
      rw [← h]
      simp
    rw [hback.token_eq_none heq hkey] at hcolon
    cases hcolon

/-! ### Members -/

/-- How a member is written: a key as it is, and a value that closes its strings. -/
structure IsClosed (w : Text × Text) : Prop where
  key : Plain w.1
  value : position .outside w.2 = .outside

lemma position_key (h : Plain s) : position .outside ('"' :: s ++ ['"', ':']) = .outside := by
  have hinside : position .inside s = .inside :=
    position_eq_self fun c hc => Position.next_inside (h c hc).1 (h c hc).2.1
  have hquote : Position.next .outside '"' = .inside := rfl
  rw [cons_append, position_cons, position_append, hquote, hinside]
  rfl

lemma exists_of_membersText_append {written : List (Text × Text)}
    (hclosed : ∀ w ∈ written, IsClosed w) (hpunctuation : c ∉ ['"', ':', ','])
    (hkeys : ∀ w ∈ written, c ∉ w.1) {tail x y : Text} (htail : c ∉ tail)
    (h : membersText written ++ tail = x ++ c :: y) :
    ∃ w ∈ written, ∃ front u v back, x = front ++ u ∧ w.2 = u ++ c :: v ∧ y = v ++ back ∧
      position .outside front = .outside ∧
      (back = tail ∨ ∃ w' ∈ written, ∃ more, back = ',' :: '"' :: (w'.1 ++ more)) := by
  have hopen : ∀ w ∈ written, ∀ x t, memberText w.1 w.2 ++ t = x ++ c :: y →
      ∃ x', x = '"' :: w.1 ++ ['"', ':'] ++ x' ∧ w.2 ++ t = x' ++ c :: y := by
    intro w hw x t ht
    rw [show memberText w.1 w.2 = '"' :: w.1 ++ ['"', ':'] ++ w.2 by simp [memberText],
      append_assoc] at ht
    rcases append_eq_append_cons ht with ⟨v, hv, -⟩ | hx
    · have hmem : c ∈ '"' :: w.1 ++ ['"', ':'] := by simp [hv]
      have := hkeys w hw
      simp only [mem_cons, not_mem_nil, or_false, not_or, cons_append,
        mem_append] at hpunctuation hmem
      tauto
    · exact hx
  induction written generalizing x with
  | nil => exact absurd (by rw [show tail = x ++ c :: y from h]; simp) htail
  | cons w written ih =>
    have hkey := position_key (hclosed w mem_cons_self).key
    cases written with
    | nil =>
      rw [membersText_singleton] at h
      obtain ⟨x, rfl, hx⟩ := hopen w mem_cons_self _ _ h
      rcases append_eq_append_cons hx with ⟨v, hv, rfl⟩ | ⟨x', -, htail'⟩
      · exact ⟨w, mem_cons_self, _, x, v, tail, rfl, hv, rfl, hkey, .inl rfl⟩
      · exact absurd (by simp [htail']) htail
    | cons w' written =>
      rw [membersText_cons_cons, append_assoc] at h
      obtain ⟨x, rfl, hx⟩ := hopen w mem_cons_self _ _ h
      rcases append_eq_append_cons hx with ⟨v, hv, rfl⟩ | ⟨x', rfl, hrest⟩
      · -- The character is in this value, and the next key follows.
        refine ⟨w, mem_cons_self, _, x, v, _, rfl, hv, rfl, hkey, .inr ⟨w', by simp, ?_⟩⟩
        cases written with
        | nil => exact ⟨_, by simp [membersText_singleton, memberText]; rfl⟩
        | cons w'' written => exact ⟨_, by simp [membersText_cons_cons, memberText]; rfl⟩
      · cases x' with
        | nil => exact absurd (by simp [← (cons.inj hrest).1]) hpunctuation
        | cons d x' =>
          obtain ⟨rfl, hlater⟩ := cons.inj hrest
          obtain ⟨w'', hw'', front, u, v, back, rfl, hv, rfl, hfront, hback⟩ :=
            ih (fun w hw => hclosed w (mem_cons_of_mem _ hw))
              (fun w hw => hkeys w (mem_cons_of_mem _ hw)) hlater
              fun w hw => hopen w (mem_cons_of_mem _ hw)
          refine ⟨w'', mem_cons_of_mem _ hw'',
            '"' :: w.1 ++ ['"', ':'] ++ (w.2 ++ ',' :: front), u, v, back, by simp, hv, rfl, ?_,
            hback.imp_right ?_⟩
          swap
          · rintro ⟨k, hk, hmore⟩
            exact ⟨k, mem_cons_of_mem _ hk, hmore⟩
          rw [position_append, hkey, position_append, (hclosed w mem_cons_self).value,
            position_cons, Position.next_outside (by decide), hfront]

end Written

end Json
