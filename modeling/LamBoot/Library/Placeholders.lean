import LamBoot.Library.Text

/-!
# Placeholders

A template is filled in by replacing its placeholders all at once, so that what stands in for one is
not looked at again. Replacing two of them one after the other gives the same just if the second
does not begin anywhere in what stands in for the first.
-/

namespace Text

open List

def substitute (table : List (Text × Text)) (s : Text) : Text :=
  go 0 s
where
  -- the number is that of the characters of a placeholder still to be passed over
  go : Nat → Text → Text
    | _, [] => []
    | n + 1, _ :: s => go n s
    | 0, c :: s =>
      match table.find? fun hole => hole.1.isPrefixOf (c :: s) with
      | some hole => hole.2 ++ go (hole.1.length - 1) s
      | none => c :: go 0 s

section Substitute

variable {table : List (Text × Text)} {c d : Char} {s q r : Text}

lemma substitute_go (n : Nat) : substitute.go table n s = substitute table (s.drop n) := by
  induction s generalizing n with
  | nil => rw [drop_nil, substitute, substitute.go.eq_def, substitute.go.eq_def]
  | cons c s ih =>
    cases n with
    | zero => rfl
    | succ n => exact ih n

lemma replace_eq_substitute (pat rep s : Text) : replace pat rep s = substitute [(pat, rep)] s := by
  have hgo : ∀ n, replace.go pat rep n s = substitute.go [(pat, rep)] n s := by
    induction s with
    | nil => exact fun n => by rw [replace.go.eq_def, substitute.go.eq_def]
    | cons c s ih =>
      intro n
      cases n with
      | zero =>
        rw [replace.go, substitute.go, find?_cons, find?_nil, ih, ih]
        by_cases h : pat.isPrefixOf (c :: s) = true
        · rw [if_pos h, h]
        · rw [if_neg h, Bool.eq_false_of_not_eq_true h]
      | succ n => exact ih n
  exact hgo 0

lemma substitute_nil : substitute table [] = [] := by
  rw [substitute, substitute.go.eq_def]

lemma substitute_cons (h : ∀ hole ∈ table, ¬ hole.1 <+: c :: s) :
    substitute table (c :: s) = c :: substitute table s := by
  have hnone : table.find? (fun hole => hole.1.isPrefixOf (c :: s)) = none :=
    find?_eq_none.mpr fun hole hmem => mt isPrefixOf_iff_prefix.mp (h hole hmem)
  rw [substitute, substitute.go, hnone]
  rfl

lemma substitute_hole {v : Text}
    (h : table.find? (fun hole => hole.1.isPrefixOf (d :: (q ++ r))) = some (d :: q, v)) :
    substitute table (d :: (q ++ r)) = v ++ substitute table r := by
  rw [substitute, substitute.go, h]
  dsimp only
  rw [substitute_go, length_cons, Nat.add_sub_cancel, drop_left]

lemma substitute_append (h : ∀ hole ∈ table, hole.1.head? = some d) (hq : d ∉ q) :
    substitute table (q ++ r) = q ++ substitute table r := by
  induction q with
  | nil => rfl
  | cons c q ih =>
    rw [cons_append, substitute_cons, ih fun hmem => hq (mem_cons_of_mem c hmem),
      cons_append]
    rintro ⟨pat, rep⟩ hmem hpre
    obtain ⟨pat, rfl⟩ := head?_eq_some_iff.mp (h _ hmem)
    exact hq ((cons_prefix_cons.mp hpre).1 ▸ mem_cons_self)

end Substitute

/-! ### Counting a placeholder -/

def occurrences (p s : Text) : Nat :=
  s.tails.countP (p.isPrefixOf ·)

section Two

variable {d : Char} {q₁ q₂ v₁ v₂ r s : Text}

lemma occurrences_cons (p : Text) (c : Char) (s : Text) :
    occurrences p (c :: s) = occurrences p s + if p <+: c :: s then 1 else 0 := by
  simp only [occurrences, tails_cons, countP_cons, isPrefixOf_iff_prefix]

lemma substitute_of_occurrences {hole : Text × Text} {p v : Text} (h : occurrences p s = 0) :
    substitute [hole, (p, v)] s = substitute [hole] s := by
  have hgo : ∀ n, substitute.go [hole, (p, v)] n s = substitute.go [hole] n s := by
    induction s with
    | nil => exact fun n => by rw [substitute.go.eq_def, substitute.go.eq_def]
    | cons c s ih =>
      rw [occurrences_cons, Nat.add_eq_zero_iff] at h
      have hnot : p.isPrefixOf (c :: s) = false := by
        rw [← Bool.not_eq_true, isPrefixOf_iff_prefix]
        exact fun hpre => absurd h.2 (by rw [if_pos hpre]; exact Nat.one_ne_zero)
      intro n
      cases n with
      | zero =>
        rw [substitute.go, substitute.go, find?_cons, find?_cons, find?_cons, hnot]
        simp only [ih h.1]
      | succ n => exact ih h.1 n
  exact hgo 0

/-- Two placeholders that begin with the same character, which is nowhere else in them. Neither is
the beginning of the other one, and neither has the first character of the first value. -/
structure Apart (d : Char) (q₁ q₂ v₁ : Text) : Prop where
  notMem₁ : d ∉ q₁
  notMem₂ : d ∉ q₂
  first : ¬ q₁ <+: q₂
  second : ¬ q₂ <+: q₁
  value : ∃ f v, v₁ = f :: v ∧ f ≠ d ∧ f ∉ q₂

/-- The second placeholder begins nowhere in what stands in for the first. -/
def Clean (d : Char) (q₁ q₂ v₁ s : Text) : Prop :=
  ∀ after, d :: (q₁ ++ after) <:+ s → ∀ i < v₁.length, ¬ d :: q₂ <+: (v₁ ++ after).drop i

lemma substitute_one (d : Char) (q v r : Text) :
    substitute [(d :: q, v)] (d :: (q ++ r)) = v ++ substitute [(d :: q, v)] r :=
  substitute_hole (by simp)

lemma substitute_first (d : Char) (q v r : Text) (hole : Text × Text) :
    substitute [(d :: q, v), hole] (d :: (q ++ r)) = v ++ substitute [(d :: q, v), hole] r :=
  substitute_hole (by simp)

lemma not_prefix_append (d : Char) {q q' : Text} (h : ¬ q <+: q') (h' : ¬ q' <+: q) (r : Text) :
    ¬ d :: q <+: d :: (q' ++ r) := by
  intro hpre
  rw [cons_prefix_cons] at hpre
  rcases prefix_or_prefix_of_prefix hpre.2 (prefix_append q' r) with hq | hq
  · exact h hq
  · exact h' hq

lemma placeholder_induction (d : Char) (q₁ q₂ : Text) {motive : Text → Prop} (nil : motive [])
    (first : ∀ r, motive r → motive (d :: (q₁ ++ r)))
    (second : ∀ r, motive r → motive (d :: (q₂ ++ r)))
    (char : ∀ c r, ¬ d :: q₁ <+: c :: r → ¬ d :: q₂ <+: c :: r → motive r → motive (c :: r))
    (s : Text) : motive s := by
  induction hn : s.length using Nat.strong_induction_on generalizing s with
  | _ n ih =>
    subst hn
    by_cases h₁ : d :: q₁ <+: s
    · obtain ⟨r, rfl⟩ := h₁
      exact first r (ih _ (by simp) r rfl)
    · by_cases h₂ : d :: q₂ <+: s
      · obtain ⟨r, rfl⟩ := h₂
        exact second r (ih _ (by simp) r rfl)
      · cases s with
        | nil => exact nil
        | cons c r => exact char c r h₁ h₂ (ih _ (by simp) r rfl)

variable {q : Text}

lemma Apart.prefix_substitute_iff (h : Apart d q₁ q₂ v₁) (hq : q <:+ q₂) (s : Text) :
    q <+: substitute [(d :: q₁, v₁)] s ↔ q <+: s := by
  obtain ⟨f, v, hv, -, hf⟩ := h.value
  induction q generalizing s with
  | nil => exact iff_of_true nil_prefix nil_prefix
  | cons a q ih =>
    have ha : a ∈ q₂ := hq.subset mem_cons_self
    by_cases hhole : d :: q₁ <+: s
    · obtain ⟨r, rfl⟩ := hhole
      rw [cons_append, substitute_one, hv]
      refine iff_of_false (fun hpre => hf ?_) fun hpre => h.notMem₂ ?_
      · exact (cons_prefix_cons.mp hpre).1 ▸ ha
      · exact (cons_prefix_cons.mp hpre).1 ▸ ha
    · cases s with
      | nil => rw [substitute_nil]
      | cons c s =>
        rw [substitute_cons (by simpa using hhole), cons_prefix_cons, cons_prefix_cons,
          ih ((suffix_cons a q).trans hq)]

lemma prefix_append_congr {q t t' : Text} (w : Text) (h : ∀ u, u <:+ q → (u <+: t ↔ u <+: t')) :
    q <+: w ++ t ↔ q <+: w ++ t' := by
  induction w generalizing q with
  | nil => exact h q suffix_rfl
  | cons c w ih =>
    cases q with
    | nil => exact iff_of_true nil_prefix nil_prefix
    | cons a q =>
      rw [cons_append, cons_append, cons_prefix_cons, cons_prefix_cons,
        ih fun u hu => h u (hu.trans (suffix_cons a q))]

lemma Apart.prefix_drop_iff (h : Apart d q₁ q₂ v₁) {i : Nat} (hi : i < v₁.length) (s : Text) :
    d :: q₂ <+: (v₁ ++ substitute [(d :: q₁, v₁)] s).drop i ↔ d :: q₂ <+: (v₁ ++ s).drop i := by
  rw [drop_append_of_le_length hi.le, drop_append_of_le_length hi.le,
    drop_eq_getElem_cons hi, cons_append, cons_append, cons_prefix_cons,
    cons_prefix_cons, prefix_append_congr _ fun u hu => h.prefix_substitute_iff hu s]

/-! ### One placeholder after the other -/

lemma occurrences_append (hq : d ∉ q) (q' r : Text) :
    occurrences (d :: q') (q ++ r) = occurrences (d :: q') r := by
  induction q with
  | nil => rfl
  | cons c q ih =>
    have hnot : ¬ d :: q' <+: c :: (q ++ r) := fun hpre =>
      hq ((cons_prefix_cons.mp hpre).1 ▸ mem_cons_self)
    rw [cons_append, occurrences_cons, ih fun hmem => hq (mem_cons_of_mem c hmem),
      if_neg hnot]
    rfl

lemma occurrences_le_append (p w s : Text) : occurrences p s ≤ occurrences p (w ++ s) ∧
    (occurrences p s = occurrences p (w ++ s) ↔ ∀ i < w.length, ¬ p <+: (w ++ s).drop i) := by
  induction w with
  | nil => exact ⟨le_rfl, iff_of_true rfl nofun⟩
  | cons c w ih =>
    have hfirst : (∀ i < (c :: w).length, ¬ p <+: (c :: w ++ s).drop i) ↔
        ¬ p <+: c :: (w ++ s) ∧ ∀ i < w.length, ¬ p <+: (w ++ s).drop i :=
      Nat.forall_lt_succ_left
    rw [hfirst, cons_append, occurrences_cons, ← ih.2]
    have hle := ih.1
    split_ifs with hpre
    · exact ⟨by omega, iff_of_false (by omega) fun h => h.1 hpre⟩
    · exact ⟨hle, (and_iff_right hpre).symm⟩

lemma clean_cons {c : Char} (hnot : ¬ d :: q₁ <+: c :: r) :
    Clean d q₁ q₂ v₁ (c :: r) ↔ Clean d q₁ q₂ v₁ r := by
  refine forall_congr' fun after => imp_congr_left ?_
  rw [suffix_cons_iff, or_iff_right]
  exact fun heq => hnot (heq ▸ prefix_append _ _)

lemma clean_append (hq : d ∉ q) :
    Clean d q₁ q₂ v₁ (q ++ r) ↔ Clean d q₁ q₂ v₁ r := by
  induction q with
  | nil => rfl
  | cons c q ih =>
    rw [cons_append, clean_cons, ih fun hmem => hq (mem_cons_of_mem c hmem)]
    intro hpre
    obtain ⟨rfl, -⟩ := cons_prefix_cons.mp hpre
    exact hq mem_cons_self

lemma clean_first (hq : d ∉ q₁) : Clean d q₁ q₂ v₁ (d :: (q₁ ++ r)) ↔
    (∀ i < v₁.length, ¬ d :: q₂ <+: (v₁ ++ r).drop i) ∧ Clean d q₁ q₂ v₁ r := by
  have hskip : Clean d q₁ q₂ v₁ r ↔ Clean d q₁ q₂ v₁ (q₁ ++ r) := (clean_append hq).symm
  rw [hskip]
  constructor
  · intro h
    exact ⟨h r suffix_rfl, fun after hafter => h after (hafter.trans (suffix_cons d _))⟩
  · rintro ⟨hr, hrest⟩ after hafter
    rcases suffix_cons_iff.mp hafter with heq | hsuffix
    · rwa [append_cancel_left (cons.inj heq).2]
    · exact hrest after hsuffix

lemma clean_of_notMem (h : d ∉ v₁) : Clean d q₁ q₂ v₁ s := by
  intro after _ i hi hpre
  rw [drop_append_of_le_length hi.le, drop_eq_getElem_cons hi, cons_append,
    cons_prefix_cons] at hpre
  exact h (hpre.1 ▸ getElem_mem hi)

section Parts

variable (h : Apart d q₁ q₂ v₁)

include h

lemma Apart.substitute_second (r : Text) :
    substitute [(d :: q₁, v₁)] (d :: (q₂ ++ r)) = d :: (q₂ ++ substitute [(d :: q₁, v₁)] r) := by
  have hnot := not_prefix_append d h.first h.second r
  rw [substitute_cons (by simpa using hnot), substitute_append (by simp) h.notMem₂]

lemma Apart.occurrences_substitute (s : Text) :
    occurrences (d :: q₂) s ≤ occurrences (d :: q₂) (substitute [(d :: q₁, v₁)] s) ∧
      (occurrences (d :: q₂) s = occurrences (d :: q₂) (substitute [(d :: q₁, v₁)] s) ↔
        Clean d q₁ q₂ v₁ s) := by
  induction s using placeholder_induction d q₁ q₂ with
  | nil =>
    rw [substitute_nil]
    refine ⟨le_rfl, iff_of_true rfl fun after hafter => ?_⟩
    exact nomatch suffix_nil.mp hafter
  | first r ih =>
    obtain ⟨hle, heq⟩ := occurrences_le_append (d :: q₂) v₁ (substitute [(d :: q₁, v₁)] r)
    have hsame := forall₂_congr fun i hi => not_congr (h.prefix_drop_iff (i := i) hi r)
    rw [substitute_one, clean_first h.notMem₁, ← ih.2, ← hsame, ← heq, occurrences_cons,
      occurrences_append h.notMem₁, if_neg (not_prefix_append d h.second h.first r)]
    have := ih.1
    exact ⟨by omega, by omega⟩
  | second r ih =>
    have hclean : Clean d q₁ q₂ v₁ (d :: (q₂ ++ r)) ↔ Clean d q₁ q₂ v₁ r := by
      rw [clean_cons (not_prefix_append d h.first h.second r), clean_append h.notMem₂]
    have hone : ∀ t, occurrences (d :: q₂) (d :: (q₂ ++ t)) = occurrences (d :: q₂) t + 1 := by
      intro t
      rw [occurrences_cons, occurrences_append h.notMem₂,
        if_pos (cons_prefix_cons.mpr ⟨rfl, prefix_append q₂ t⟩)]
    rw [h.substitute_second, hclean, hone, hone, Nat.add_right_cancel_iff]
    exact ⟨Nat.succ_le_succ ih.1, ih.2⟩
  | char c r h₁ h₂ ih =>
    have hsame : d :: q₂ <+: c :: substitute [(d :: q₁, v₁)] r ↔ d :: q₂ <+: c :: r := by
      rw [cons_prefix_cons, cons_prefix_cons, h.prefix_substitute_iff suffix_rfl]
    rw [substitute_cons (by simpa using h₁), clean_cons h₁, occurrences_cons, occurrences_cons,
      if_neg h₂, if_neg (mt hsame.mp h₂)]
    exact ih

lemma Apart.both_second (v₂ r : Text) :
    substitute [(d :: q₁, v₁), (d :: q₂, v₂)] (d :: (q₂ ++ r)) =
      v₂ ++ substitute [(d :: q₁, v₁), (d :: q₂, v₂)] r := by
  have hnot := not_prefix_append d h.first h.second r
  rw [← isPrefixOf_iff_prefix, Bool.not_eq_true] at hnot
  refine substitute_hole ?_
  rw [find?_cons, hnot]
  simp

lemma Apart.countP_both (p : Char → Bool) (v₂ s : Text) :
    (substitute [(d :: q₁, v₁), (d :: q₂, v₂)] s).countP p +
        occurrences (d :: q₂) s * (d :: q₂).countP p =
      (substitute [(d :: q₁, v₁)] s).countP p + occurrences (d :: q₂) s * v₂.countP p := by
  induction s using placeholder_induction d q₁ q₂ with
  | nil => simp [substitute_nil, occurrences]
  | first r ih =>
    rw [substitute_first, substitute_one, occurrences_cons, occurrences_append h.notMem₁,
      if_neg (not_prefix_append d h.second h.first r), countP_append, countP_append]
    linarith
  | second r ih =>
    rw [h.both_second, h.substitute_second, occurrences_cons, occurrences_append h.notMem₂,
      if_pos (cons_prefix_cons.mpr ⟨rfl, prefix_append q₂ r⟩), ← cons_append,
      countP_append, countP_append]
    linarith
  | char c r h₁ h₂ ih =>
    rw [substitute_cons (by simpa using And.intro h₁ h₂), substitute_cons (by simpa using h₁),
      occurrences_cons, if_neg h₂, countP_cons (a := c), countP_cons (a := c)]
    linarith

end Parts

lemma countP_substitute (hq : d ∉ q) (p : Char → Bool) (v s : Text) :
    (substitute [(d :: q, v)] s).countP p + occurrences (d :: q) s * (d :: q).countP p =
      s.countP p + occurrences (d :: q) s * v.countP p := by
  have hone : ∀ r, (substitute [(d :: q, v)] r).countP p +
      occurrences (d :: q) r * (d :: q).countP p =
        r.countP p + occurrences (d :: q) r * v.countP p →
      (substitute [(d :: q, v)] (d :: (q ++ r))).countP p +
        occurrences (d :: q) (d :: (q ++ r)) * (d :: q).countP p =
      (d :: (q ++ r)).countP p + occurrences (d :: q) (d :: (q ++ r)) * v.countP p := by
    intro r ih
    rw [substitute_one, occurrences_cons, occurrences_append hq,
      if_pos (cons_prefix_cons.mpr ⟨rfl, prefix_append q r⟩), ← cons_append,
      countP_append, countP_append]
    linarith
  induction s using placeholder_induction d q q with
  | nil => simp [substitute_nil, occurrences]
  | first r ih => exact hone r ih
  | second r ih => exact hone r ih
  | char c r h _ ih =>
    rw [substitute_cons (by simpa using h), occurrences_cons, if_neg h, countP_cons (a := c),
      countP_cons (a := c)]
    linarith

lemma substitute_append_of_clean {p w : Text}
    (hw : ∀ i < w.length, ¬ p <+: (w ++ r).drop i) (v : Text) :
    substitute [(p, v)] (w ++ r) = w ++ substitute [(p, v)] r := by
  induction w with
  | nil => rfl
  | cons c w ih =>
    have hcons : ¬ p <+: c :: (w ++ r) := hw 0 (Nat.succ_pos _)
    rw [cons_append, substitute_cons (by simpa using hcons),
      ih fun i hi => hw (i + 1) (Nat.succ_lt_succ hi), cons_append]

lemma Apart.substitute_eq_of_clean (h : Apart d q₁ q₂ v₁) (hclean : Clean d q₁ q₂ v₁ s)
    (v₂ : Text) :
    substitute [(d :: q₂, v₂)] (substitute [(d :: q₁, v₁)] s) =
      substitute [(d :: q₁, v₁), (d :: q₂, v₂)] s := by
  induction s using placeholder_induction d q₁ q₂ with
  | nil => rw [substitute_nil, substitute_nil, substitute_nil]
  | first r ih =>
    obtain ⟨hvalue, hrest⟩ := (clean_first h.notMem₁).mp hclean
    rw [substitute_first, substitute_one, substitute_append_of_clean, ih hrest]
    exact fun i hi => mt (h.prefix_drop_iff hi r).mp (hvalue i hi)
  | second r ih =>
    rw [clean_cons (not_prefix_append d h.first h.second r), clean_append h.notMem₂] at hclean
    rw [h.both_second, h.substitute_second, substitute_one, ih hclean]
  | char c r h₁ h₂ ih =>
    rw [clean_cons h₁] at hclean
    have hsame : d :: q₂ <+: c :: substitute [(d :: q₁, v₁)] r ↔ d :: q₂ <+: c :: r := by
      rw [cons_prefix_cons, cons_prefix_cons, h.prefix_substitute_iff suffix_rfl]
    rw [substitute_cons (by simpa using h₁), substitute_cons (by simpa using mt hsame.mp h₂),
      substitute_cons (by simpa using And.intro h₁ h₂), ih hclean]

lemma Apart.substitute_eq_iff (h : Apart d q₁ q₂ v₁) {p : Char → Bool}
    (hq : (d :: q₂).countP p = 0) (hv : 0 < v₂.countP p) :
    substitute [(d :: q₂, v₂)] (substitute [(d :: q₁, v₁)] s) =
        substitute [(d :: q₁, v₁), (d :: q₂, v₂)] s ↔ Clean d q₁ q₂ v₁ s := by
  refine ⟨fun heq => ?_, fun hclean => h.substitute_eq_of_clean hclean v₂⟩
  have hchained := countP_substitute h.notMem₂ p v₂ (substitute [(d :: q₁, v₁)] s)
  have hboth := h.countP_both p v₂ s
  rw [heq, hq, Nat.mul_zero, Nat.add_zero] at hchained
  rw [hq, Nat.mul_zero, Nat.add_zero, hchained, Nat.add_left_cancel_iff] at hboth
  exact (h.occurrences_substitute s).2.mp (Nat.eq_of_mul_eq_mul_right hv hboth).symm

lemma Apart.substitute_nil_eq_iff (h : Apart d q₁ q₂ v₁) :
    substitute [(d :: q₂, [])] (substitute [(d :: q₁, v₁)] s) =
        substitute [(d :: q₁, v₁), (d :: q₂, v₂)] s ↔
      Clean d q₁ q₂ v₁ s ∧ (occurrences (d :: q₂) s = 0 ∨ v₂ = []) := by
  have hboth := h.countP_both (fun _ => true) v₂ s
  obtain ⟨hle, hclean⟩ := h.occurrences_substitute s
  constructor
  · intro heq
    have hchained := countP_substitute h.notMem₂ (fun _ => true) [] (substitute [(d :: q₁, v₁)] s)
    rw [heq] at hchained
    simp only [countP_true, length_nil, length_cons, Nat.mul_zero, Nat.add_zero] at hchained hboth
    obtain ⟨n, hn⟩ := Nat.exists_eq_add_of_le hle
    rw [hn] at hchained
    have hzero : n * (q₂.length + 1) + occurrences (d :: q₂) s * v₂.length = 0 := by
      linarith
    obtain ⟨hmore, hlen⟩ := Nat.add_eq_zero_iff.mp hzero
    rw [(Nat.mul_eq_zero.mp hmore).resolve_right (Nat.succ_ne_zero _), Nat.add_zero] at hn
    exact ⟨hclean.mp hn.symm, (Nat.mul_eq_zero.mp hlen).imp_right length_eq_zero_iff.mp⟩
  · rintro ⟨hs, hnone | rfl⟩
    · rw [h.substitute_eq_of_clean hs, substitute_of_occurrences hnone,
        substitute_of_occurrences hnone]
    · exact h.substitute_eq_of_clean hs []

end Two

end Text
