import LamBoot.Library.Text

/-!
# The words of a text

What trimming and cutting at line feeds leave of the pieces that `split_whitespace` finds.
-/

namespace Text

open List

/-! ### Trimming -/

section Trimming

variable {s t : Text}

/-- The ends of a text may be trimmed in any order. -/
lemma trimStart_trimEnd (s : Text) : trimStart (trimEnd s) = trim s := by
  have hs : s = trimEnd s ++ s.rtakeWhile isWhitespace :=
    rdropWhile_append_rtakeWhile.symm
  have hends : (trimStart (trimEnd s)).rdropWhile isWhitespace = trimStart (trimEnd s) := by
    refine (rdropWhile_eq_self_iff).mpr fun hne => ?_
    have hsuffix : trimStart (trimEnd s) <:+ trimEnd s := dropWhile_suffix _
    have hne' : trimEnd s ≠ [] := fun h => hne (suffix_nil.mp (h ▸ hsuffix))
    rw [hsuffix.getLast hne]
    exact rdropWhile_last_not isWhitespace s hne'
  calc trimStart (trimEnd s) = trimBy isWhitespace (trimEnd s) := hends.symm
    _ = trimBy isWhitespace (trimEnd s ++ s.rtakeWhile isWhitespace) :=
      (trimBy_append_right fun d hd => mem_rtakeWhile_imp hd).symm
    _ = trim s := by rw [← hs]; rfl

lemma trim_eq_nil_iff : trim s = [] ↔ ∀ c ∈ s, isWhitespace c = true := by
  constructor
  · intro h
    have hdrop := (rdropWhile_eq_nil_iff).mp h
    have hnil : trimStart s = [] := by
      cases hs : trimStart s with
      | nil => rfl
      | cons c rest =>
        have hc : isWhitespace c = true := hdrop c (by rw [hs]; exact mem_cons_self)
        have hnot := head?_dropWhile_not isWhitespace s
        rw [show s.dropWhile isWhitespace = c :: rest from hs] at hnot
        simp [hc] at hnot
    exact dropWhile_eq_nil_iff.mp hnil
  · intro h
    rw [trim, trimStart, dropWhile_eq_nil_iff.mpr h]
    rfl

lemma trimEnd_append_of_trim_ne_nil (h : trim s ≠ []) : trimEnd (t ++ s) = t ++ trimEnd s := by
  have hne : (s.reverse.dropWhile isWhitespace).isEmpty = false := by
    rw [← Bool.not_eq_true, List.isEmpty_iff, List.dropWhile_eq_nil_iff]
    simpa using mt trim_eq_nil_iff.mpr h
  rw [trimEnd, List.rdropWhile, reverse_append, dropWhile_append, hne]
  simp [trimEnd, List.rdropWhile]

lemma isWhitespace_of_isAsciiWhitespace {c : Char} (h : isAsciiWhitespace c = true) :
    isWhitespace c = true := by
  simp only [isAsciiWhitespace, Bool.or_eq_true, beq_iff_eq] at h
  rcases h with (((rfl | rfl) | rfl) | h) | rfl
  · rfl
  · rfl
  · rfl
  · simp [isWhitespace, h]
  · rfl

end Trimming

/-! ### Words -/

section Words

variable {c : Char} {s t word : Text}

lemma splitWhitespace_append_cons (hc : isWhitespace c = true) (s t : Text) :
    splitWhitespace (s ++ c :: t) = splitWhitespace s ++ splitWhitespace t := by
  rw [splitWhitespace, splitOnP_append_cons s t hc, filter_append]
  rfl

/-- Trimming leaves the words. -/
lemma splitWhitespace_trim (s : Text) : splitWhitespace (trim s) = splitWhitespace s := by
  have hstart : splitWhitespace (trimStart s) = splitWhitespace s := by
    induction s with
    | nil => rfl
    | cons c s ih =>
      by_cases hc : isWhitespace c = true
      · rw [trimStart, dropWhile_cons_of_pos hc]
        exact ih.trans (splitWhitespace_append_cons hc [] s).symm
      · rw [trimStart, dropWhile_cons_of_neg hc]
  have hend : ∀ s, splitWhitespace (trimEnd s) = splitWhitespace s := by
    intro s
    induction s using reverseRecOn with
    | nil => rfl
    | append_singleton s c ih =>
      by_cases hc : isWhitespace c = true
      · rw [trimEnd, rdropWhile_concat_pos _ _ _ hc, splitWhitespace_append_cons hc]
        exact ih.trans (append_nil _).symm
      · rw [trimEnd, rdropWhile_concat_neg _ _ _ hc]
  rw [trim, hend, hstart]

/-- The words of a text are those of its lines. -/
lemma splitWhitespace_splitOn (s : Text) :
    splitWhitespace s = (s.splitOn '\n').flatMap splitWhitespace := by
  induction h : s.length using Nat.strong_induction_on generalizing s with
  | _ n ih =>
    cases hsplit : splitOnce '\n' s with
    | none =>
      rw [splitOn_eq_singleton (splitOnce_eq_none_iff.mp hsplit)]
      simp
    | some parts =>
      obtain ⟨before, after⟩ := parts
      obtain ⟨rfl, hbefore⟩ := splitOnce_eq_some_iff.mp hsplit
      have hafter := ih after.length (by rw [← h]; simp; omega) after rfl
      rw [splitWhitespace_append_cons (by decide), splitOn_append_of_not_mem hbefore,
        splitOn_cons_eq_if_modifyHead, hafter]
      simp

lemma splitWhitespace_eq_singleton (hne : s ≠ []) (hs : ∀ c ∈ s, isWhitespace c = false) :
    splitWhitespace s = [s] := by
  rw [splitWhitespace, splitOnP_eq_singleton hs]
  simp [hne]

lemma infix_of_mem_word (hword : word ∈ splitWhitespace s) : word <:+: s :=
  (of_mem_splitOnP (mem_of_mem_filter hword)).1

lemma isWhitespace_of_mem_word (hword : word ∈ splitWhitespace s) (hc : c ∈ word) :
    isWhitespace c = false :=
  (of_mem_splitOnP (mem_of_mem_filter hword)).2 c hc

lemma head?_splitWhitespace (hhead : s.head? = some c) (hc : isWhitespace c = false) :
    (splitWhitespace s).head? = some (s.takeWhile (!isWhitespace ·)) := by
  have hs : s = s.takeWhile (!isWhitespace ·) ++ s.dropWhile (!isWhitespace ·) :=
    takeWhile_append_dropWhile.symm
  have hne : s.takeWhile (!isWhitespace ·) ≠ [] := by
    cases s with
    | nil => cases hhead
    | cons d s =>
      cases hhead
      simp [hc]
  have hword : splitWhitespace (s.takeWhile (!isWhitespace ·)) = [s.takeWhile (!isWhitespace ·)] :=
    splitWhitespace_eq_singleton hne fun d hd => by simpa using mem_takeWhile_imp hd
  cases hdrop : s.dropWhile (!isWhitespace ·) with
  | nil =>
    rw [hdrop, append_nil] at hs
    rw [← hs] at hword ⊢
    rw [hword]
    rfl
  | cons d rest =>
    have hd : isWhitespace d = true := by
      have hnot := head?_dropWhile_not (!isWhitespace ·) s
      rw [hdrop] at hnot
      simpa using hnot
    conv_lhs => rw [hs, hdrop, splitWhitespace_append_cons hd, hword]
    rfl

end Words

end Text
