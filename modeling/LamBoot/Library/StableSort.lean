import Mathlib.Data.List.MinMax
import Mathlib.Tactic

/-!
# Sorting by a key

A stable sort keeps the order of what has the same key. So the first element of a sorted list is the
first one with the least key, and the last element is the last one with the greatest.
-/

namespace List

variable {α β γ : Type*} [LinearOrder β] [LinearOrder γ] {key : α → β} {l l' : List α}

/-- A stable sort by a key. -/
def sortBy (key : α → β) (l : List α) : List α :=
  l.mergeSort fun a b => key a ≤ key b

lemma sortBy_perm : (sortBy key l).Perm l :=
  mergeSort_perm _ _

lemma mem_sortBy {a : α} : a ∈ sortBy key l ↔ a ∈ l :=
  sortBy_perm.mem_iff

lemma length_sortBy : (sortBy key l).length = l.length :=
  sortBy_perm.length_eq

lemma sortBy_eq_nil_iff : sortBy key l = [] ↔ l = [] := by
  rw [← length_eq_zero_iff, length_sortBy, length_eq_zero_iff]

lemma pairwise_sortBy (key : α → β) (l : List α) :
    (sortBy key l).Pairwise fun a b => key a ≤ key b := by
  have hpairwise : (sortBy key l).Pairwise fun a b => decide (key a ≤ key b) = true := by
    refine pairwise_mergeSort (fun a b c hab hbc => ?_) (fun a b => ?_) l
    · simp only [decide_eq_true_eq] at hab hbc ⊢
      exact hab.trans hbc
    · simpa using le_total (key a) (key b)
  exact hpairwise.imp fun h => of_decide_eq_true h

lemma map_sortBy {δ : Type*} {key' : δ → β} {f : α → δ} (h : ∀ a, key' (f a) = key a) :
    (sortBy key l).map f = sortBy key' (l.map f) :=
  map_mergeSort fun a _ b _ => by rw [h, h]

lemma sortBy_congr {key' : α → γ} (h : ∀ a b, key a ≤ key b ↔ key' a ≤ key' b) :
    sortBy key l = sortBy key' l := by
  simp only [sortBy, h]

/-- What has the same key stays in order. -/
lemma filter_sortBy (k : β) :
    (sortBy key l).filter (fun a => key a = k) = l.filter fun a => key a = k := by
  have hkey : ∀ a ∈ l.filter fun a => key a = k, key a = k := fun a ha =>
    of_decide_eq_true (mem_filter.mp ha).2
  have hpairwise : (l.filter fun a => key a = k).Pairwise
      fun a b => decide (key a ≤ key b) = true :=
    pairwise_of_forall_mem_list fun a ha b hb => by simp [hkey a ha, hkey b hb]
  have hsublist := sublist_mergeSort
    (fun a b c hab hbc => by
      simp only [decide_eq_true_eq] at hab hbc ⊢
      exact hab.trans hbc)
    (fun a b => by simpa using le_total (key a) (key b)) hpairwise (filter_sublist (l := l))
  have hfilter := hsublist.filter fun a => key a = k
  simp only [filter_filter, Bool.and_self] at hfilter
  exact (hfilter.eq_of_length (sortBy_perm.filter _).length_eq.symm).symm

/-- A second key that increases along the list makes no difference. -/
lemma mergeSort_eq_sortBy (number : α → γ) {le : α → α → Bool}
    (hle : ∀ a b, le a b = true ↔ key a < key b ∨ key a = key b ∧ number a ≤ number b)
    (hnumber : l.Pairwise fun a b => number a < number b) : l.mergeSort le = sortBy key l := by
  have horder : ∀ a ∈ l.zipIdx, ∀ b ∈ l.zipIdx, number a.1 ≤ number b.1 ↔ a.2 ≤ b.2 := by
    rintro ⟨a, i⟩ ha ⟨b, j⟩ hb
    rw [mem_zipIdx_iff_getElem?, getElem?_eq_some_iff] at ha hb
    dsimp only at ha hb ⊢
    obtain ⟨hi, rfl⟩ := ha
    obtain ⟨hj, rfl⟩ := hb
    rw [pairwise_iff_getElem] at hnumber
    rcases lt_trichotomy i j with hij | rfl | hji
    · exact iff_of_true (hnumber i j hi hj hij).le hij.le
    · exact iff_of_true le_rfl le_rfl
    · exact iff_of_false (hnumber j i hj hi hji).not_ge hji.not_ge
  have hmap : (l.zipIdx.mergeSort (zipIdxLE fun a b => key a ≤ key b)).map Prod.fst =
      (l.zipIdx.map Prod.fst).mergeSort le := by
    refine map_mergeSort fun a ha b hb => ?_
    rw [Bool.eq_iff_iff, hle, horder a ha b hb, zipIdxLE]
    rcases lt_trichotomy (key a.1) (key b.1) with hlt | heq | hgt
    · simp [hlt, hlt.le, hlt.not_ge]
    · simp [heq]
    · simp [hgt.not_ge, hgt.not_gt, hgt.ne']
  have hsort : (l.zipIdx.mergeSort (zipIdxLE fun a b => key a ≤ key b)).map Prod.fst =
      l.mergeSort fun a b => key a ≤ key b :=
    mergeSort_zipIdx
  rw [sortBy, ← hsort, hmap, zipIdx_map_fst]

/-! ### The first and the last -/

/-- The least element is the first one with the least key. -/
lemma argmin_eq_head?_filter {k : β} (hmin : ∀ a ∈ l, k ≤ key a) (hmem : ∃ a ∈ l, key a = k) :
    l.argmin key = (l.filter fun a => key a = k).head? := by
  induction l with
  | nil => exact absurd hmem (by simp)
  | cons a l ih =>
    rw [argmin_cons]
    by_cases ha : key a = k
    · rw [filter_cons_of_pos (by simpa using ha), head?_cons]
      cases hl : l.argmin key with
      | none => rfl
      | some b =>
        have hle := hmin b (mem_cons_of_mem a (argmin_mem hl))
        exact if_neg (by rw [ha]; exact hle.not_gt)
    · obtain ⟨b, hb, hkey⟩ := hmem
      have hbl : b ∈ l := (mem_cons.mp hb).resolve_left (by rintro rfl; exact ha hkey)
      rw [filter_cons_of_neg (by simpa using ha), ih (fun c hc => hmin c (mem_cons_of_mem a hc))
        ⟨b, hbl, hkey⟩]
      have hfilter : b ∈ l.filter fun a => key a = k := mem_filter.mpr ⟨hbl, decide_eq_true hkey⟩
      obtain ⟨c, rest, hc⟩ := exists_cons_of_ne_nil (ne_nil_of_mem hfilter)
      have hck : key c = k := by
        have := (mem_filter.mp (hc ▸ mem_cons_self : c ∈ l.filter fun a => key a = k)).2
        exact of_decide_eq_true this
      rw [hc, head?_cons]
      exact if_pos (by rw [hck]; exact lt_of_le_of_ne (hmin a mem_cons_self) (Ne.symm ha))

lemma head?_sortBy : (sortBy key l).head? = l.argmin key := by
  cases hl : sortBy key l with
  | nil => rw [sortBy_eq_nil_iff.mp hl, argmin_nil, head?_nil]
  | cons a rest =>
    have hpairwise := pairwise_sortBy key l
    have hmem : a ∈ l := mem_sortBy.mp (hl ▸ mem_cons_self)
    have hmin : ∀ b ∈ l, key a ≤ key b := by
      intro b hb
      rw [hl, pairwise_cons] at hpairwise
      rcases mem_cons.mp (hl ▸ mem_sortBy.mpr hb : b ∈ a :: rest) with rfl | hb
      · exact le_rfl
      · exact hpairwise.1 b hb
    rw [argmin_eq_head?_filter hmin ⟨a, hmem, rfl⟩, ← filter_sortBy, hl,
      filter_cons_of_pos (by simp)]
    rfl

lemma argmin_append : (l ++ l').argmin key =
    match l.argmin key, l'.argmin key with
    | none, o => o
    | some a, none => some a
    | some a, some b => if key b < key a then some b else some a := by
  induction l with
  | nil => rfl
  | cons a l ih =>
    rw [cons_append, argmin_cons, ih, argmin_cons]
    cases l.argmin key with
    | none =>
      cases l'.argmin key <;> rfl
    | some b =>
      cases l'.argmin key with
      | none =>
        dsimp only
        split_ifs <;> rfl
      | some c =>
        by_cases hcb : key c < key b
        · by_cases hba : key b < key a
          · simp [hcb, hba, hcb.trans hba]
          · simp [hcb, hba]
        · by_cases hba : key b < key a
          · simp [hcb, hba]
          · have hca : ¬ key c < key a :=
              ((not_lt.mp hba).trans (not_lt.mp hcb)).not_gt
            simp [hcb, hba, hca]

/-- The last element after sorting is the last one with the greatest key. -/
lemma getLast?_sortBy {k : β} (hmax : ∀ a ∈ l, key a ≤ k) (hmem : ∃ a ∈ l, key a = k) :
    (sortBy key l).getLast? = (l.filter fun a => key a = k).getLast? := by
  obtain ⟨a, ha, hak⟩ := hmem
  have hne : sortBy key l ≠ [] := ne_nil_of_mem (mem_sortBy.mpr ha)
  have hlast : key ((sortBy key l).getLast hne) = k := by
    refine le_antisymm (hmax _ (mem_sortBy.mp (getLast_mem hne))) ?_
    rw [← hak]
    exact (pairwise_sortBy key l).rel_getLast (mem_sortBy.mpr ha)
  conv_lhs => rw [← dropLast_append_getLast hne]
  rw [← filter_sortBy]
  conv_rhs => rw [← dropLast_append_getLast hne, filter_append,
    filter_cons_of_pos (by simpa using hlast)]
  simp

lemma mem_of_mem_getLast?_sortBy {a : α} (h : a ∈ (sortBy key l).getLast?) : a ∈ l :=
  mem_sortBy.mp (mem_of_getLast? h)

lemma le_of_mem_getLast?_sortBy {a b : α} (h : a ∈ (sortBy key l).getLast?) (hb : b ∈ l) :
    key b ≤ key a := by
  have hmem : b ∈ sortBy key l := mem_sortBy.mpr hb
  have hlast := (pairwise_sortBy key l).rel_getLast hmem
  rwa [getLast_eq_iff_getLast?_eq_some (ne_nil_of_mem hmem) |>.mpr h] at hlast

lemma getLast?_sortBy_append (h : ∀ a ∈ l, ∃ b ∈ l', key a ≤ key b) :
    (sortBy key (l ++ l')).getLast? = (sortBy key l').getLast? := by
  cases hmax : l'.argmax key with
  | none =>
    have hnil := argmax_eq_none.mp hmax
    have hl : l = [] := eq_nil_iff_forall_not_mem.mpr fun a ha => by
      obtain ⟨b, hb, -⟩ := h a ha
      rw [hnil] at hb
      cases hb
    rw [hl, nil_append]
  | some m =>
    have hm := argmax_mem hmax
    have hle : ∀ b ∈ l', key b ≤ key m := fun b hb => le_of_mem_argmax hb hmax
    have hle' : ∀ a ∈ l ++ l', key a ≤ key m := by
      intro a ha
      rcases mem_append.mp ha with ha | ha
      · obtain ⟨b, hb, hab⟩ := h a ha
        exact hab.trans (hle b hb)
      · exact hle a ha
    have hfilter : m ∈ l'.filter fun a => key a = key m := mem_filter.mpr ⟨hm, by simp⟩
    rw [getLast?_sortBy hle' ⟨m, mem_append_right l hm, rfl⟩, getLast?_sortBy hle ⟨m, hm, rfl⟩,
      filter_append, getLast?_append_of_ne_nil _ (ne_nil_of_mem hfilter)]

end List
