import Mathlib.Data.List.Infix
import Mathlib.Tactic

/-!
# Words and their images under a substitution

A substitution replaces each letter by a word, and an image is cut to a length. A text that begins
with its own cut image is, from the first letter on that is not its own image, the word which the
substitution repeats.
-/

namespace Substitution

open List

variable {α : Type} {g : α → List α} {w s : List α} {n : Nat}

/-- A word begins its own image, and every letter in it has a longer one. -/
structure Repeats (g : α → List α) (w : List α) : Prop where
  begins : w <+: w.flatMap g
  grows : ∀ a ∈ w, 2 ≤ (g a).length

lemma two_mul_length_le (h : ∀ a ∈ s, 2 ≤ (g a).length) :
    2 * s.length ≤ (s.flatMap g).length := by
  induction s with
  | nil => simp
  | cons a s ih =>
    obtain ⟨ha, hs⟩ := forall_mem_cons.mp h
    have := ih hs
    rw [flatMap_cons, length_append, length_cons]
    omega

lemma take_eq_of_begins {t : List α} (h : s <+: t) (hn : n ≤ s.length) : t.take n = s.take n := by
  obtain ⟨rest, rfl⟩ := h
  exact take_append_of_le_length hn

lemma Repeats.take_flatMap (hw : Repeats g w) {k : Nat} (hk : w.take k <+: s)
    (hkw : k ≤ w.length) (hnk : n ≤ 2 * k) (hnw : n ≤ w.length) :
    (s.flatMap g).take n = w.take n := by
  have hlen : n ≤ ((w.take k).flatMap g).length := by
    have := two_mul_length_le (s := w.take k) fun a ha => hw.grows a (mem_of_mem_take ha)
    rw [length_take] at this
    omega
  have hpart : w.take k <+: w := take_prefix k w
  calc (s.flatMap g).take n
      = ((w.take k).flatMap g).take n := take_eq_of_begins (hk.flatMap g) hlen
    _ = (w.flatMap g).take n := (take_eq_of_begins (hpart.flatMap g) hlen).symm
    _ = w.take n := take_eq_of_begins hw.begins hnw

/-- A text with the first letter of a word that repeats begins with its cut image just when it
begins with the word. -/
theorem Repeats.take_flatMap_iff (hw : Repeats g w) (hn : n ≤ w.length)
    (hhead : w.take 1 <+: s) : (s.flatMap g).take n <+: s ↔ w.take n <+: s := by
  constructor
  · intro h
    -- one letter more at a time: what is known of the text fixes more of its image
    have hstart : ∀ k ≤ n, w.take k <+: s := by
      intro k
      induction k with
      | zero => exact fun _ => nil_prefix
      | succ k ih =>
        intro hk
        rcases Nat.eq_zero_or_pos k with rfl | hpos
        · exact hhead
        · rw [← hw.take_flatMap (ih (by omega)) (by omega) (by omega) (by omega)]
          exact (take_prefix_take_left (by omega)).trans h
    exact hstart n le_rfl
  · intro h
    rw [hw.take_flatMap h hn (by omega) hn]
    exact h

def images (g : α → List α) (a : α) : Nat → List α
  | 0 => [a]
  | m + 1 => (images g a m).flatMap g

lemma repeats_images {p : α → Prop} {a : α} (ha : p a) (hbegins : [a] <+: g a)
    (hgrows : ∀ b, p b → 2 ≤ (g b).length) (hkeeps : ∀ b, p b → ∀ c ∈ g b, p c) (m : Nat) :
    Repeats g (images g a m) ∧ 2 ^ m ≤ (images g a m).length := by
  have hall : ∀ m, ∀ b ∈ images g a m, p b := by
    intro m
    induction m with
    | zero => exact fun b hb => mem_singleton.mp hb ▸ ha
    | succ m ih =>
      intro b hb
      obtain ⟨c, hc, hb⟩ := mem_flatMap.mp hb
      exact hkeeps c (ih c hc) b hb
  have hlong : ∀ m, ∀ b ∈ images g a m, 2 ≤ (g b).length := fun m b hb =>
    hgrows b (hall m b hb)
  induction m with
  | zero =>
    refine ⟨⟨?_, hlong 0⟩, le_rfl⟩
    rwa [images, flatMap_singleton]
  | succ m ih =>
    refine ⟨⟨ih.1.begins.flatMap g, hlong (m + 1)⟩, ?_⟩
    have := two_mul_length_le (hlong m)
    rw [images, pow_succ]
    omega

end Substitution
