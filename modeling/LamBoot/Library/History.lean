import Mathlib.Data.List.Basic
import Mathlib.Tactic

/-!
# Histories

A history lists what happened, the latest first. `Since p q` says that there was a `p` and that all
of what came after it is a `q`.
-/

namespace History

open List

variable {ν : Type} {p q : ν → Prop} {n : ν} {notes log : List ν}

/-- There was a `p`, and since then only `q`. -/
def Since (p q : ν → Prop) : List ν → Prop
  | [] => False
  | n :: log => p n ∨ q n ∧ Since p q log

lemma since_cons_of_not (hp : ¬ p n) : Since p q (n :: log) ↔ q n ∧ Since p q log := by
  rw [Since, or_iff_right hp]

lemma since_append_of_forall_not (h : ∀ n ∈ notes, ¬ p n) :
    Since p q (notes ++ log) ↔ (∀ n ∈ notes, q n) ∧ Since p q log := by
  induction notes with
  | nil => simp
  | cons n notes ih =>
    obtain ⟨hn, hnotes⟩ := forall_mem_cons.mp h
    rw [cons_append, since_cons_of_not hn, ih hnotes, forall_mem_cons, and_assoc]

lemma Since.append (h : Since p q log) (hnotes : ∀ n ∈ notes, q n) : Since p q (notes ++ log) := by
  induction notes with
  | nil => exact h
  | cons n notes ih =>
    obtain ⟨hn, hnotes⟩ := forall_mem_cons.mp hnotes
    exact .inr ⟨hn, ih hnotes⟩

end History
