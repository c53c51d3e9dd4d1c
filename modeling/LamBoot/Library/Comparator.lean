import Mathlib.Tactic

/-!
# Comparators

A sort relies on its comparator being a total preorder. The laws are those of `Std.OrientedCmp` and
`Std.TransCmp`; this file adds transitivity *at one triple*, and the rule for a comparator that
refines another one.
-/

namespace Comparator

variable {α κ : Type*}

/-- Transitivity of `cmp` at the triple `a`, `b`, `c`. -/
def TransAt (cmp : α → α → Ordering) (a b c : α) : Prop :=
  (cmp a b).isLE = true → (cmp b c).isLE = true → (cmp a c).isLE = true

lemma TransAt.of_transCmp (cmp : α → α → Ordering) [Std.TransCmp cmp] (a b c : α) :
    TransAt cmp a b c :=
  fun hab hbc => Std.TransCmp.isLE_trans hab hbc

lemma not_transAt_iff {cmp : α → α → Ordering} {a b c : α} :
    ¬ TransAt cmp a b c ↔
      (cmp a b).isLE = true ∧ (cmp b c).isLE = true ∧ cmp a c = .gt := by
  simp [TransAt]

lemma isLE_then_trans {cmp : κ → κ → Ordering} [Std.TransCmp cmp] {x y z : κ} {p q r : Ordering}
    (h : cmp x y = .eq → cmp y z = .eq → p.isLE = true → q.isLE = true → r.isLE = true)
    (hxy : ((cmp x y).then p).isLE = true) (hyz : ((cmp y z).then q).isLE = true) :
    ((cmp x z).then r).isLE = true := by
  rw [Ordering.isLE_then_iff_or] at hxy hyz ⊢
  rcases hxy with hxy | ⟨hxy, hp⟩
  · rcases hyz with hyz | ⟨hyz, _⟩
    · exact Or.inl (Std.TransCmp.lt_trans hxy hyz)
    · exact Or.inl (Std.TransCmp.lt_of_lt_of_eq hxy hyz)
  · rcases hyz with hyz | ⟨hyz, hq⟩
    · exact Or.inl (Std.TransCmp.lt_of_eq_of_lt hxy hyz)
    · exact Or.inr ⟨Std.TransCmp.eq_trans hxy hyz, h hxy hyz hp hq⟩

lemma transAt_compareLex_iff {cmp₁ cmp₂ : α → α → Ordering} [Std.TransCmp cmp₁] {a b c : α} :
    TransAt (compareLex cmp₁ cmp₂) a b c ↔
      (cmp₁ a b = .eq → cmp₁ b c = .eq → TransAt cmp₂ a b c) := by
  simp only [TransAt, compareLex]
  constructor
  · intro h hab hbc
    have hac : cmp₁ a c = .eq := Std.TransCmp.eq_trans hab hbc
    simpa [hab, hbc, hac] using h
  · intro h hab hbc
    exact isLE_then_trans h hab hbc

/-! ### Building comparators -/

lemma transCmp_comap (f : α → κ) (cmp : κ → κ → Ordering) [Std.TransCmp cmp] :
    Std.TransCmp fun a b => cmp (f a) (f b) where
  eq_swap := Std.OrientedCmp.eq_swap
  isLE_trans := Std.TransCmp.isLE_trans

def noneLast (cmp : α → α → Ordering) : Option α → Option α → Ordering
  | none, none => .eq
  | none, some _ => .gt
  | some _, none => .lt
  | some a, some b => cmp a b

instance (cmp : α → α → Ordering) [Std.TransCmp cmp] : Std.TransCmp (noneLast cmp) where
  eq_swap {a b} := by
    match a, b with
    | none, none | none, some _ | some _, none => rfl
    | some a, some b => exact (inferInstance : Std.OrientedCmp cmp).eq_swap
  isLE_trans {a b c} hab hbc := by
    match a, b, c with
    | some _, some _, some _ => exact TransAt.of_transCmp cmp _ _ _ hab hbc
    | none, none, none | some _, _, none => rfl

/-! ### Comparators that change their order -/

/-- The order `cmp₁` between two elements that satisfy `p`, the order `cmp₂` otherwise. -/
def switchOn (p : α → Bool) (cmp₁ cmp₂ : α → α → Ordering) (a b : α) : Ordering :=
  if p a && p b then cmp₁ a b else cmp₂ a b

/-- Exactly two of the three elements satisfy `p`, and the third stands between them against the
order `cmp₁` puts them in. -/
def SwitchClash (p : α → Bool) (cmp₁ cmp₂ : α → α → Ordering) (a b c : α) : Prop :=
  (p a = true ∧ p b = true ∧ p c = false ∧
      (cmp₁ a b).isLE = true ∧ (cmp₂ b c).isLE = true ∧ cmp₂ c a = .lt) ∨
    (p a = false ∧ p b = true ∧ p c = true ∧
      (cmp₁ b c).isLE = true ∧ cmp₂ c a = .lt ∧ (cmp₂ a b).isLE = true) ∨
    (p a = true ∧ p b = false ∧ p c = true ∧
      cmp₁ c a = .lt ∧ (cmp₂ a b).isLE = true ∧ (cmp₂ b c).isLE = true)

section switchOn

variable {p : α → Bool} {cmp₁ cmp₂ : α → α → Ordering} [Std.TransCmp cmp₁] [Std.TransCmp cmp₂]

instance : Std.OrientedCmp (switchOn p cmp₁ cmp₂) where
  eq_swap {a b} := by
    simp only [switchOn, Bool.and_comm (p a)]
    split_ifs
    · exact Std.OrientedCmp.eq_swap
    · exact Std.OrientedCmp.eq_swap

lemma transAt_switchOn_iff {a b c : α} :
    TransAt (switchOn p cmp₁ cmp₂) a b c ↔ ¬ SwitchClash p cmp₁ cmp₂ a b c := by
  rw [← not_iff_not, not_transAt_iff, not_not, SwitchClash]
  have h₁ : cmp₁ c a = .lt ↔ cmp₁ a c = .gt := Std.OrientedCmp.gt_iff_lt.symm
  have h₂ : cmp₂ c a = .lt ↔ cmp₂ a c = .gt := Std.OrientedCmp.gt_iff_lt.symm
  have t₁ := not_transAt_iff.not.mp (not_not.mpr (TransAt.of_transCmp cmp₁ a b c))
  have t₂ := not_transAt_iff.not.mp (not_not.mpr (TransAt.of_transCmp cmp₂ a b c))
  -- with two of the three in `p` both sides name the same comparisons; otherwise one lawful
  -- order compares all three
  cases ha : p a <;> cases hb : p b <;> cases hc : p c <;>
    simp only [switchOn, ha, hb, hc, h₁, h₂, Bool.and_true, Bool.and_false, Bool.false_eq_true,
      Bool.true_eq_false, if_true, if_false, false_and, true_and, false_or, or_false, iff_false] <;>
    first | exact t₁ | exact t₂ | tauto

end switchOn

end Comparator
