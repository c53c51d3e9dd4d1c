import Mathlib.Data.List.Infix
import Mathlib.Tactic

/-!
# Patterns with a star at either end

A pattern over any alphabet with a letter set aside as the star. A star at the start of the pattern,
at its end or at both matches anything there; a star elsewhere is a letter like any other.
-/

/-- What a pattern asks of a word. -/
inductive Glob (α : Type*) where
  | exactly (word : List α)
  | startsWith (word : List α)
  | endsWith (word : List α)
  | contains (word : List α)

namespace Glob

variable {α : Type*}

def ofPattern [DecidableEq α] (star : α) (pattern : List α) : Glob α :=
  if pattern.head? = some star ∧ pattern.getLast? = some star then .contains pattern.tail.dropLast
  else if pattern.head? = some star then .endsWith pattern.tail
  else if pattern.getLast? = some star then .startsWith pattern.dropLast
  else .exactly pattern

def Matches : Glob α → List α → Prop
  | .exactly w, s => s = w
  | .startsWith w, s => w <+: s
  | .endsWith w, s => w <:+ s
  | .contains w, s => w <:+: s

instance [DecidableEq α] (g : Glob α) (s : List α) : Decidable (g.Matches s) :=
  match g with
  | .exactly w => inferInstanceAs (Decidable (s = w))
  | .startsWith w => inferInstanceAs (Decidable (w <+: s))
  | .endsWith w => inferInstanceAs (Decidable (w <:+ s))
  | .contains w => inferInstanceAs (Decidable (w <:+: s))

variable [DecidableEq α]

lemma ofPattern_of_not_mem {star : α} {pattern : List α} (h : star ∉ pattern) :
    ofPattern star pattern = .exactly pattern := by
  have hhead : pattern.head? ≠ some star := fun hp => h (List.mem_of_head? hp)
  have hlast : pattern.getLast? ≠ some star := fun hp => h (List.mem_of_getLast? hp)
  simp [ofPattern, hhead, hlast]

end Glob
