import LamBoot.Library.Glob
import LamBoot.Policy.Basic

/-!
# What the path lists mean

A pattern of the allowlist or the denylist *names* a path when it matches it with the two slashes
and the two cases of a letter taken for the same.
-/

namespace LamBoot

open Text

/-! ### The filter as a pattern match -/

section Filter

variable (lower : Lowercase)

lemma ascii_star : ∀ c ∈ "*".toList, c.toNat < 128 := by
  decide

lemma pathMatchesPattern_eq_true_iff (path pattern : Text) :
    pathMatchesPattern lower path pattern = true ↔
      (Glob.ofPattern '*' (lower.apply pattern)).Matches (lower.apply path) := by
  by_cases hstar : pattern = "*".toList
  · subst hstar
    rw [lower.ascii _ ascii_star]
    simp [pathMatchesPattern, Glob.ofPattern, toAsciiLowercase, Glob.Matches,
      show Char.toLower '*' = '*' from rfl]
  · rw [pathMatchesPattern, if_neg hstar]
    by_cases hmem : '*' ∈ lower.apply pattern
    · simp only [if_pos hmem, Glob.ofPattern]
      split_ifs <;> simp [Glob.Matches]
    · rw [if_neg hmem, Glob.ofPattern_of_not_mem hmem]
      simp [Glob.Matches]

lemma matchesEntry_eq_true_iff_of_ascii {path pattern : Text} (hpath : ∀ c ∈ path, c.toNat < 128)
    (hpattern : ∀ c ∈ pattern, c.toNat < 128) :
    matchesEntry lower path pattern = true ↔
      (Glob.ofPattern '*' (toAsciiLowercase pattern)).Matches (toAsciiLowercase path) := by
  unfold matchesEntry
  split_ifs with hstar
  · rw [pathMatchesPattern_eq_true_iff, lower.ascii _ hpath, lower.ascii _ hpattern]
  · have hlower : '*' ∉ toAsciiLowercase pattern := by
      intro h
      obtain ⟨c, hc, hcs⟩ := List.mem_map.mp h
      exact hstar ((toLower_eq_iff (by decide)).mp hcs ▸ hc)
    rw [Glob.ofPattern_of_not_mem hlower]
    simp [eqIgnoreAsciiCase, Glob.Matches]

/-! ### What the lists mean -/

/-- A character as paths are compared: with backslashes and lower case letters. -/
def foldChar (c : Char) : Char :=
  if c = '/' then '\\' else c.toLower

def folded (s : Text) : Text :=
  s.map foldChar

/-- The pattern names the path, whichever slashes and cases the two are written in. -/
def Names (pattern path : Text) : Prop :=
  (Glob.ofPattern '*' (folded pattern)).Matches (folded path)
deriving Decidable

/-- Two lists permit something, given which patterns name it: an allowlist that is there names it,
and the denylist does not. -/
structure ListsPermit (names : Text → Prop) (allowlist denylist : List Text) : Prop where
  allow : allowlist ≠ [] → ∃ pattern ∈ allowlist, names pattern
  deny : ∀ pattern ∈ denylist, ¬ names pattern

/-- What the lists of a policy are meant to permit. -/
def Policy.Permits (policy : Policy) (path : Text) : Prop :=
  ListsPermit (fun pattern => Names pattern path) policy.allowlist policy.denylist

/-- The filter reads the lists no more laxly than they are meant at a path: it sees each deny
pattern that names it, and accepts it only if the allowlist names it. -/
structure Policy.ReadStrictly (policy : Policy) (path : Text) : Prop where
  deny : ∀ pattern ∈ policy.denylist, Names pattern path → matchesEntry lower path pattern = true
  allow : ∀ pattern ∈ policy.allowlist, matchesEntry lower path pattern = true →
    ∃ pattern ∈ policy.allowlist, Names pattern path

variable {lower}

lemma Policy.allowed_eq_true_iff {policy : Policy} {path : Text} :
    policy.allowed lower path = true ↔
      ListsPermit (fun pattern => matchesEntry lower path pattern = true) policy.allowlist
        policy.denylist := by
  have hlists : ListsPermit (fun pattern => matchesEntry lower path pattern = true)
      policy.allowlist policy.denylist ↔
        (policy.allowlist ≠ [] →
          ∃ pattern ∈ policy.allowlist, matchesEntry lower path pattern = true) ∧
        ∀ pattern ∈ policy.denylist, ¬ matchesEntry lower path pattern = true :=
    ⟨fun h => ⟨h.allow, h.deny⟩, fun h => ⟨h.1, h.2⟩⟩
  rw [hlists]
  unfold Policy.allowed Policy.isDenied
  cases policy.allowlist <;> simp

/-- What the filter lets through is permitted exactly if the filter reads the lists strictly. -/
lemma Policy.permits_iff_readStrictly {policy : Policy} {path : Text}
    (h : policy.allowed lower path = true) :
    policy.Permits path ↔ policy.ReadStrictly lower path := by
  have hfilter := Policy.allowed_eq_true_iff.mp h
  constructor
  · intro hp
    exact ⟨fun q hq hname => absurd hname (hp.deny q hq),
      fun q hq _ => hp.allow (List.ne_nil_of_mem hq)⟩
  · intro hs
    refine ⟨fun hne => ?_, fun q hq hname => hfilter.deny q hq (hs.deny q hq hname)⟩
    obtain ⟨q, hq, hmatch⟩ := hfilter.allow hne
    exact hs.allow q hq hmatch

end Filter

end LamBoot
