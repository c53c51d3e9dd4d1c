import Mathlib.Data.Finset.Basic
import Mathlib.Data.Finset.SDiff
import Mathlib.Tactic

/-!
# Registers and the owners of what is in them

A register of items that values account for: each value takes its items in when it comes to be, and
is to take them out when it goes. What is in the register and held by no value is leaked, and a run
leaks nothing just when none of its steps did.
-/

/-- What is registered, and the values that are there. -/
structure Ledger (ι ω : Type) where
  registered : Finset ι
  owners : List ω

namespace Ledger

open List

variable {ι ω : Type} [DecidableEq ι]

section Moves

variable (holds : ω → Finset ι)

def owned (owners : List ω) : Finset ι :=
  owners.foldr (fun v s => holds v ∪ s) ∅

def leaked (s : Ledger ι ω) : Finset ι :=
  s.registered \ owned holds s.owners

/-- Everything that is held is registered, and held by one value. -/
structure Sound (s : Ledger ι ω) : Prop where
  registered : owned holds s.owners ⊆ s.registered
  disjoint : s.owners.Pairwise fun v w => Disjoint (holds v) (holds w)

/-- One move of a register, which leaves some items to nobody. -/
inductive Moves : Ledger ι ω → Finset ι → Ledger ι ω → Prop where
  | stray {s : Ledger ι ω} {left registered : Finset ι} (h : Disjoint left s.registered)
      (heq : registered = s.registered ∪ left) : Moves s left ⟨registered, s.owners⟩
  | acquire {s : Ledger ι ω} {v : ω} {registered : Finset ι} (h : Disjoint (holds v) s.registered)
      (heq : registered = s.registered ∪ holds v) : Moves s ∅ ⟨registered, s.owners ++ [v]⟩
  | release {s : Ledger ι ω} {i : Nat} {v : ω} {left registered : Finset ι}
      (hv : s.owners[i]? = some v) (h : left ⊆ holds v)
      (heq : registered = s.registered \ (holds v \ left)) :
      Moves s left ⟨registered, s.owners.eraseIdx i⟩

end Moves

variable {holds : ω → Finset ι} {s t : Ledger ι ω} {left : Finset ι} {a : ι} {owners : List ω}

@[simp] lemma mem_owned : a ∈ owned holds owners ↔ ∃ v ∈ owners, a ∈ holds v := by
  induction owners with
  | nil => simp [owned]
  | cons v owners ih =>
    rw [exists_mem_cons_iff, ← ih]
    simp [owned]

lemma mem_leaked :
    a ∈ leaked holds s ↔ a ∈ s.registered ∧ ∀ v ∈ s.owners, a ∉ holds v := by
  simp [leaked]

lemma Sound.mem_registered (h : Sound holds s) {v : ω} (hv : v ∈ s.owners) (ha : a ∈ holds v) :
    a ∈ s.registered :=
  h.registered (mem_owned.mpr ⟨v, hv, ha⟩)

lemma Sound.leaked_eq_empty_iff (h : Sound holds s) :
    leaked holds s = ∅ ↔ s.registered = owned holds s.owners := by
  rw [leaked, Finset.sdiff_eq_empty_iff_subset]
  exact ⟨fun hle => hle.antisymm h.registered, fun heq => heq.le⟩

lemma Sound.notMem_of_mem_eraseIdx (h : Sound holds s) {i : Nat} {v w : ω}
    (hv : s.owners[i]? = some v) (hw : w ∈ s.owners.eraseIdx i) (ha : a ∈ holds v) :
    a ∉ holds w := by
  obtain ⟨j, hne, hw⟩ := mem_eraseIdx_iff_getElem?.mp hw
  obtain ⟨hi, rfl⟩ := List.getElem?_eq_some_iff.mp hv
  obtain ⟨hj, rfl⟩ := List.getElem?_eq_some_iff.mp hw
  have hpairs := pairwise_iff_getElem.mp h.disjoint
  rcases lt_or_gt_of_ne hne with hlt | hlt
  · exact Finset.disjoint_right.mp (hpairs j i hj hi hlt) ha
  · exact Finset.disjoint_left.mp (hpairs i j hi hj hlt) ha

lemma mem_owners_iff_eraseIdx {i : Nat} {v w : ω} (hv : owners[i]? = some v) :
    w ∈ owners ↔ w = v ∨ w ∈ owners.eraseIdx i := by
  rw [mem_eraseIdx_iff_getElem?, mem_iff_getElem?]
  constructor
  · rintro ⟨j, hj⟩
    by_cases hji : j = i
    · subst hji
      exact .inl (Option.some.inj (hj.symm.trans hv))
    · exact .inr ⟨j, hji, hj⟩
  · rintro (rfl | ⟨j, -, hj⟩)
    · exact ⟨i, hv⟩
    · exact ⟨j, hj⟩

lemma Moves.idle : Moves holds s ∅ s :=
  .stray (Finset.disjoint_empty_left _) (Finset.union_empty _).symm

lemma Moves.sound (hs : Sound holds s) (h : Moves holds s left t) : Sound holds t := by
  cases h with
  | stray h heq =>
    subst heq
    exact ⟨hs.registered.trans Finset.subset_union_left, hs.disjoint⟩
  | @acquire v _ h heq =>
    subst heq
    refine ⟨fun a ha => ?_, pairwise_append.mpr ⟨hs.disjoint, pairwise_singleton _ _, ?_⟩⟩
    · obtain ⟨w, hw, ha⟩ := mem_owned.mp ha
      rcases mem_append.mp hw with hw | hw
      · exact Finset.mem_union_left _ (hs.mem_registered hw ha)
      · rw [mem_singleton.mp hw] at ha
        exact Finset.mem_union_right _ ha
    · intro w hw v' hv'
      rw [mem_singleton.mp hv']
      refine Finset.disjoint_left.mpr fun a ha ha' => ?_
      exact Finset.disjoint_left.mp h ha' (hs.mem_registered hw ha)
  | @release i v _ _ hv h heq =>
    subst heq
    refine ⟨fun a ha => ?_, hs.disjoint.sublist (eraseIdx_sublist _ i)⟩
    obtain ⟨w, hw, ha⟩ := mem_owned.mp ha
    have hw' : w ∈ s.owners := (mem_owners_iff_eraseIdx hv).mpr (.inr hw)
    refine Finset.mem_sdiff.mpr ⟨hs.mem_registered hw' ha, fun ha' => ?_⟩
    exact hs.notMem_of_mem_eraseIdx hv hw (Finset.mem_sdiff.mp ha').1 ha

lemma Moves.leaked (hs : Sound holds s) (h : Moves holds s left t) :
    leaked holds t = leaked holds s ∪ left := by
  ext a
  rw [Finset.mem_union, mem_leaked, mem_leaked]
  cases h with
  | stray h heq =>
    subst heq
    have hout : a ∈ left → ∀ v ∈ s.owners, a ∉ holds v := fun ha v hv ha' =>
      Finset.disjoint_left.mp h ha (hs.mem_registered hv ha')
    simp only [Finset.mem_union]
    tauto
  | @acquire v _ h heq =>
    subst heq
    have hout : a ∈ s.registered → a ∉ holds v := fun ha ha' => Finset.disjoint_left.mp h ha' ha
    simp only [Finset.mem_union, mem_append, mem_singleton, or_imp, forall_and,
      forall_eq, Finset.notMem_empty]
    tauto
  | @release i v _ _ hv h heq =>
    subst heq
    have hmem : a ∈ holds v → a ∈ s.registered := hs.mem_registered (mem_of_getElem? hv)
    have hout : a ∈ holds v → ∀ w ∈ s.owners.eraseIdx i, a ∉ holds w := fun ha w hw =>
      hs.notMem_of_mem_eraseIdx hv hw ha
    have hleft := @h a
    simp only [Finset.mem_sdiff, mem_owners_iff_eraseIdx hv, or_imp, forall_and, forall_eq]
    tauto

/-! ### Runs -/

section Runs

variable {σ ε : Type}

/-- The condition holds at every step of a run. -/
def Throughout (step : σ → ε → σ) (p : σ → ε → Prop) : σ → List ε → Prop
  | _, [] => True
  | x, e :: es => p x e ∧ Throughout step p (step x e) es

variable {step : σ → ε → σ} {p : σ → ε → Prop} {ledger : σ → Ledger ι ω}

/-- The steps are moves, and those with `p` the ones that leave nothing. Then a run leaks nothing
just when all its steps have `p`. -/
theorem leaked_foldl_eq_empty_iff
    (hstep : ∀ x e, Sound holds (ledger x) → ∃ left,
      Moves holds (ledger x) left (ledger (step x e)) ∧ (left = ∅ ↔ p x e))
    {x : σ} (hx : Sound holds (ledger x)) (es : List ε) :
    Sound holds (ledger (es.foldl step x)) ∧
    (leaked holds (ledger (es.foldl step x)) = ∅ ↔
      leaked holds (ledger x) = ∅ ∧ Throughout step p x es) := by
  induction es generalizing x with
  | nil => exact ⟨hx, (and_iff_left trivial).symm⟩
  | cons e es ih =>
    obtain ⟨left, hmoves, hleft⟩ := hstep x e hx
    obtain ⟨hsound, hrun⟩ := ih (hmoves.sound hx)
    refine ⟨hsound, hrun.trans ?_⟩
    rw [hmoves.leaked hx, Finset.union_eq_empty, Throughout, hleft, and_assoc]

end Runs

end Ledger
