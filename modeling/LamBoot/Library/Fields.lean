import LamBoot.Library.LittleEndian

/-!
# Numbers in a byte string

A field is a place for a number in a byte string. Adding to the numbers in fields that do not meet
changes each of them once, and adding the opposite restores the byte string.
-/

namespace Bytes

open List

structure Field where
  off : Nat
  width : Nat
deriving DecidableEq, Repr

namespace Field

/-- The field is inside the byte string. -/
def Inside (f : Field) (b : Bytes) : Prop :=
  f.off + f.width ≤ b.length

/-- The field has the byte at an offset. -/
def Covers (f : Field) (i : Nat) : Prop :=
  f.off ≤ i ∧ i < f.off + f.width

def Disjoint (f g : Field) : Prop :=
  f.off + f.width ≤ g.off ∨ g.off + g.width ≤ f.off

/-- The number in a field. -/
def value (b : Bytes) (f : Field) : Nat :=
  leNat (b.part f.off f.width)

/-- Add to a field, modulo its width. -/
def addTo (delta : Nat) (b : Bytes) (f : Field) : Bytes :=
  b.patch f.off (leBytes f.width (value b f + delta))

/-- Add to one field after the other. -/
def addAll (delta : Nat) : Bytes → List Field → Bytes :=
  List.foldl (addTo delta)

/-! ### One field -/

section One

variable {delta i : Nat} {b : Bytes} {f g : Field}

lemma Disjoint.symm (h : Disjoint f g) : Disjoint g f :=
  Or.symm h

lemma value_lt (h : f.Inside b) : value b f < 256 ^ f.width := by
  refine (leNat_lt _).trans_eq ?_
  rw [length_part h]

lemma length_addTo (h : f.Inside b) : (addTo delta b f).length = b.length :=
  length_patch (by rwa [length_leBytes])

lemma getElem?_addTo (h : f.Inside b) (hi : ¬ f.Covers i) : (addTo delta b f)[i]? = b[i]? := by
  have hlen := length_leBytes f.width (value b f + delta)
  have hin : f.off + (leBytes f.width (value b f + delta)).length ≤ b.length := by rwa [hlen]
  by_cases hlt : i < f.off
  · exact getElem?_patch_of_lt hin hlt
  · refine getElem?_patch_of_ge hin ?_
    unfold Covers at hi
    omega

lemma value_addTo_self (h : f.Inside b) :
    value (addTo delta b f) f = (value b f + delta) % 256 ^ f.width := by
  have hlen := length_leBytes f.width (value b f + delta)
  have hin : f.off + (leBytes f.width (value b f + delta)).length ≤ b.length := by rwa [hlen]
  have hpart := part_patch_self hin
  rw [hlen] at hpart
  rw [value, addTo, hpart, leNat_leBytes]

lemma value_addTo_of_disjoint (h : f.Inside b) (hd : Disjoint f g) :
    value (addTo delta b f) g = value b g := by
  have hlen := length_leBytes f.width (value b f + delta)
  unfold value
  rw [addTo, part_patch_of_disjoint (by rwa [hlen])]
  rw [hlen]
  exact hd.symm

end One

/-! ### Many fields -/

section Many

variable {delta delta' i : Nat} {b b' : Bytes} {f : Field} {fields fields' : List Field}

lemma addAll_cons : addAll delta b (f :: fields) = addAll delta (addTo delta b f) fields :=
  rfl

lemma addAll_append :
    addAll delta b (fields ++ fields') = addAll delta (addAll delta b fields) fields' :=
  foldl_append

lemma inside_congr (h : b.length = b'.length) : f.Inside b ↔ f.Inside b' := by
  rw [Inside, Inside, h]

lemma inside_of_cons (h : ∀ g ∈ f :: fields, g.Inside b) :
    ∀ g ∈ fields, g.Inside (addTo delta b f) := by
  intro g hg
  rw [inside_congr (length_addTo (h f mem_cons_self))]
  exact h g (mem_cons_of_mem f hg)

lemma length_addAll (h : ∀ g ∈ fields, g.Inside b) :
    (addAll delta b fields).length = b.length := by
  induction fields generalizing b with
  | nil => rfl
  | cons f fields ih =>
    rw [addAll_cons, ih (inside_of_cons h), length_addTo (h f mem_cons_self)]

lemma getElem?_addAll (h : ∀ g ∈ fields, g.Inside b) (hi : ∀ g ∈ fields, ¬ g.Covers i) :
    (addAll delta b fields)[i]? = b[i]? := by
  induction fields generalizing b with
  | nil => rfl
  | cons f fields ih =>
    rw [addAll_cons, ih (inside_of_cons h) fun g hg => hi g (mem_cons_of_mem f hg)]
    exact getElem?_addTo (h f mem_cons_self) (hi f mem_cons_self)

lemma value_addAll_of_disjoint (h : ∀ g ∈ fields, g.Inside b)
    (hd : ∀ g ∈ fields, Disjoint g f) : value (addAll delta b fields) f = value b f := by
  induction fields generalizing b with
  | nil => rfl
  | cons g fields ih =>
    rw [addAll_cons, ih (inside_of_cons h) fun g' hg' => hd g' (mem_cons_of_mem g hg')]
    exact value_addTo_of_disjoint (h g mem_cons_self) (hd g mem_cons_self)

lemma value_addAll (h : ∀ g ∈ fields, g.Inside b) (hd : fields.Pairwise Disjoint)
    (hf : f ∈ fields) : value (addAll delta b fields) f = (value b f + delta) % 256 ^ f.width := by
  induction fields generalizing b with
  | nil => exact absurd hf not_mem_nil
  | cons g fields ih =>
    obtain ⟨hg, hrest⟩ := pairwise_cons.mp hd
    have hin := h g mem_cons_self
    rw [addAll_cons]
    rcases mem_cons.mp hf with rfl | hf
    · rw [value_addAll_of_disjoint (inside_of_cons h) fun g' hg' => (hg g' hg').symm,
        value_addTo_self hin]
    · rw [ih (inside_of_cons h) hrest hf, value_addTo_of_disjoint hin (hg f hf)]

lemma part_eq_of_value_eq (h : f.Inside b) (h' : f.Inside b') (hv : value b f = value b' f) :
    b.part f.off f.width = b'.part f.off f.width := by
  rw [← leBytes_leNat (b.part f.off f.width), ← leBytes_leNat (b'.part f.off f.width),
    length_part h, length_part h']
  exact congrArg _ hv

lemma eq_of_values (hlen : b.length = b'.length) (h : ∀ f ∈ fields, f.Inside b)
    (hout : ∀ i, (∀ f ∈ fields, ¬ f.Covers i) → b[i]? = b'[i]?)
    (hv : ∀ f ∈ fields, value b f = value b' f) : b = b' := by
  refine ext_getElem? fun i => ?_
  by_cases hi : ∃ f ∈ fields, f.Covers i
  · obtain ⟨f, hf, hlo, hhi⟩ := hi
    have hpart := part_eq_of_value_eq (h f hf) ((inside_congr hlen).mp (h f hf)) (hv f hf)
    have hbyte := congrArg (·[i - f.off]?) hpart
    simpa only [getElem?_part (show i - f.off < f.width by omega), Nat.add_sub_cancel' hlo]
      using hbyte
  · exact hout i fun f hf hc => hi ⟨f, hf, hc⟩

lemma addAll_addAll (h : ∀ g ∈ fields, g.Inside b) (hd : fields.Pairwise Disjoint)
    (hdelta : ∀ g ∈ fields, (delta + delta') % 256 ^ g.width = 0) :
    addAll delta' (addAll delta b fields) fields = b := by
  have h' : ∀ g ∈ fields, g.Inside (addAll delta b fields) := fun g hg =>
    (inside_congr (length_addAll h)).mpr (h g hg)
  have hlen : (addAll delta' (addAll delta b fields) fields).length = b.length := by
    rw [length_addAll h', length_addAll h]
  refine eq_of_values hlen (fun g hg => (inside_congr hlen).mpr (h g hg)) ?_ ?_
  · intro i hi
    rw [getElem?_addAll h' hi, getElem?_addAll h hi]
  · intro f hf
    rw [value_addAll h' hd hf, value_addAll h hd hf, Nat.mod_add_mod, Nat.add_assoc,
      Nat.add_mod, hdelta f hf, Nat.add_zero, Nat.mod_mod, Nat.mod_eq_of_lt (value_lt (h f hf))]

end Many

end Field

end Bytes
