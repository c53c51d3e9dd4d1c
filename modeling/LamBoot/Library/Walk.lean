import LamBoot.Library.Checked

/-!
# Records that state their own size

A byte string that holds records one behind the other, each of which states its size in its header,
and the loop that goes from one to the next by that size.
-/

open Bytes Checked

/-- How the records of a byte string are told apart. -/
structure Format where
  /-- The number of bytes of a header. -/
  head : Nat
  head_pos : 0 < head
  /-- The size that the header at the start of the bytes states for the whole record. -/
  size : Bytes → Nat

namespace Format

open List

variable {ε σ : Type} (F : Format)

/-- The records of a byte string, up to the first one that is smaller than its header or not all
there. -/
def records (b : Bytes) : List Bytes :=
  if _h : F.head ≤ F.size b ∧ F.head ≤ b.length ∧ F.size b ≤ b.length then
    b.take (F.size b) :: records (b.drop (F.size b))
  else []
termination_by b.length
decreasing_by
  have := F.head_pos
  rw [length_drop]
  omega

/-- The loop over the records from `offset` on, where `stop` bytes are there. Running out of fuel is
a trap. -/
def walk (stop : Nat) (sizeAt : Nat → Checked ε Nat) (body : σ → Nat → Nat → Checked ε σ) :
    Nat → Nat → σ → Checked ε σ
  | 0, _, _ => .error .trap
  | fuel + 1, offset, s =>
    if offset + F.head ≤ stop then do
      let size ← sizeAt offset
      if size < F.head ∨ stop < offset + size then pure s
      else do
        let s ← body s offset size
        walk stop sizeAt body fuel (offset + size) s
    else pure s

/-- A record that is read back whatever comes behind it. -/
structure Proper (r : Bytes) : Prop where
  head_le : F.head ≤ r.length
  size_eq : ∀ b, F.size (r ++ b) = r.length

variable {F} {b r : Bytes}

lemma records_of_lt (h : b.length < F.head) : F.records b = [] := by
  rw [records, dif_neg]
  omega

lemma records_append (hr : F.Proper r) : F.records (r ++ b) = r :: F.records b := by
  have hhead := hr.head_le
  have hsize := hr.size_eq b
  rw [records, dif_pos ⟨by omega, by rw [length_append]; omega,
    by rw [length_append]; omega⟩, hsize, take_left, drop_left]

lemma records_flatten {rs : List Bytes} (h : ∀ r ∈ rs, F.Proper r) :
    F.records rs.flatten = rs := by
  induction rs with
  | nil => exact records_of_lt F.head_pos
  | cons r rs ih =>
    rw [flatten_cons, records_append (h r mem_cons_self),
      ih fun r' hr' => h r' (mem_cons_of_mem r hr')]

lemma records_flatMap {α : Type} {f : α → Bytes} {l : List α} (h : ∀ a, F.Proper (f a)) :
    F.records (l.flatMap f) = l.map f := by
  rw [flatMap_def]
  refine records_flatten fun r hr => ?_
  obtain ⟨a, -, rfl⟩ := mem_map.mp hr
  exact h a

lemma walk_eq_foldl {sizeAt : Nat → Checked ε Nat} {body : σ → Nat → Nat → Checked ε σ}
    {f : σ → Bytes → σ} {fuel offset : Nat} {s : σ}
    (hsize : ∀ i, i + F.head ≤ b.length → sizeAt i = .ok (F.size (b.drop i)))
    (hbody : ∀ s i n, F.head ≤ n → i + n ≤ b.length → body s i n = .ok (f s (b.part i n)))
    (hfuel : b.length - offset < fuel) :
    F.walk b.length sizeAt body fuel offset s = .ok ((F.records (b.drop offset)).foldl f s) := by
  induction fuel generalizing offset s with
  | zero => exact absurd hfuel (Nat.not_lt_zero _)
  | succ fuel ih =>
    have hpos := F.head_pos
    by_cases hhead : offset + F.head ≤ b.length
    · rw [walk, if_pos hhead, hsize offset hhead, ok_bind]
      by_cases hend : F.size (b.drop offset) < F.head ∨ b.length < offset + F.size (b.drop offset)
      · rw [if_pos hend, records, dif_neg (by rw [length_drop]; omega)]
        rfl
      · have hrecords := records.eq_def F (b.drop offset)
        rw [dif_pos (by rw [length_drop]; omega), drop_drop] at hrecords
        rw [if_neg hend, hbody s offset _ (by omega) (by omega), ok_bind, ih (by omega), hrecords]
        rfl
    · rw [walk, if_neg hhead, records_of_lt (by rw [length_drop]; omega)]
      rfl

end Format
