import LamBoot.Library.Bytes

/-!
# Little-endian numbers

Numbers of a fixed number of bytes, the least significant first, and the part of a byte string that
holds one.
-/

namespace Bytes

open List

def leNat (b : Bytes) : Nat :=
  Nat.ofDigits 256 (b.map UInt8.toNat)

def leBytes : Nat → Nat → Bytes
  | 0, _ => []
  | width + 1, n => UInt8.ofNat n :: leBytes width (n / 256)

lemma leNat_cons (a : UInt8) (b : Bytes) : leNat (a :: b) = a.toNat + 256 * leNat b := by
  simp [leNat, Nat.ofDigits_cons]

lemma leNat_lt (b : Bytes) : leNat b < 256 ^ b.length := by
  have h : ∀ digit ∈ b.map UInt8.toNat, digit < 256 := by
    intro digit hd
    obtain ⟨a, -, rfl⟩ := mem_map.mp hd
    exact a.toNat_lt
  simpa [leNat] using Nat.ofDigits_lt_base_pow_length (by norm_num) h

@[simp] lemma length_leBytes (width n : Nat) : (leBytes width n).length = width := by
  induction width generalizing n with
  | zero => rfl
  | succ width ih => simp [leBytes, ih]

lemma leNat_leBytes (width n : Nat) : leNat (leBytes width n) = n % 256 ^ width := by
  induction width generalizing n with
  | zero => simp [leBytes, leNat, Nat.mod_one]
  | succ width ih =>
    rw [leBytes, leNat_cons, ih, UInt8.toNat_ofNat', pow_succ' 256 width, Nat.mod_mul]

lemma leBytes_leNat (b : Bytes) : leBytes b.length (leNat b) = b := by
  induction b with
  | nil => rfl
  | cons a b ih =>
    have ha : a.toNat < 256 := a.toNat_lt
    have hbyte : UInt8.ofNat (a.toNat + 256 * leNat b) = a := by
      rw [← UInt8.toNat_inj, UInt8.toNat_ofNat']
      omega
    have hrest : (a.toNat + 256 * leNat b) / 256 = leNat b := by omega
    rw [length_cons, leBytes, leNat_cons, hbyte, hrest, ih]

lemma leBytes_mod (width n : Nat) : leBytes width (n % 256 ^ width) = leBytes width n := by
  have h := leBytes_leNat (leBytes width n)
  rwa [length_leBytes, leNat_leBytes] at h

/-! ### Parts of a byte string -/

/-- The bytes from `start` on, `len` of them. -/
def part (b : Bytes) (start len : Nat) : Bytes :=
  (b.drop start).take len

/-- The bytes with `new` put over those from `start` on. -/
def patch (b : Bytes) (start : Nat) (new : Bytes) : Bytes :=
  b.take start ++ new ++ b.drop (start + new.length)

variable {b : Bytes} {start len : Nat}

lemma length_part (h : start + len ≤ b.length) : (part b start len).length = len := by
  rw [part, length_take, length_drop]
  omega

variable {i : Nat}

lemma getElem?_part (hi : i < len) : (part b start len)[i]? = b[start + i]? := by
  rw [part, getElem?_take_of_lt hi, getElem?_drop]

lemma getD_part (hi : i < len) : (part b start len).getD i 0 = b.getD (start + i) 0 := by
  rw [getD_eq_getElem?_getD, getElem?_part hi, getD_eq_getElem?_getD]

lemma part_zero (b : Bytes) (len : Nat) : part b 0 len = b.take len :=
  rfl

lemma part_drop (b : Bytes) (k start len : Nat) :
    part (b.drop k) start len = part b (k + start) len := by
  rw [part, part, drop_drop]

lemma part_add (b : Bytes) (start m n : Nat) :
    part b start (m + n) = part b start m ++ part b (start + m) n := by
  simp only [part, take_add, drop_drop]

lemma part_part {m n : Nat} (h : m + n ≤ len) :
    part (part b start len) m n = part b (start + m) n := by
  simp only [part, drop_take, drop_drop, take_take]
  congr 1
  omega

lemma part_prefix_part {m n : Nat} (h : m ≤ n) : part b start m <+: part b start n :=
  take_prefix_take_left h

lemma eq_part_of_prefix {s : Bytes} (h : s <+: part b start len) : s = part b start s.length := by
  have hlen := h.length_le
  rw [prefix_iff_eq_take.mp h, part, part, take_take, length_take]
  congr 1
  simp only [part, length_take] at hlen ⊢
  omega

variable {new : Bytes}

lemma length_patch (h : start + new.length ≤ b.length) :
    (patch b start new).length = b.length := by
  simp only [patch, length_append, length_take, length_drop]
  omega

lemma getElem?_patch_of_lt (h : start + new.length ≤ b.length)
    (hi : i < start) : (patch b start new)[i]? = b[i]? := by
  rw [patch, append_assoc, getElem?_append_left (by rw [length_take]; omega),
    getElem?_take_of_lt hi]

lemma getElem?_patch_of_ge (h : start + new.length ≤ b.length)
    (hi : start + new.length ≤ i) : (patch b start new)[i]? = b[i]? := by
  have hlen : (b.take start ++ new).length = start + new.length := by
    simp only [length_append, length_take]
    omega
  rw [patch, getElem?_append_right (by omega), hlen, getElem?_drop]
  congr 1
  omega

lemma getElem?_patch_of_mem (h : start ≤ b.length) (hi : start ≤ i)
    (hlt : i < start + new.length) : (patch b start new)[i]? = new[i - start]? := by
  have hlen : (b.take start).length = start := length_take_of_le h
  rw [patch, append_assoc, getElem?_append_right (by omega), hlen,
    getElem?_append_left (by omega)]

lemma part_patch_self (h : start + new.length ≤ b.length) :
    part (patch b start new) start new.length = new := by
  have hlen : (b.take start).length = start := by
    rw [length_take]
    omega
  rw [part, patch, append_assoc, drop_append_of_le_length (by omega),
    drop_eq_nil_of_le (by omega), nil_append, take_left]

lemma part_patch_of_disjoint {start' : Nat} (h : start' + new.length ≤ b.length)
    (hdisjoint : start + len ≤ start' ∨ start' + new.length ≤ start) :
    part (patch b start' new) start len = part b start len := by
  refine ext_getElem? fun i => ?_
  by_cases hi : i < len
  · rw [getElem?_part hi, getElem?_part hi]
    rcases hdisjoint with hd | hd
    · exact getElem?_patch_of_lt h (by omega)
    · exact getElem?_patch_of_ge h (by omega)
  · rw [part, part, getElem?_eq_none (by rw [length_take]; omega),
      getElem?_eq_none (by rw [length_take]; omega)]

end Bytes
