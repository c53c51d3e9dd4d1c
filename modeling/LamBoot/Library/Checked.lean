import LamBoot.Library.LittleEndian

/-!
# Computations that may trap

Arithmetic of 64-bit numbers and access to byte strings as a compiled program has them. An operation
that leaves its range is a trap, which is not one of the errors that a program reports. A
computation is `Safe` when it never traps.
-/

/-- Why a computation does not give a value. -/
inductive Fault (ε : Type) where
  | trap
  | failed (e : ε)
deriving DecidableEq, Repr

abbrev Checked (ε : Type) := Except (Fault ε)

namespace Checked

open List Except

variable {ε α β : Type}

lemma ok_bind {σ : Type} (a : α) (f : α → Except σ β) : ((.ok a : Except σ α) >>= f) = f a :=
  rfl

def refuse (e : ε) : Checked ε α :=
  .error (.failed e)

def refuseIf (c : Prop) [Decidable c] (e : ε) : Checked ε Unit :=
  if c then refuse e else pure ()

def wordSize : Nat := 2 ^ 64

def add (m n : Nat) : Checked ε Nat :=
  if m + n < wordSize then .ok (m + n) else .error .trap

def mul (m n : Nat) : Checked ε Nat :=
  if m * n < wordSize then .ok (m * n) else .error .trap

def saturatingAdd (m n : Nat) : Nat :=
  min (m + n) (wordSize - 1)

def saturatingMul (m n : Nat) : Nat :=
  min (m * n) (wordSize - 1)

def slice (b : Bytes) (start stop : Nat) : Checked ε Bytes :=
  if start ≤ stop ∧ stop ≤ b.length then .ok (b.part start (stop - start)) else .error .trap

def index (b : Bytes) (i : Nat) : Checked ε UInt8 :=
  if i < b.length then .ok (b.getD i 0) else .error .trap

/-- The little-endian number of `width` bytes at a position, which must be in range. -/
def readLe (width : Nat) (b : Bytes) (start : Nat) : Checked ε Nat := do
  return Bytes.leNat (← slice b start (start + width))

def get? (b : Bytes) (start stop : Nat) : Option Bytes :=
  if start ≤ stop ∧ stop ≤ b.length then some (b.part start (stop - start)) else none

/-! ### Safety -/

/-- The computation does not trap. If it gives a value, that satisfies `post`. -/
def Safe (x : Checked ε α) (post : α → Prop) : Prop :=
  x ≠ .error .trap ∧ ∀ a, x = .ok a → post a

section Rules

variable {x : Checked ε α} {f : α → Checked ε β} {post post' : α → Prop}

lemma safe_pure {a : α} (h : post a) : Safe (pure a : Checked ε α) post :=
  ⟨nofun, fun _ hb => ok.inj hb ▸ h⟩

lemma safe_refuse {e : ε} : Safe (refuse e : Checked ε α) post :=
  ⟨nofun, nofun⟩

lemma Safe.imp (h : Safe x post) (hpost : ∀ a, post a → post' a) : Safe x post' :=
  ⟨h.1, fun a ha => hpost a (h.2 a ha)⟩

lemma Safe.bind {post : β → Prop} {mid : α → Prop} (hx : Safe x mid)
    (hf : ∀ a, mid a → Safe (f a) post) : Safe (x >>= f) post := by
  cases x with
  | ok a => exact hf a (hx.2 a rfl)
  | error e =>
    have hne : e ≠ .trap := fun he => hx.1 (congrArg error he)
    exact ⟨fun h => hne (error.inj h), nofun⟩

lemma safe_refuseIf {c : Prop} [Decidable c] {e : ε} : Safe (refuseIf c e) fun _ => ¬ c := by
  unfold refuseIf
  split_ifs with h
  · exact safe_refuse
  · exact safe_pure h

/-! The rules for a step that is followed by others. -/

lemma Safe.refuseIf {c : Prop} [Decidable c] {e : ε} {g : Unit → Checked ε α}
    (h : ¬ c → Safe (g ()) post) : Safe (Checked.refuseIf c e >>= g) post :=
  safe_refuseIf.bind fun _ => h

variable {m n : Nat} {g : Nat → Checked ε α} {b : Bytes} {k : Bytes → Checked ε α}

lemma safe_add (h : m + n < wordSize) : Safe (add m n : Checked ε Nat) (· = m + n) := by
  rw [add, if_pos h]
  exact safe_pure rfl

lemma Safe.add (h : m + n < wordSize) (hg : Safe (g (m + n)) post) :
    Safe (Checked.add m n >>= g) post :=
  (safe_add h).bind fun _ ha => ha ▸ hg

lemma Safe.mul (h : m * n < wordSize) (hg : Safe (g (m * n)) post) :
    Safe (Checked.mul m n >>= g) post := by
  rw [Checked.mul, if_pos h]
  exact hg

lemma Safe.slice {start stop : Nat} (h : start ≤ stop) (hb : stop ≤ b.length)
    (hk : Safe (k (b.part start (stop - start))) post) :
    Safe (Checked.slice b start stop >>= k) post := by
  rw [Checked.slice, if_pos ⟨h, hb⟩]
  exact hk

lemma safe_forM {f : α → Checked ε PUnit} {l : List α} (h : ∀ a ∈ l, Safe (f a) fun _ => post a) :
    Safe (l.forM f) fun _ => ∀ a ∈ l, post a := by
  induction l with
  | nil => exact safe_pure nofun
  | cons a l ih =>
    refine Safe.bind (h a mem_cons_self) fun _ ha => ?_
    refine (ih fun b hb => h b (mem_cons_of_mem a hb)).imp fun _ hl => ?_
    exact forall_mem_cons.mpr ⟨ha, hl⟩

lemma safe_foldlM {f : β → α → Checked ε β} {l : List α} {inv : β → Prop} {b : β} (hb : inv b)
    (h : ∀ b, inv b → ∀ a ∈ l, Safe (f b a) inv) : Safe (l.foldlM f b) inv := by
  induction l generalizing b with
  | nil => exact safe_pure hb
  | cons a l ih =>
    rw [foldlM_cons]
    refine Safe.bind (h b hb a mem_cons_self) fun b' hb' => ?_
    exact ih hb' fun c hc a' ha' => h c hc a' (mem_cons_of_mem a ha')

end Rules

/-! ### Traps -/

section Traps

variable {x : Checked ε α} {f : α → Checked ε β}

/-- The computation leaves the range of an operation. -/
def Traps (x : Checked ε α) : Prop :=
  x = .error .trap

lemma Safe.not_traps {post : α → Prop} (h : Safe x post) : ¬ Traps x :=
  h.1

lemma not_traps_pure {a : α} : ¬ Traps (pure a : Checked ε α) :=
  nofun

lemma add_eq_ok {m n : Nat} (h : m + n < wordSize) : (add m n : Checked ε Nat) = .ok (m + n) :=
  if_pos h

variable {b : Bytes}

lemma slice_eq_ok {start len : Nat} (h : start + len ≤ b.length) :
    (slice b start (start + len) : Checked ε Bytes) = .ok (b.part start len) := by
  rw [slice, if_pos ⟨by omega, h⟩, Nat.add_sub_cancel_left]

lemma slice_to_eq_ok {stop : Nat} (h : stop ≤ b.length) :
    (slice b 0 stop : Checked ε Bytes) = .ok (b.part 0 stop) :=
  if_pos ⟨stop.zero_le, h⟩

lemma slice_from_eq_ok {start : Nat} (h : start ≤ b.length) :
    (slice b start b.length : Checked ε Bytes) = .ok (b.drop start) := by
  rw [slice, if_pos ⟨h, le_rfl⟩, Bytes.part, take_of_length_le (by rw [length_drop])]

lemma index_eq_ok {i : Nat} (h : i < b.length) :
    (index b i : Checked ε UInt8) = .ok (b.getD i 0) :=
  if_pos h

lemma readLe_eq_ok {width : Nat} {start : Nat} (h : start + width ≤ b.length) :
    (readLe width b start : Checked ε Nat) = .ok (Bytes.leNat (b.part start width)) := by
  rw [readLe, slice_eq_ok h]
  rfl

lemma not_traps_refuseIf {c : Prop} [Decidable c] {e : ε} : ¬ Traps (refuseIf c e) :=
  safe_refuseIf.not_traps

lemma traps_bind_iff : Traps (x >>= f) ↔ Traps x ∨ ∃ a, x = .ok a ∧ Traps (f a) := by
  cases x with
  | ok a =>
    have hbind : (ok a >>= f) = f a := rfl
    simp [Traps, hbind]
  | error e =>
    have hbind : ((error e : Checked ε α) >>= f) = .error e := rfl
    simp [Traps, hbind]

lemma traps_bind_pure_iff {g : α → β} :
    Traps (x >>= fun a => (pure (g a) : Checked ε β)) ↔ Traps x := by
  rw [traps_bind_iff]
  refine or_iff_left ?_
  rintro ⟨a, -, h⟩
  exact not_traps_pure h

lemma traps_refuseIf_bind_iff {c : Prop} [Decidable c] {e : ε} {g : Unit → Checked ε β} :
    Traps (refuseIf c e >>= g) ↔ ¬ c ∧ Traps (g ()) := by
  by_cases h : c
  · rw [refuseIf, if_pos h]
    exact ⟨nofun, fun h' => absurd h h'.1⟩
  · rw [refuseIf, if_neg h]
    exact ⟨fun h' => ⟨h, h'⟩, fun h' => h'.2⟩

lemma traps_slice_iff {start stop : Nat} :
    Traps (slice b start stop : Checked ε Bytes) ↔ ¬ (start ≤ stop ∧ stop ≤ b.length) := by
  unfold slice
  split_ifs with h
  · exact ⟨nofun, fun h' => absurd h h'⟩
  · exact ⟨fun _ => h, fun _ => rfl⟩

lemma traps_foldlM_iff {f : β → α → Checked ε β} {p : α → Prop} {l : List α} {b : β}
    (htraps : ∀ b a, p a → Traps (f b a)) (hok : ∀ b a, ¬ p a → ∃ b', f b a = .ok b') :
    Traps (l.foldlM f b) ↔ ∃ a ∈ l, p a := by
  induction l generalizing b with
  | nil => exact ⟨nofun, nofun⟩
  | cons a l ih =>
    rw [foldlM_cons, traps_bind_iff, exists_mem_cons_iff]
    by_cases ha : p a
    · exact ⟨fun _ => .inl ha, fun _ => .inl (htraps b a ha)⟩
    · obtain ⟨b', hb'⟩ := hok b a ha
      have hx : ¬ Traps (f b a) := by
        rw [hb']
        exact nofun
      constructor
      · rintro (h | ⟨b'', hb'', h⟩)
        · exact absurd h hx
        · exact .inr (ih.mp h)
      · rintro (h | h)
        · exact absurd h ha
        · exact .inr ⟨b', hb', ih.mpr h⟩

end Traps

end Checked
