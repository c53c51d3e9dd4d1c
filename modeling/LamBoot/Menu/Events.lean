import LamBoot.Boot.Types

/-!
# Events of the menus

What the graphical and the text menu have in common: the events of `input.rs`, what a turn of a
menu's loop can lead to, and the runs of such a loop. Both menus hold one list of entries, some of
which are tools.
-/

namespace LamBoot.Menu

open List

inductive Key where
  | up
  | down
  | left
  | right
  | enter
  | escape
  | f1
  | f2
  | f12
  | char (c : Char)
  | backspace
  | tab
deriving DecidableEq, Repr

inductive MouseButton where
  | left
  | right
deriving DecidableEq, Repr

inductive InputEvent where
  | keyPress (key : Key)
  | mouseMove (x y : Int)
  | mouseClick (x y : Int) (button : MouseButton)
  | none
deriving DecidableEq, Repr

/-! ### Entries -/

section Entries

variable (entries : List BootEntry)

def bootIndices : List (Fin entries.length) :=
  (finRange entries.length).filter fun i => (entries.get i).icon != .tools

def toolIndices : List (Fin entries.length) :=
  (finRange entries.length).filter fun i => (entries.get i).icon == .tools

variable {entries}

lemma mem_bootIndices {i : Fin entries.length} :
    i ∈ bootIndices entries ↔ (entries.get i).icon ≠ .tools := by
  simp [bootIndices]

lemma bootIndices_ne_nil_iff :
    bootIndices entries ≠ [] ↔ ∃ entry ∈ entries, entry.icon ≠ .tools := by
  constructor
  · intro h
    obtain ⟨i, hi⟩ := exists_mem_of_ne_nil _ h
    exact ⟨entries.get i, getElem_mem i.isLt, mem_bootIndices.mp hi⟩
  · rintro ⟨entry, hentry, hicon⟩
    obtain ⟨i, hi, rfl⟩ := getElem_of_mem hentry
    exact ne_nil_of_mem (mem_bootIndices (i := ⟨i, hi⟩).mpr hicon)

end Entries

/-! ### Runs -/

/-- What a turn of a menu's loop leads to: the next turn, the start of an entry, or one of the
actions that end the program. -/
inductive Outcome (σ : Type) (n : Nat) where
  | stay (s : σ)
  | boot (i : Fin n)
  | firmwareSetup
  | reboot

section Run

variable {σ : Type} {n : Nat} (turn : σ → InputEvent → Outcome σ n)

def run : σ → List InputEvent → Outcome σ n
  | s, [] => .stay s
  | s, e :: events =>
    match turn s e with
    | .stay s' => run s' events
    | .boot i => .boot i
    | .firmwareSetup => .firmwareSetup
    | .reboot => .reboot

/-- Without any input, the menu starts the entry in the end. -/
def AutoBoots (s : σ) (i : Fin n) : Prop :=
  ∃ turns, run turn s (replicate turns .none) = .boot i

variable {turn}

lemma run_cons_of_stay {s s' : σ} {e : InputEvent} (h : turn s e = .stay s')
    (events : List InputEvent) : run turn s (e :: events) = run turn s' events := by
  rw [run, h]

lemma run_cons_of_boot {s : σ} {e : InputEvent} {i : Fin n} (h : turn s e = .boot i)
    (events : List InputEvent) : run turn s (e :: events) = .boot i := by
  rw [run, h]

lemma run_append_of_boot {s : σ} {events : List InputEvent} {i : Fin n}
    (h : run turn s events = .boot i) (rest : List InputEvent) :
    run turn s (events ++ rest) = .boot i := by
  induction events generalizing s with
  | nil => cases h
  | cons e events ih =>
    rw [cons_append]
    cases hturn : turn s e with
    | stay s' =>
      rw [run_cons_of_stay hturn] at h ⊢
      exact ih h
    | boot j =>
      rw [run_cons_of_boot hturn] at h ⊢
      exact h
    | firmwareSetup => simp [run, hturn] at h
    | reboot => simp [run, hturn] at h

lemma AutoBoots.unique {s : σ} {i j : Fin n} (hi : AutoBoots turn s i) (hj : AutoBoots turn s j) :
    i = j := by
  obtain ⟨a, hi⟩ := hi
  obtain ⟨b, hj⟩ := hj
  have hi' := run_append_of_boot hi (replicate b .none)
  have hj' := run_append_of_boot hj (replicate a .none)
  rw [replicate_append_replicate] at hi' hj'
  rw [Nat.add_comm a b, hj'] at hi'
  exact (Outcome.boot.inj hi').symm

end Run

end LamBoot.Menu
