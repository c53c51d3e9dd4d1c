import Mathlib.Data.List.AList
import LamBoot.Tools.Shell

/-!
# The boot order, from installation to removal

How `lamboot-install` edits the firmware's boot order: the first install records the order,
LamBoot's entry is created and put first or last, and a removal deletes it and sets the order that
was recorded.
-/

namespace LamBoot.BootOrder

open List Option

/-- The firmware's boot entries: for each number what `efibootmgr` prints after it. -/
abbrev BootVars := AList fun _ : UInt16 => Text

/-- The boot entries and their order, which is empty also when there is no such variable. -/
structure Nvram where
  vars : BootVars
  order : List UInt16

/-- The description is the label of LamBoot: blanks and a tab with the path can follow it. -/
def isLambootLine (line : Text) : Bool :=
  match line.dropPrefix? "LamBoot" with
  | some rest =>
    match rest.dropWhile (· == ' ') with
    | [] => true
    | c :: _ => c == '\t'
  | none => false

/-- What `efibootmgr --create` does: it takes a number that is free, if there is one. -/
structure Efibootmgr where
  free : BootVars → Option UInt16
  free_notMem : ∀ vars n, free vars = some n → n ∉ vars
  /-- How it then prints the new entry. -/
  line : Text
  line_lamboot : isLambootLine line = true

namespace Nvram

variable (s : Nvram)

def findLambootEntry : Option UInt16 :=
  (s.vars.entries.find? fun e => isLambootLine e.2).map Sigma.fst

/-- An entry that is not LamBoot's. -/
def IsOther (n : UInt16) : Prop :=
  ∃ line ∈ s.vars.lookup n, isLambootLine line = false

/-- `efibootmgr --create`, which puts the new number first. -/
def create (fw : Efibootmgr) : Option Nvram :=
  (fw.free s.vars).map fun n => ⟨s.vars.insert n fw.line, n :: s.order⟩

/-- `efibootmgr -B`. -/
def delete (n : UInt16) : Nvram :=
  ⟨s.vars.erase n, s.order.filter (· ≠ n)⟩

/-- `efibootmgr --bootorder`. -/
def setOrder (order : List UInt16) : Nvram :=
  { s with order }

end Nvram

/-- The firmware's variables, and the order that was recorded on the EFI partition. -/
structure State where
  nvram : Nvram
  marker : Option (List UInt16)

/-! ### Installing -/

/-- The options of an install or an update, and what it has found. -/
structure Install where
  /-- Neither `--no-efi-entry` nor a chroot, and the loader is in place. -/
  reachesNvram : Bool
  setDefault : Bool
  dryRun : Bool
  force : Bool
  /-- There is an entry file, a unified kernel image or a kernel. -/
  bootable : Bool

namespace Install

variable (fw : Efibootmgr) (i : Install)

def cleanedOrder (s : Nvram) : List UInt16 :=
  match s.findLambootEntry with
  | some n => s.order.foldl (fun cleaned e => if e = n then cleaned else cleaned ++ [e]) []
  | none => s.order

def capturePriorBootorder (s : State) : Option (List UInt16) :=
  match s.marker with
  | some prior => some prior
  | none => if cleanedOrder s.nvram ≠ [] ∧ ¬ i.dryRun then some (cleanedOrder s.nvram) else none

def newOrder (bootnum : UInt16) (order : List UInt16) : List UInt16 :=
  order.foldl (fun new e => if e ≠ bootnum then new ++ [e] else new) [bootnum]

/-- Whether `set_default_entry` sets an order: it refuses where LamBoot would show an empty
menu. -/
def Sets : Prop :=
  (i.bootable = true ∨ i.force = true) ∧ i.dryRun = false
deriving Decidable

def setDefaultEntry (s : Nvram) (bootnum : UInt16) : Nvram :=
  if i.Sets then s.setOrder (newOrder bootnum s.order) else s

def placeLast (previous : List UInt16) (created : Nvram) (n : UInt16) : Nvram :=
  if ¬ i.setDefault ∧ previous ≠ [] then created.setOrder (previous ++ [n]) else created

/-- The boot entries after `create_efi_entry`. -/
def withEntry (s : Nvram) : Nvram :=
  match s.findLambootEntry with
  | some n => if i.setDefault then i.setDefaultEntry s n else s
  | none =>
    if i.dryRun then s
    else
      match s.create fw with
      | none => s
      | some created =>
        match created.findLambootEntry with
        | none => created
        | some n =>
          let placed := i.placeLast s.order created n
          if i.setDefault then i.setDefaultEntry placed n else placed

def createEfiEntry (s : State) : State :=
  ⟨i.withEntry fw s.nvram, i.capturePriorBootorder s⟩

def phase6EfiBootEntry (s : State) : State :=
  if i.reachesNvram then i.createEfiEntry fw s else s

end Install

/-! ### Removing -/

structure Removal where
  /-- Neither `--no-efi-entry` nor a chroot, and there is a manifest or `--force`. -/
  reachesNvram : Bool
  /-- `/sys/firmware/efi/efivars` is a directory. -/
  efivars : Bool
  dryRun : Bool

namespace Removal

variable (r : Removal)

def Acts : Prop :=
  r.reachesNvram = true ∧ r.efivars = true ∧ r.dryRun = false
deriving Decidable

def removeEntry (s : Nvram) : Nvram :=
  match s.findLambootEntry with
  | some n => if r.reachesNvram ∧ ¬ r.dryRun then s.delete n else s
  | none => s

def restoreOrder (s : Nvram) (marker : Option (List UInt16)) : Nvram :=
  match marker with
  | some prior => if r.Acts ∧ prior ≠ [] then s.setOrder prior else s
  | none => s

/-- `do_remove`, as far as the firmware's variables go. -/
def doRemove (s : State) : State :=
  ⟨r.restoreOrder (r.removeEntry s.nvram) s.marker, if r.dryRun then s.marker else none⟩

end Removal

/-! ### Runs -/

/-- What happens between the first install and the removal. -/
inductive Step where
  | install (i : Install)
  /-- Other software changes the entries and their order. -/
  | outside (nvram : Nvram)

def Step.apply (fw : Efibootmgr) (s : State) : Step → State
  | .install i => i.phase6EfiBootEntry fw s
  | .outside nvram => { s with nvram }

def run (fw : Efibootmgr) (steps : List Step) (s : State) : State :=
  steps.foldl (Step.apply fw) s

/-- A firmware that LamBoot has not been installed on. -/
structure Untouched extends Nvram where
  no_lamboot : toNvram.findLambootEntry = none

/-- The laws of the boot order, from the state before the first install to a removal. -/
structure Laws (fw : Efibootmgr) (before : Untouched) (steps : List Step) (r : Removal) : Prop where
  /-- Setting the default puts LamBoot first and keeps the others in their order. -/
  setDefault : ∀ (i : Install) (s : Nvram) (n : UInt16), i.Sets →
    (i.setDefaultEntry s n).order = n :: s.order.filter (· ≠ n)
  /-- A removal loses no entry of other software from the order. -/
  keepsOthers : let s := run fw steps ⟨before.toNvram, none⟩
    ∀ n ∈ s.nvram.order, s.nvram.IsOther n → n ∈ (r.doRemove s).nvram.vars →
      n ∈ (r.doRemove s).nvram.order
  /-- A removal restores the order if nothing else has changed it. -/
  restores : (∀ step ∈ steps, ∃ i, step = .install i) → r.Acts →
    (r.doRemove (run fw steps ⟨before.toNvram, none⟩)).nvram.order = before.order

/-- Every entry of other software in the order before the removal is in the order that was
recorded. -/
def RecordedAll (s : State) : Prop :=
  ∀ prior ∈ s.marker, ∀ n ∈ s.nvram.order, s.nvram.IsOther n → n ∈ prior

/-! ### Single operations -/

section Operations

variable {fw : Efibootmgr} {i : Install} {s created : Nvram} {n m : UInt16}

lemma foldl_collect (p : UInt16 → Prop) [DecidablePred p] (order acc : List UInt16) :
    order.foldl (fun acc e => if p e then acc ++ [e] else acc) acc = acc ++ order.filter p := by
  induction order generalizing acc with
  | nil => simp
  | cons e order ih =>
    rw [foldl_cons, ih]
    by_cases h : p e <;> simp [h]

lemma newOrder_eq (n : UInt16) (order : List UInt16) :
    Install.newOrder n order = n :: order.filter (· ≠ n) :=
  foldl_collect (· ≠ n) order [n]

lemma cleanedOrder_of_find (h : s.findLambootEntry = some n) :
    Install.cleanedOrder s = s.order.filter (· ≠ n) := by
  have hclean := foldl_collect (· ≠ n) s.order []
  simp only [ne_eq, ite_not, nil_append] at hclean
  rw [Install.cleanedOrder, h]
  exact hclean

lemma cleanedOrder_of_not_find (h : s.findLambootEntry = none) :
    Install.cleanedOrder s = s.order := by
  rw [Install.cleanedOrder, h]

lemma find_of_create (h : s.create fw = some created) :
    ∃ n, created.findLambootEntry = some n ∧ created.order = n :: s.order := by
  obtain ⟨n, -, rfl⟩ := map_eq_some_iff.mp h
  refine ⟨n, ?_, rfl⟩
  unfold Nvram.findLambootEntry
  rw [AList.entries_insert, find?_cons]
  simp [fw.line_lamboot]

lemma ne_of_isOther (hother : s.IsOther n) (hfind : s.findLambootEntry = some m) : n ≠ m := by
  obtain ⟨line, hline, hnot⟩ := hother
  obtain ⟨⟨m', line'⟩, hentry, rfl⟩ := map_eq_some_iff.mp hfind
  rintro rfl
  have hlookup := AList.mem_lookup_iff.mpr (mem_of_find?_eq_some hentry)
  have hlamboot := find?_some hentry
  rw [mem_unique hline hlookup] at hnot
  exact Bool.noConfusion (hnot.symm.trans hlamboot)

end Operations

/-! ### The record -/

section Record

variable {fw : Efibootmgr} {before : Untouched}

lemma capture_ne_nil {i : Install} {s : State} (h : ∀ prior ∈ s.marker, prior ≠ []) :
    ∀ prior ∈ i.capturePriorBootorder s, prior ≠ [] := by
  intro prior hprior
  unfold Install.capturePriorBootorder at hprior
  split at hprior
  · next recorded hmarker =>
    rw [mem_some_iff] at hprior
    exact hprior ▸ h recorded hmarker
  · split_ifs at hprior with hne
    · rw [mem_some_iff] at hprior
      exact hprior ▸ hne.1
    · cases hprior

variable (fw) in
lemma marker_run_ne_nil (steps : List Step) {s : State} (h : ∀ prior ∈ s.marker, prior ≠ []) :
    ∀ prior ∈ (run fw steps s).marker, prior ≠ [] := by
  induction steps generalizing s with
  | nil => exact h
  | cons step steps ih =>
    refine ih ?_
    cases step with
    | outside nvram => exact h
    | install i =>
      change ∀ prior ∈ (i.phase6EfiBootEntry fw s).marker, prior ≠ []
      unfold Install.phase6EfiBootEntry
      split_ifs
      · exact capture_ne_nil h
      · exact h

end Record

/-! ### Keeping the entries of others -/

section Others

variable {r : Removal} {s : State}

lemma mem_removeEntry_order {n : UInt16} (hn : n ∈ s.nvram.order) (hother : s.nvram.IsOther n) :
    n ∈ (r.removeEntry s.nvram).order := by
  unfold Removal.removeEntry
  split
  · next m hfind =>
    split_ifs
    · exact mem_filter.mpr ⟨hn, by simpa using ne_of_isOther hother hfind⟩
    · exact hn
  · exact hn

lemma mem_removeEntry_vars {n : UInt16} (hother : s.nvram.IsOther n) :
    n ∈ (r.removeEntry s.nvram).vars := by
  have hn : n ∈ s.nvram.vars := by
    obtain ⟨line, hline, -⟩ := hother
    exact AList.lookup_isSome.mp (isSome_of_mem hline)
  unfold Removal.removeEntry
  split
  · next m hfind =>
    split_ifs
    · exact AList.mem_erase.mpr ⟨ne_of_isOther hother hfind, hn⟩
    · exact hn
  · exact hn

lemma vars_restoreOrder (nvram : Nvram) (marker : Option (List UInt16)) :
    (r.restoreOrder nvram marker).vars = nvram.vars := by
  unfold Removal.restoreOrder
  split
  · split_ifs <;> rfl
  · rfl

lemma keepsOthers_iff (hmarker : ∀ prior ∈ s.marker, prior ≠ []) :
    (∀ n ∈ s.nvram.order, s.nvram.IsOther n → n ∈ (r.doRemove s).nvram.vars →
      n ∈ (r.doRemove s).nvram.order) ↔ (r.Acts → RecordedAll s) := by
  by_cases hrestore : r.Acts ∧ ∃ prior, s.marker = some prior
  · obtain ⟨hacts, prior, hprior⟩ := hrestore
    have horder : (r.doRemove s).nvram.order = prior := by
      simp [Removal.doRemove, Removal.restoreOrder, hprior, hacts, hmarker prior hprior,
        Nvram.setOrder]
    constructor
    · rintro h - prior' hprior' n hn hother
      obtain rfl : prior' = prior := mem_unique hprior' hprior
      have hvars : (r.doRemove s).nvram.vars = (r.removeEntry s.nvram).vars :=
        vars_restoreOrder _ _
      rw [← horder]
      exact h n hn hother (hvars ▸ mem_removeEntry_vars hother)
    · intro h n hn hother _
      rw [horder]
      exact h hacts prior hprior n hn hother
  · have horder : (r.doRemove s).nvram = r.removeEntry s.nvram := by
      unfold Removal.doRemove Removal.restoreOrder
      cases hprior : s.marker with
      | none => rfl
      | some prior => exact if_neg fun h => hrestore ⟨h.1, prior, hprior⟩
    refine iff_of_true (fun n hn hother _ => ?_) fun hacts prior hprior => ?_
    · rw [horder]
      exact mem_removeEntry_order hn hother
    · exact absurd ⟨hacts, prior, hprior⟩ hrestore

end Others

/-! ### Restoring the order -/

section Restoring

variable {fw : Efibootmgr} {before : Untouched}

variable (before) in
/-- What installs alone leave behind: the order from before is on record once it is changed,
unless there was none, and then it holds LamBoot alone. -/
structure Restorable (s : State) : Prop where
  marker : s.marker = none ∨ (before.order ≠ [] ∧ s.marker = some before.order)
  nvram : s.nvram = before.toNvram ∨
    ∃ n, s.nvram.findLambootEntry = some n ∧
      (before.order ≠ [] → s.marker = some before.order) ∧ (before.order = [] → s.nvram.order = [n])

lemma find_setDefaultEntry (i : Install) (s : Nvram) (n : UInt16) :
    (i.setDefaultEntry s n).findLambootEntry = s.findLambootEntry := by
  unfold Install.setDefaultEntry
  split_ifs <;> rfl

lemma find_placeLast (i : Install) (previous : List UInt16) (created : Nvram) (n : UInt16) :
    (i.placeLast previous created n).findLambootEntry = created.findLambootEntry := by
  unfold Install.placeLast
  split_ifs <;> rfl

lemma order_setDefaultEntry {i : Install} {s : Nvram} {n : UInt16} (h : s.order = [n]) :
    (i.setDefaultEntry s n).order = [n] := by
  unfold Install.setDefaultEntry
  split_ifs
  · change Install.newOrder n s.order = [n]
    rw [newOrder_eq, h]
    simp
  · exact h

variable (fw) in
lemma withEntry_of_find {i : Install} {s : Nvram} {n : UInt16} (h : s.findLambootEntry = some n) :
    (i.withEntry fw s).findLambootEntry = some n ∧
      (s.order = [n] → (i.withEntry fw s).order = [n]) := by
  unfold Install.withEntry
  rw [h]
  dsimp only
  split_ifs
  · exact ⟨(find_setDefaultEntry i s n).trans h, order_setDefaultEntry⟩
  · exact ⟨h, id⟩

variable (fw) in
lemma withEntry_of_not_find {i : Install} {s : Nvram} (h : s.findLambootEntry = none) :
    i.withEntry fw s = s ∨ (i.dryRun = false ∧
      ∃ n, (i.withEntry fw s).findLambootEntry = some n ∧
        (s.order = [] → (i.withEntry fw s).order = [n])) := by
  unfold Install.withEntry
  rw [h]
  dsimp only
  by_cases hdry : i.dryRun = true
  · exact .inl (if_pos hdry)
  rw [if_neg hdry]
  cases hcreate : s.create fw with
  | none => exact .inl rfl
  | some created =>
    obtain ⟨n, hfind, horder⟩ := find_of_create hcreate
    have hplaced : s.order = [] → (i.placeLast s.order created n).order = [n] := by
      intro hempty
      rw [Install.placeLast, if_neg fun hlast => hlast.2 hempty, horder, hempty]
    refine .inr ⟨by simpa using hdry, n, ?_, fun hempty => ?_⟩
    · dsimp only
      rw [hfind]
      dsimp only
      split_ifs
      · rw [find_setDefaultEntry, find_placeLast, hfind]
      · rw [find_placeLast, hfind]
    · dsimp only
      rw [hfind]
      dsimp only
      split_ifs
      · exact order_setDefaultEntry (hplaced hempty)
      · exact hplaced hempty

lemma capture_cases (i : Install) (s : State) :
    (∃ prior, s.marker = some prior ∧ i.capturePriorBootorder s = some prior) ∨
      (s.marker = none ∧ i.capturePriorBootorder s =
        if Install.cleanedOrder s.nvram ≠ [] ∧ i.dryRun = false then
          some (Install.cleanedOrder s.nvram)
        else none) := by
  unfold Install.capturePriorBootorder
  cases s.marker with
  | some prior => exact .inl ⟨prior, rfl, rfl⟩
  | none => exact .inr ⟨rfl, by simp⟩

lemma Restorable.createEfiEntry (i : Install) {s : State} (h : Restorable before s) :
    Restorable before (i.createEfiEntry fw s) := by
  have hmarker : ∀ prior, s.marker = some prior → before.order ≠ [] ∧ prior = before.order := by
    intro prior hprior
    rcases h.marker with hnone | ⟨hne, hsome⟩
    · rw [hnone] at hprior
      cases hprior
    · exact ⟨hne, some.inj (hprior.symm.trans hsome)⟩
  rcases h.nvram with hbefore | ⟨n, hfind, hrecorded, halone⟩
  · -- nothing has changed yet, so what is recorded is the order from before
    have hnone : s.nvram.findLambootEntry = none := hbefore ▸ before.no_lamboot
    have hclean : Install.cleanedOrder s.nvram = before.order := by
      rw [cleanedOrder_of_not_find hnone, hbefore]
    have hcapture : i.capturePriorBootorder s = none ∨
        (before.order ≠ [] ∧ i.capturePriorBootorder s = some before.order) := by
      rcases capture_cases i s with ⟨prior, hprior, hsome⟩ | ⟨-, hsome⟩
      · obtain ⟨hne, rfl⟩ := hmarker prior hprior
        exact .inr ⟨hne, hsome⟩
      · rw [hclean] at hsome
        split_ifs at hsome with hne
        · exact .inr ⟨hne.1, hsome⟩
        · exact .inl hsome
    refine ⟨hcapture, ?_⟩
    rcases withEntry_of_not_find fw (i := i) hnone with hsame | ⟨hdry, n, hfind, hempty⟩
    · exact .inl (hsame.trans hbefore)
    · refine .inr ⟨n, hfind, fun hne => ?_, fun hnil => hempty (by rw [hbefore]; exact hnil)⟩
      change i.capturePriorBootorder s = some before.order
      rcases capture_cases i s with ⟨prior, hprior, hsome⟩ | ⟨-, hsome⟩
      · obtain ⟨-, rfl⟩ := hmarker prior hprior
        exact hsome
      · rwa [hclean, if_pos ⟨hne, hdry⟩] at hsome
  · have hcapture : i.capturePriorBootorder s = s.marker := by
      rcases capture_cases i s with ⟨prior, hprior, hsome⟩ | ⟨hnone, hsome⟩
      · rw [hsome, hprior]
      · -- there was no order, so LamBoot stands alone in it and nothing is left to record
        have hnil : before.order = [] := by
          by_contra hne
          rw [hrecorded hne] at hnone
          cases hnone
        have hclean : Install.cleanedOrder s.nvram = [] := by
          rw [cleanedOrder_of_find hfind, halone hnil]
          simp
        rw [hsome, hclean, if_neg fun h => h.1 rfl, hnone]
    obtain ⟨hfind', halone'⟩ := withEntry_of_find fw (i := i) hfind
    refine ⟨?_, .inr ⟨n, hfind', fun hne => ?_, fun hnil => halone' (halone hnil)⟩⟩
    · change i.capturePriorBootorder s = none ∨ _ ∧ i.capturePriorBootorder s = some before.order
      rw [hcapture]
      exact h.marker
    · exact hcapture.trans (hrecorded hne)

lemma Restorable.run {steps : List Step} {s : State}
    (hsteps : ∀ step ∈ steps, ∃ i, step = .install i) (h : Restorable before s) :
    Restorable before (run fw steps s) := by
  induction steps generalizing s with
  | nil => exact h
  | cons step steps ih =>
    rw [forall_mem_cons] at hsteps
    obtain ⟨⟨i, rfl⟩, hsteps⟩ := hsteps
    refine ih hsteps ?_
    change Restorable before (i.phase6EfiBootEntry fw s)
    unfold Install.phase6EfiBootEntry
    split_ifs
    · exact h.createEfiEntry i
    · exact h

lemma Restorable.order_doRemove {r : Removal} {s : State} (hacts : r.Acts)
    (h : Restorable before s) : (r.doRemove s).nvram.order = before.order := by
  unfold Removal.doRemove Removal.restoreOrder
  rcases h.marker with hnone | ⟨hne, hsome⟩
  · rw [hnone]
    change (r.removeEntry s.nvram).order = before.order
    unfold Removal.removeEntry
    rcases h.nvram with hbefore | ⟨n, hfind, hrecorded, halone⟩
    · rw [hbefore, before.no_lamboot]
    · have hnil : before.order = [] := by
        by_contra hne
        rw [hrecorded hne] at hnone
        cases hnone
      rw [hfind, hnil]
      dsimp only
      rw [if_pos ⟨hacts.1, by simp [hacts.2.2]⟩, Nvram.delete, halone hnil]
      simp
  · rw [hsome]
    dsimp only
    rw [if_pos ⟨hacts, hne⟩]
    rfl

end Restoring

/-- The laws of the boot order hold exactly when a removal that sets the order finds every entry of
other software in the record. -/
theorem laws_iff (fw : Efibootmgr) (before : Untouched) (steps : List Step) (r : Removal) :
    Laws fw before steps r ↔ (r.Acts → RecordedAll (run fw steps ⟨before.toNvram, none⟩)) := by
  have hmarker := marker_run_ne_nil fw steps (s := ⟨before.toNvram, none⟩) nofun
  constructor
  · exact fun h => (keepsOthers_iff hmarker).mp h.keepsOthers
  · intro h
    refine ⟨fun i s n hsets => ?_, (keepsOthers_iff hmarker).mpr h, fun hsteps hacts => ?_⟩
    · rw [Install.setDefaultEntry, if_pos hsets]
      exact newOrder_eq n s.order
    · exact Restorable.order_doRemove hacts (.run hsteps ⟨.inl rfl, .inl rfl⟩)

/-! ### An entry that is lost -/

def lowestFree : Efibootmgr where
  free vars := [0, 1, 2, 3].find? fun n => n ∉ vars
  free_notMem vars n h := by simpa using find?_some h
  line := "LamBoot"
  line_lamboot := by decide

def oneSystem : Untouched where
  vars := AList.singleton 1 "ubuntu"
  order := [1]
  no_lamboot := by decide

/-- A plain install, and then the installation of a second system, which puts itself first. -/
def secondSystem : List Step :=
  [.install ⟨true, true, false, false, true⟩,
    .outside ⟨((AList.singleton 1 "ubuntu").insert 0 "LamBoot").insert 2
      "fedora", [2, 0, 1]⟩]

/-- The second system is no longer in the order when LamBoot has been removed. -/
theorem second_system_lost :
    ¬ Laws lowestFree oneSystem secondSystem ⟨true, true, false⟩ := by
  intro h
  have hlost := h.keepsOthers 2 (by decide) ⟨"fedora", by decide, by decide⟩ (by decide)
  exact absurd hlost (by decide)

end LamBoot.BootOrder
