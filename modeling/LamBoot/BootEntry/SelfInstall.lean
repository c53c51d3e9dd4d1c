import LamBoot.BootEntry.Codec
import LamBoot.Uefi

/-!
# Self-install

`ensure_named_boot_entry` of `boot_entry.rs` over any variable store, with any pattern of failures
of the variable services. The function takes every error of `GetVariable` for an absent variable.
-/

namespace LamBoot.BootEntry

open Bytes Text Function List Except

/-! ### Variable services -/

/-- The variables of the global vendor, by name. -/
structure VariableStore where
  vars : Text → Option Bytes
  /-- The number of calls of the variable services. -/
  calls : Nat
  /-- The names `SetVariable` was called with. -/
  sets : List Text

/-- Which calls fail, by their number and the name of the variable. -/
structure Faults where
  getFails : Nat → Text → Bool
  setFails : Nat → Text → Bool

abbrev VarM := StateM VariableStore

/-- `get_variable_boxed`, without its errors, which the caller does not look at. -/
def getVariableBoxed (faults : Faults) (name : Text) : VarM (Option Bytes) := fun s =>
  (if faults.getFails s.calls name then none else s.vars name, { s with calls := s.calls + 1 })

/-- `set_variable`: whether it succeeds. A call that fails has no effect. -/
def setVariable (faults : Faults) (name : Text) (data : Bytes) : VarM Bool := fun s =>
  (!faults.setFails s.calls name,
    { vars := if faults.setFails s.calls name then s.vars else update s.vars name (some data)
      calls := s.calls + 1
      sets := name :: s.sets })

/-! ### Device path -/

/-- A node of a device path. -/
structure PathNode where
  isEnd : Bool
  bytes : Bytes

/-- What the firmware says about where the image was loaded from. -/
inductive Location where
  | noLoadedImage
  | noDevice
  | noDevicePath
  | partition (nodes : List PathNode)

inductive SelfInstall where
  | created (num : UInt16)
  | alreadyPresent (num : UInt16)
  | noDevicePath
  | failed
deriving DecidableEq, Repr

def fileNode (pathName : List UInt16) : Option Bytes :=
  let size := 4 + 2 * pathName.length
  if size ≤ 0xFFFF then some ([4, 4] ++ le16 (UInt16.ofNat size) ++ pathName.flatMap le16) else none

def buildDevicePath (nodes : List PathNode) (installFilePath : Text) : Option Bytes := do
  let pathName ← cstring16 installFilePath
  let file ← fileNode pathName
  return (nodes.filter fun node => !node.isEnd).flatMap PathNode.bytes ++ file ++ [0x7F, 0xFF, 4, 0]

def devicePath (location : Location) (installFilePath : Text) : Except SelfInstall Bytes :=
  match location with
  | .noLoadedImage => .error .failed
  | .noDevice | .noDevicePath => .error .noDevicePath
  | .partition nodes =>
    match buildDevicePath nodes installFilePath with
    | some bytes => .ok bytes
    | none => .error .failed

/-! ### The entry -/

def bootScanMax : UInt16 := 0x00FF

def slots : List UInt16 :=
  (range (bootScanMax.toNat + 1)).map UInt16.ofNat

/-- The loop over the slots, which collects the numbers in use and the first one of an entry with
the description. -/
def scanSlots (faults : Faults) (description : Text) :
    List UInt16 → List UInt16 → Option UInt16 → VarM (List UInt16 × Option UInt16)
  | [], used, existing => pure (used, existing)
  | num :: nums, used, existing => do
    match ← getVariableBoxed faults (bootVarName num) with
    | some data =>
      let found := existing.isNone && parseLoadOptionDescription data == some description
      scanSlots faults description nums (used ++ [num]) (if found then some num else existing)
    | none => scanSlots faults description nums used existing

def createEntry (faults : Faults) (num : UInt16) (option : Bytes) : VarM SelfInstall := do
  if ← setVariable faults (bootVarName num) option then
    let orderBytes ← getVariableBoxed faults bootOrderName
    let order := decodeBootOrder (orderBytes.getD [])
    let newOrder := bootOrderWithFront order num
    -- not fatal: the entry can still be selected from the firmware's menu
    let _ ← setVariable faults bootOrderName (encodeBootOrder newOrder)
    return .created num
  else return .failed

def newOption (description : Text) (dpBytes : Bytes) : Bytes :=
  encodeLoadOption loadOptionActive description dpBytes []

def ensureNamedBootEntry (faults : Faults) (location : Location)
    (installFilePath description : Text) : VarM SelfInstall :=
  match devicePath location installFilePath with
  | .error outcome => pure outcome
  | .ok dpBytes => do
    let (used, existing) ← scanSlots faults description slots [] none
    match existing, firstFreeBootNumber used bootScanMax with
    | some num, _ => return .alreadyPresent num
    | none, none => return .failed
    | none, some num =>
      createEntry faults num (newOption description dpBytes)

/-! ### What a run does -/

/-- The entry of a number has the description. -/
def Carries (vars : Text → Option Bytes) (description : Text) (num : UInt16) : Prop :=
  (vars (bootVarName num)).bind parseLoadOptionDescription = some description
deriving Decidable

def bootOrder (vars : Text → Option Bytes) : List UInt16 :=
  decodeBootOrder ((vars bootOrderName).getD [])

/-- What a scan that begins with a certain call reads of a slot. -/
def Faults.sees (faults : Faults) (call : Nat) (vars : Text → Option Bytes) (num : UInt16) :
    Option Bytes :=
  if faults.getFails (call + num.toNat) (bootVarName num) then none else vars (bootVarName num)

/-- A scan ends with the decision to write an entry: the description is in nothing that it reads,
and the slot is the first of which it reads nothing. -/
structure Chooses (faults : Faults) (call : Nat) (vars : Text → Option Bytes) (description : Text)
    (num : UInt16) : Prop where
  slot : num ∈ slots
  free : faults.sees call vars num = none
  first : ∀ other ∈ slots, other < num → faults.sees call vars other ≠ none
  absent : ∀ other ∈ slots,
    (faults.sees call vars other).bind parseLoadOptionDescription ≠ some description

/-- What self-install is for: entries and the numbers of the order are kept; an entry that is
created, with its place in the order, is the only one with the description and the first; nothing is
written where there is such an entry, nor by a second run. -/
structure Installs (faults : Faults) (description : Text) (install : VarM SelfInstall)
    (s : VariableStore) : Prop where
  entries : ∀ num, s.vars (bootVarName num) ≠ none →
    (install s).2.vars (bootVarName num) = s.vars (bootVarName num)
  order : ∀ num ∈ bootOrder s.vars, num ∈ bootOrder (install s).2.vars
  /-- The last call of a run that creates an entry writes the order. -/
  created : ∀ num, (install s).1 = .created num →
    faults.setFails ((install s).2.calls - 1) bootOrderName = false →
      (∀ other, Carries (install s).2.vars description other ↔ other = num) ∧
        (bootOrder (install s).2.vars).head? = some num
  present : (∃ num, Carries s.vars description num) →
    (install s).2.vars = s.vars ∧ (install s).2.sets = s.sets
  again : (install (install s).2).2.vars = (install s).2.vars ∧
    (install (install s).2).2.sets = (install s).2.sets

/-- The order as it is read after an entry has been written. -/
def orderRead (faults : Faults) (s : VariableStore) : List UInt16 :=
  if faults.getFails (s.calls + 257) bootOrderName then [] else bootOrder s.vars

/-- The store and the failures under which writing an entry does what it is for. The scan makes 256
calls; the entry is written next, and then the order is read and written. -/
structure WritesWell (faults : Faults) (description : Text) (s : VariableStore) (num : UInt16)
    (option : Bytes) : Prop where
  alone : ∀ other, ¬ Carries s.vars description other
  refused : faults.setFails (s.calls + 256) (bootVarName num) = true →
    ∀ slot, ¬ Chooses faults (s.calls + 257) s.vars description slot
  free : faults.setFails (s.calls + 256) (bootVarName num) = false →
    s.vars (bootVarName num) = none ∨ s.vars (bootVarName num) = some option
  ordered : faults.setFails (s.calls + 256) (bootVarName num) = false →
    faults.setFails (s.calls + 258) bootOrderName = false →
      (∀ other ∈ bootOrder s.vars, other = num ∨ other ∈ orderRead faults s) ∧
        Char.ofNat 0 ∉ description ∧
          (num ∈ orderRead faults s → (orderRead faults s).head? = some num)
  seen : faults.setFails (s.calls + 256) (bootVarName num) = false →
    ∀ slot, ¬ Chooses faults (s.calls + 259) (update s.vars (bootVarName num) (some option))
      description slot

section Run

variable {faults : Faults} {s : VariableStore} {description : Text} {num : UInt16}

lemma bind_apply {α β : Type} {x : VarM α} {f : α → VarM β} {a : α} {t : VariableStore}
    (h : x s = (a, t)) : (x >>= f) s = f a t :=
  congrArg (fun r : α × VariableStore => f r.1 r.2) h

/-! ### The scan -/

lemma scanSlots_eq (description : Text) (call k n : Nat) (hn : k + n ≤ 0x10000)
    (hcalls : s.calls = call + k) (used : List UInt16) (existing : Option UInt16) :
    scanSlots faults description ((range' k n).map UInt16.ofNat) used existing s =
      ((used ++ ((range' k n).map UInt16.ofNat).filter fun num =>
          (faults.sees call s.vars num).isSome,
        existing <|> ((range' k n).map UInt16.ofNat).find? fun num =>
          (faults.sees call s.vars num).bind parseLoadOptionDescription = some description),
        { s with calls := call + k + n }) := by
  induction n generalizing k s used existing with
  | zero =>
    rw [Nat.add_zero, ← hcalls, range'_zero, map_nil, filter_nil, append_nil]
    cases existing <;> rfl
  | succ n ih =>
    have hnum : (UInt16.ofNat k).toNat = k := by
      rw [UInt16.toNat_ofNat']
      omega
    have hread : getVariableBoxed faults (bootVarName (UInt16.ofNat k)) s =
        (faults.sees call s.vars (UInt16.ofNat k), { s with calls := s.calls + 1 }) := by
      rw [getVariableBoxed, Faults.sees, hnum, hcalls]
    have hrest := ih (s := { s with calls := s.calls + 1 }) (k + 1) (by omega)
      (by simp [hcalls]; rfl)
    have hcalls' : call + (k + 1) + n = call + k + (n + 1) := by omega
    rw [hcalls'] at hrest
    rw [range'_succ, map_cons, scanSlots, bind_apply hread]
    cases hsees : faults.sees call s.vars (UInt16.ofNat k) with
    | none => simp [hrest, hsees]
    | some data =>
      cases existing with
      | some first => simp [hrest, hsees]
      | none =>
        by_cases hdesc : parseLoadOptionDescription data = some description <;>
          simp [hrest, hsees, hdesc]

lemma scanSlots_slots (description : Text) (s : VariableStore) :
    scanSlots faults description slots [] none s =
      ((slots.filter fun num => (faults.sees s.calls s.vars num).isSome,
        slots.find? fun num =>
          (faults.sees s.calls s.vars num).bind parseLoadOptionDescription = some description),
        { s with calls := s.calls + 256 }) := by
  have hslots : slots = (range' 0 256).map UInt16.ofNat := congrArg _ range_eq_range'
  rw [hslots]
  exact scanSlots_eq description s.calls 0 256 (by decide) rfl [] none

lemma mem_slots : num ∈ slots ↔ num.toNat < bootScanMax.toNat + 1 := by
  have hmax : bootScanMax.toNat + 1 = 256 := rfl
  rw [slots, mem_map]
  constructor
  · rintro ⟨n, hn, rfl⟩
    rw [mem_range] at hn
    rw [UInt16.toNat_ofNat']
    omega
  · exact fun h => ⟨num.toNat, mem_range.mpr h, UInt16.ofNat_toNat⟩

lemma find?_slots_eq_some_iff {p : UInt16 → Bool} :
    slots.find? p = some num ↔
      num ∈ slots ∧ p num = true ∧ ∀ other ∈ slots, other < num → p other = false := by
  rw [slots, find?_map, Option.map_eq_some_iff, ← slots]
  simp only [find?_range_eq_some, comp_apply, UInt16.lt_iff_toNat_lt]
  constructor
  · rintro ⟨n, ⟨hp, hn, hfirst⟩, rfl⟩
    refine ⟨mem_map_of_mem hn, hp, fun other hother hlt => ?_⟩
    have hlt : other.toNat < n := hlt.trans_le (Nat.mod_le _ _)
    simpa [UInt16.ofNat_toNat] using hfirst other.toNat hlt
  · rintro ⟨hslot, hp, hfirst⟩
    rw [mem_slots] at hslot
    refine ⟨num.toNat, ⟨?_, mem_range.mpr hslot, fun n hn => ?_⟩, UInt16.ofNat_toNat⟩
    · rwa [UInt16.ofNat_toNat]
    · have hle : (UInt16.ofNat n).toNat ≤ n := Nat.mod_le _ _
      have hother := hfirst (UInt16.ofNat n) (mem_map_of_mem (mem_range.mpr (hn.trans hslot)))
      simp [hother (hle.trans_lt hn)]

lemma chooses_iff : Chooses faults s.calls s.vars description num ↔
    (slots.find? fun num => (faults.sees s.calls s.vars num).bind parseLoadOptionDescription =
        some description) = none ∧
      firstFreeBootNumber (slots.filter fun num => (faults.sees s.calls s.vars num).isSome)
        bootScanMax = some num := by
  rw [firstFreeBootNumber, show (range (bootScanMax.toNat + 1)).map UInt16.ofNat = slots from rfl,
    find?_slots_eq_some_iff, find?_eq_none]
  have hused : ∀ other ∈ slots, ((!(slots.filter fun num =>
      (faults.sees s.calls s.vars num).isSome).contains other) = true ↔
        faults.sees s.calls s.vars other = none) := by
    intro other hother
    simp [hother]
  simp only [decide_eq_true_eq]
  constructor
  · intro h
    refine ⟨h.absent, h.slot, (hused num h.slot).mpr h.free, fun other hother hlt => ?_⟩
    simpa [hother, Option.isSome_iff_ne_none] using h.first other hother hlt
  · rintro ⟨habsent, hslot, hfree, hfirst⟩
    refine ⟨hslot, (hused num hslot).mp hfree, fun other hother hlt => ?_, habsent⟩
    rw [ne_eq, ← hused other hother, hfirst other hother hlt]
    exact Bool.false_ne_true

lemma Chooses.unique {num' : UInt16} (h : Chooses faults s.calls s.vars description num)
    (h' : Chooses faults s.calls s.vars description num') : num = num' :=
  Option.some.inj ((chooses_iff.mp h).2.symm.trans (chooses_iff.mp h').2)

/-! ### Runs -/

variable {location : Location} {installFilePath : Text} {dpBytes : Bytes}

lemma setVariable_of_fails {name : Text} {data : Bytes}
    (h : faults.setFails s.calls name = true) : setVariable faults name data s =
      (false, ⟨s.vars, s.calls + 1, name :: s.sets⟩) := by
  simp [setVariable, h]

lemma setVariable_of_succeeds {name : Text} {data : Bytes}
    (h : faults.setFails s.calls name = false) : setVariable faults name data s =
      (true, ⟨update s.vars name (some data), s.calls + 1, name :: s.sets⟩) := by
  simp [setVariable, h]

lemma createEntry_of_fails {option : Bytes}
    (h : faults.setFails s.calls (bootVarName num) = true) :
    createEntry faults num option s =
      (.failed, ⟨s.vars, s.calls + 1, bootVarName num :: s.sets⟩) := by
  rw [createEntry, bind_apply (setVariable_of_fails h)]
  rfl

/-- The variables after an entry has been written, and the order if it could be. -/
def written (faults : Faults) (s : VariableStore) (num : UInt16) (option : Bytes) :
    Text → Option Bytes :=
  if faults.setFails (s.calls + 258) bootOrderName then
    update s.vars (bootVarName num) (some option)
  else
    update (update s.vars (bootVarName num) (some option)) bootOrderName
      (some (encodeBootOrder (bootOrderWithFront (orderRead faults s) num)))

/-- An entry that has been written carries the description unless a zero cuts it short. -/
lemma parse_option_iff : parseLoadOptionDescription (newOption description dpBytes) =
    some description ↔ Char.ofNat 0 ∉ description := by
  refine ⟨fun h => ?_, parseLoadOptionDescription_encode⟩
  unfold parseLoadOptionDescription at h
  split_ifs at h
  rw [← Option.some.inj h]
  refine nul_notMem_fromUtf16Lossy fun hzero => ?_
  simpa using mem_takeWhile_imp hzero

lemma written_bootVarName (faults : Faults) (s : VariableStore) (other num : UInt16)
    (option : Bytes) :
    written faults s num option (bootVarName other) =
      update s.vars (bootVarName num) (some option) (bootVarName other) := by
  unfold written
  split_ifs
  · rfl
  · exact update_of_ne (bootVarName_ne_bootOrderName other) _ _

lemma bootOrder_written (faults : Faults) (s : VariableStore) (num : UInt16) (option : Bytes) :
    bootOrder (written faults s num option) =
      if faults.setFails (s.calls + 258) bootOrderName then bootOrder s.vars
      else bootOrderWithFront (orderRead faults s) num := by
  unfold written bootOrder
  split_ifs
  · rw [update_of_ne (bootVarName_ne_bootOrderName num).symm]
  · rw [update_self, Option.getD_some, decodeBootOrder_encodeBootOrder]

lemma chooses_congr {call : Nat} {vars vars' : Text → Option Bytes}
    (h : ∀ num, vars (bootVarName num) = vars' (bootVarName num)) :
    Chooses faults call vars description num ↔ Chooses faults call vars' description num := by
  have hsees : faults.sees call vars = faults.sees call vars' := by
    funext num
    rw [Faults.sees, Faults.sees, h]
  exact ⟨fun ⟨a, b, c, d⟩ => ⟨a, hsees ▸ b, hsees ▸ c, hsees ▸ d⟩,
    fun ⟨a, b, c, d⟩ => ⟨a, hsees ▸ b, hsees ▸ c, hsees ▸ d⟩⟩

lemma devicePath_ne_created {outcome : SelfInstall}
    (h : devicePath location installFilePath = .error outcome) (num : UInt16) :
    outcome ≠ .created num := by
  rintro rfl
  cases location with
  | partition nodes =>
    simp only [devicePath] at h
    split at h <;> cases h
  | _ => cases h

lemma installs_of_no_path {outcome : SelfInstall}
    (h : devicePath location installFilePath = .error outcome) :
    Installs faults description
      (ensureNamedBootEntry faults location installFilePath description) s := by
  have hrun : ∀ s, ensureNamedBootEntry faults location installFilePath description s =
      (outcome, s) := by
    intro s
    unfold ensureNamedBootEntry
    rw [h]
    rfl
  refine ⟨fun num _ => by rw [hrun], fun num h => by rwa [hrun], fun num hcreated => ?_,
    fun _ => by simp [hrun], by simp [hrun]⟩
  rw [hrun] at hcreated
  exact absurd hcreated (devicePath_ne_created h num)

lemma carries_written_iff {other : UInt16} :
    Carries (written faults s num (newOption description dpBytes)) description other ↔
      if other = num then Char.ofNat 0 ∉ description else Carries s.vars description other := by
  rw [Carries, written_bootVarName]
  split_ifs with heq
  · rw [heq, update_self, Option.bind_some, parse_option_iff]
  · rw [update_of_ne (bootVarName_injective.ne heq), Carries]

/-! ### The whole of a run -/

section Path

variable (hpath : devicePath location installFilePath = .ok dpBytes)

include hpath

lemma run_of_not_chooses (h : ∀ num, ¬ Chooses faults s.calls s.vars description num) :
    ∃ result, (∀ num, result ≠ .created num) ∧
      ensureNamedBootEntry faults location installFilePath description s =
        (result, { s with calls := s.calls + 256 }) := by
  unfold ensureNamedBootEntry
  rw [hpath]
  dsimp only
  rw [bind_apply (scanSlots_slots description s)]
  simp only [chooses_iff, not_and] at h
  cases hfind : slots.find? fun num =>
      decide ((faults.sees s.calls s.vars num).bind parseLoadOptionDescription =
        some description) with
  | some num => exact ⟨.alreadyPresent num, nofun, rfl⟩
  | none =>
    have hfull : firstFreeBootNumber (slots.filter fun num =>
        (faults.sees s.calls s.vars num).isSome) bootScanMax = none :=
      Option.eq_none_iff_forall_ne_some.mpr fun num => h num hfind
    rw [hfull]
    exact ⟨.failed, nofun, rfl⟩

lemma run_of_chooses (h : Chooses faults s.calls s.vars description num) :
    ensureNamedBootEntry faults location installFilePath description s =
      createEntry faults num (newOption description dpBytes) { s with calls := s.calls + 256 } := by
  obtain ⟨hfind, hfree⟩ := chooses_iff.mp h
  unfold ensureNamedBootEntry
  rw [hpath]
  dsimp only
  rw [bind_apply (scanSlots_slots description s), hfind, hfree]

lemma run_of_written (h : Chooses faults s.calls s.vars description num)
    (hset : faults.setFails (s.calls + 256) (bootVarName num) = false) :
    ensureNamedBootEntry faults location installFilePath description s =
      (.created num, ⟨written faults s num (newOption description dpBytes), s.calls + 259,
        bootOrderName :: bootVarName num :: s.sets⟩) := by
  rw [run_of_chooses hpath h, createEntry, bind_apply (setVariable_of_succeeds hset), if_pos rfl]
  set option := newOption description dpBytes with hoption
  have horder : update s.vars (bootVarName num) (some option) bootOrderName =
      s.vars bootOrderName := update_of_ne (bootVarName_ne_bootOrderName num).symm _ _
  have hread : decodeBootOrder ((if faults.getFails (s.calls + 257) bootOrderName then none
      else update s.vars (bootVarName num) (some option) bootOrderName).getD []) =
        orderRead faults s := by
    unfold orderRead bootOrder
    split_ifs
    · rfl
    · rw [horder]
  cases hfails : faults.setFails (s.calls + 258) bootOrderName with
  | true =>
    refine (bind_apply rfl).trans ((bind_apply (setVariable_of_fails hfails)).trans ?_)
    rw [written, if_pos hfails]
    rfl
  | false =>
    refine (bind_apply rfl).trans ((bind_apply (setVariable_of_succeeds hfails)).trans ?_)
    have hwritten : written faults s num option = update
        (update s.vars (bootVarName num) (some option)) bootOrderName
          (some (encodeBootOrder (bootOrderWithFront (orderRead faults s) num))) :=
      if_neg (by simp [hfails])
    rw [hwritten, ← hread]
    rfl

/-- A run writes nothing exactly where it does not choose a slot. -/
lemma unchanged_iff (faults : Faults) (description : Text)
    (s : VariableStore) :
    ((ensureNamedBootEntry faults location installFilePath description s).2.vars = s.vars ∧
      (ensureNamedBootEntry faults location installFilePath description s).2.sets = s.sets) ↔
      ∀ num, ¬ Chooses faults s.calls s.vars description num := by
  constructor
  · rintro ⟨-, hsets⟩ num h
    have hlong : s.sets.length <
        (ensureNamedBootEntry faults location installFilePath description s).2.sets.length := by
      cases hset : faults.setFails (s.calls + 256) (bootVarName num) with
      | true =>
        rw [run_of_chooses hpath h, createEntry_of_fails hset]
        simp
      | false =>
        rw [run_of_written hpath h hset]
        simp
    rw [hsets] at hlong
    exact lt_irrefl _ hlong
  · intro h
    obtain ⟨result, -, hrun⟩ := run_of_not_chooses hpath h
    rw [hrun]
    exact ⟨rfl, rfl⟩

lemma installs_of_not_chooses_iff (h : ∀ num, ¬ Chooses faults s.calls s.vars description num) :
    Installs faults description
        (ensureNamedBootEntry faults location installFilePath description) s ↔
      ∀ num, ¬ Chooses faults (s.calls + 256) s.vars description num := by
  obtain ⟨result, hresult, hrun⟩ := run_of_not_chooses hpath h
  have hagain := unchanged_iff hpath faults description { s with calls := s.calls + 256 }
  constructor
  · intro hinstalls
    have := hinstalls.again
    rw [hrun] at this
    exact hagain.mp this
  · intro hsettled
    refine ⟨fun num _ => by rw [hrun], fun num h => by rwa [hrun], fun num hcreated => ?_,
      fun _ => by simp [hrun], ?_⟩
    · rw [hrun] at hcreated
      exact absurd hcreated (hresult num)
    · rw [hrun]
      exact hagain.mpr hsettled

lemma installs_of_refused_iff (h : Chooses faults s.calls s.vars description num)
    (hset : faults.setFails (s.calls + 256) (bootVarName num) = true) :
    Installs faults description
        (ensureNamedBootEntry faults location installFilePath description) s ↔
      WritesWell faults description s num (newOption description dpBytes) := by
  have hrun := (run_of_chooses hpath h).trans (createEntry_of_fails hset)
  have hagain := unchanged_iff hpath faults description
  constructor
  · rintro ⟨-, -, -, hpresent, hsecond⟩
    rw [hrun] at hpresent hsecond
    refine ⟨fun other hother => ?_, fun _ => (hagain _).mp hsecond, by simp [hset],
      by simp [hset], by simp [hset]⟩
    exact absurd (hpresent ⟨other, hother⟩).2 (cons_ne_self _ _)
  · intro hwell
    refine ⟨?_, ?_, ?_, fun ⟨other, hother⟩ => absurd hother (hwell.alone other), ?_⟩ <;> rw [hrun]
    · exact fun _ _ => rfl
    · exact fun _ hnum => hnum
    · exact nofun
    · exact (hagain _).mpr (hwell.refused hset)

lemma installs_of_written_iff (h : Chooses faults s.calls s.vars description num)
    (hset : faults.setFails (s.calls + 256) (bootVarName num) = false) :
    Installs faults description
        (ensureNamedBootEntry faults location installFilePath description) s ↔
      WritesWell faults description s num (newOption description dpBytes) := by
  have hrun := run_of_written hpath h hset
  have hagain := unchanged_iff hpath faults description
  have hcalls : s.calls + 259 - 1 = s.calls + 258 := rfl
  constructor
  · rintro ⟨hentries, horder, hcreated, hpresent, hsecond⟩
    rw [hrun] at hentries horder hcreated hpresent hsecond
    dsimp only at hentries horder hcreated hpresent hsecond
    refine ⟨fun other hother => ?_, by simp [hset], fun _ => ?_, fun _ hfails => ?_,
      fun _ slot => ?_⟩
    · have hlength := congrArg List.length (hpresent ⟨other, hother⟩).2
      rw [length_cons, length_cons] at hlength
      omega
    · refine or_iff_not_imp_left.mpr fun hne => ?_
      rw [← hentries num hne, written_bootVarName, update_self]
    · obtain ⟨honly, hhead⟩ := hcreated num rfl hfails
      have horder' := bootOrder_written faults s num (newOption description dpBytes)
      rw [if_neg (by simp [hfails])] at horder'
      rw [horder'] at horder hhead
      have hself := (honly num).mpr rfl
      rw [carries_written_iff, if_pos rfl] at hself
      refine ⟨fun other hother => mem_bootOrderWithFront.mp (horder other hother), hself,
        fun hmem => ?_⟩
      rwa [bootOrderWithFront, if_pos (contains_iff_mem.mpr hmem)] at hhead
    · rw [← chooses_congr fun other => written_bootVarName faults s other num _]
      exact (hagain _).mp hsecond slot
  · intro hwell
    refine ⟨?_, ?_, ?_, fun ⟨other, hother⟩ => absurd hother (hwell.alone other), ?_⟩ <;>
      rw [hrun] <;> dsimp only
    · intro other hne
      rw [written_bootVarName]
      by_cases heq : other = num
      · subst heq
        rw [update_self]
        exact ((hwell.free hset).resolve_left hne).symm
      · exact update_of_ne (bootVarName_injective.ne heq) _ _
    · intro other hother
      rw [bootOrder_written]
      split_ifs with hfails
      · exact hother
      · exact mem_bootOrderWithFront.mpr
          ((hwell.ordered hset (Bool.not_eq_true _ ▸ hfails)).1 other hother)
    · rintro _ ⟨⟩ hfails
      obtain ⟨-, hnul, hhead⟩ := hwell.ordered hset hfails
      refine ⟨fun other => ?_, ?_⟩
      · rw [carries_written_iff]
        split_ifs with heq
        · exact iff_of_true hnul heq
        · exact iff_of_false (hwell.alone other) heq
      · rw [hcalls] at hfails
        rw [bootOrder_written, if_neg (by simp [hfails]), bootOrderWithFront]
        split_ifs with hmem
        · exact hhead (contains_iff_mem.mp hmem)
        · rfl
    · refine (hagain _).mpr fun slot => ?_
      rw [chooses_congr fun other => written_bootVarName faults s other num _]
      exact hwell.seen hset slot

end Path

/-- Self-install does what it is for exactly where the location has no path for the entry, or the
scan finds no reason to write and a second one does not either, or what it writes is written well.
-/
theorem ensureNamedBootEntry_installs_iff (faults : Faults) (location : Location)
    (installFilePath description : Text) (s : VariableStore) :
    Installs faults description
        (ensureNamedBootEntry faults location installFilePath description) s ↔
      ∀ dpBytes, devicePath location installFilePath = .ok dpBytes →
        (∀ num, Chooses faults s.calls s.vars description num →
          WritesWell faults description s num (newOption description dpBytes)) ∧
        ((∀ num, ¬ Chooses faults s.calls s.vars description num) →
          ∀ num, ¬ Chooses faults (s.calls + 256) s.vars description num) := by
  cases hpath : devicePath location installFilePath with
  | error outcome => exact iff_of_true (installs_of_no_path hpath) nofun
  | ok dpBytes =>
    simp only [ok.injEq, forall_eq']
    by_cases h : ∃ num, Chooses faults s.calls s.vars description num
    · obtain ⟨num, h⟩ := h
      have hwritten : Installs faults description
          (ensureNamedBootEntry faults location installFilePath description) s ↔
            WritesWell faults description s num (newOption description dpBytes) := by
        cases hset : faults.setFails (s.calls + 256) (bootVarName num) with
        | true => exact installs_of_refused_iff hpath h hset
        | false => exact installs_of_written_iff hpath h hset
      rw [hwritten]
      constructor
      · intro hwell
        refine ⟨fun num' h' => ?_, fun hnone => absurd h (hnone num)⟩
        rwa [h'.unique h]
      · exact fun hwell => hwell.1 num h
    · push Not at h
      rw [installs_of_not_chooses_iff hpath h]
      exact ⟨fun hsettled => ⟨fun num h' => absurd h' (h num), fun _ => hsettled⟩,
        fun hsettled => hsettled.2 h⟩

end Run

def VariableStore.ofVars (vars : List (Text × Bytes)) : VariableStore :=
  ⟨fun name => vars.lookup name, 0, []⟩

def Faults.none : Faults := ⟨fun _ _ => false, fun _ _ => false⟩

def Faults.ofGet (name : Text) : Faults := ⟨fun _ name' => name' == name, fun _ _ => false⟩

def selfInstall (faults : Faults) (s : VariableStore) : SelfInstall × VariableStore :=
  ensureNamedBootEntry faults (.partition []) "\\EFI\\LamBoot\\lambootx64.efi" "LamBoot" s

def entryBeyond : VariableStore :=
  .ofVars [(bootVarName 0x100, encodeLoadOption loadOptionActive "LamBoot" [] [])]

/-- An unreadable entry is replaced, and an order is lost; with a missing entry in the order the new
one is not in front; and an entry beyond the scanned ones doubles the description. -/
theorem selfInstall_overwrites :
    (selfInstall (.ofGet (bootVarName 0)) (.ofVars [(bootVarName 0, [7])])).2.vars
        (bootVarName 0) ≠ some [7] ∧
      bootOrder (selfInstall (.ofGet bootOrderName)
        (.ofVars [(bootOrderName, encodeBootOrder [5, 6])])).2.vars = [0] ∧
      bootOrder (selfInstall .none
        (.ofVars [(bootOrderName, encodeBootOrder [5, 0])])).2.vars = [5, 0] ∧
      Carries (selfInstall .none entryBeyond).2.vars "LamBoot" 0 ∧
      Carries (selfInstall .none entryBeyond).2.vars "LamBoot" 0x100 := by
  decide +kernel

end LamBoot.BootEntry
