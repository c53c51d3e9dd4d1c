import LamBoot.Boot.Outcome
import LamBoot.Health

/-!
# The menu loop

The loop of `run_bootloader` in `main.rs`: an entry is selected, recorded, measured and booted, and
where it was a tool the loop starts again. A volume is named by its index at the discovery; what the
volumes hold, and what the firmware answers during one pass, is given by a `World`.
-/

namespace LamBoot

open List Text Traced

/-! ### The state of the loop -/

/-- What does not change while the loop runs. -/
structure LoopConfig where
  entries : List BootEntry
  policy : Policy
  lower : Lowercase
  fromUtf8Lossy : Bytes → Text
  /-- `format!("\x7b:?\x7d")` of an entry's kind and of a status. -/
  debugKind : EntryKind → Text
  debugStatus : Status → Text
  conoutFatCoupling : Bool
  sbState : SecureBootState

/-- What the machine answers during one pass. -/
structure World where
  /-- The menu, under the policy it is shown with. -/
  menu : Policy → Except Status BootEntry
  writeBootReport : Except Status Unit
  /-- What each volume holds, and what it holds when the entry is booted. -/
  contents : Nat → Volume
  contentsAtBoot : Nat → Volume
  /-- Whether a file of the entries directory can be renamed. -/
  rename : Nat → Text → Text → Bool
  platform : Platform
  memory : ImageMemory
  /-- The counters of the security override, as they are noted with a failure. -/
  overrideNote : Text
  writable : Writable
  now : Option EfiTime

/-- The variables the loop carries from one pass to the next. -/
structure LoopState where
  esp : Nat
  extraVolumes : List Nat
  inCrashLoop : Bool
  nvram : Nvram

/-- The state after the discovery of the entries, with `n` volumes beside the ESP. Taking the ESP
off the list with `remove` has kept their order. -/
def LoopState.discovered (n : Nat) (inCrashLoop : Bool) (nvram : Nvram) : LoopState where
  esp := 0
  extraVolumes := List.range' 1 n
  inCrashLoop
  nvram

def LoopState.volumes (s : LoopState) : List Nat :=
  s.esp :: s.extraVolumes

/-- What a pass does. Effects of the boot attempt are among them. -/
inductive LoopEffect where
  | boot (effect : Effect)
  | readEntry (volume : Nat) (path : Text)
  | measureEntry (volume : Nat) (content : Bytes) (extended : Bool)
  | renameEntry (volume : Nat) (filename newFilename : Text) (renamed : Bool)
  | markBootSuccess
deriving DecidableEq, Repr

/-- How a pass ends. -/
inductive Ending where
  | again (s : LoopState)
  | returned (result : Except Status Status)
  | handedOver
  | rebootToFirmwareSetup

structure Pass where
  trace : List LoopEffect
  nvram : Nvram
  ending : Ending

/-! ### Selection -/

def selectFallback (entries : List BootEntry) (policy : Policy) : Option BootEntry :=
  policy.fallbackOrder.findSome? fun fallbackId => entries.find? fun e => e.id = fallbackId

/-- The first entry that is no tool and passed preflight, else the first that is no tool. -/
def selectCrashRecoveryEntry (entries : List BootEntry) : Option BootEntry :=
  (entries.find? fun e => e.icon ≠ .tools ∧ e.preflight ≠ some .error).or
    (entries.find? fun e => e.icon ≠ .tools)

def recoveryPolicy (policy : Policy) (entry : BootEntry) : Policy :=
  { policy with defaultTimeoutMs := 8000, defaultEntry := some entry.id, defaultPattern := none }

namespace LoopConfig

variable (cfg : LoopConfig) (w : World) (s : LoopState)

def menuResult : Except Status BootEntry :=
  if s.inCrashLoop then
    match selectFallback cfg.entries cfg.policy with
    | some entry => .ok entry
    | none =>
      match selectCrashRecoveryEntry cfg.entries with
      | some entry => w.menu (recoveryPolicy cfg.policy entry)
      | none => w.menu cfg.policy
  else w.menu cfg.policy

/-- The entry a pass boots. Where the menu fails and there is nothing to boot, the machine is sent
to the firmware setup. -/
def selection : Option BootEntry :=
  match cfg.menuResult w s with
  | .ok entry => some entry
  | .error _ => selectCrashRecoveryEntry cfg.entries

end LoopConfig

def LoopState.sourceVolume (s : LoopState) (index : Nat) : Nat :=
  if index = 0 then s.esp else s.extraVolumes.getD (index - 1) s.esp

/-! ### The steps of a pass -/

/-- `Vec::swap_remove(0)` on the elements `a :: as`: the first is taken out and the last one put in
its place. -/
def swapRemoveFirst {α : Type} (a : α) (as : List α) : α × List α :=
  match as.getLast? with
  | none => (a, [])
  | some last => (a, last :: as.dropLast)

namespace LoopConfig

variable (cfg : LoopConfig) (w : World) (s : LoopState)

def updateBootCount (selection : BootEntry) (nv : Nvram) : List LoopEffect × Nvram :=
  match selection.blsFilename with
  | none => ([], nv)
  | some blsFile =>
    let volume := s.sourceVolume selection.sourceVolumeIndex
    let blsPath := "/loader/entries/" ++ blsFile
    let backend := (w.contents volume).backendTag
    match (w.contents volume).readToStringStr blsPath with
    | .error _ => ([.readEntry volume blsPath], nv)
    | .ok content =>
      let measured : List LoopEffect :=
        [.readEntry volume blsPath,
          .measureEntry volume (utf8 content) (w.platform.hashLogExtend 5 (utf8 content))]
      match BlsEntry.parse blsFile content with
      | none => (measured, nv)
      | some blsEntry =>
        if blsEntry.triesLeft = none then (measured, nv)
        else if backend = "fat" then
          match blsEntry.decrementedFilename with
          | none => (measured, nv)
          | some newFilename =>
            let renamed := w.rename volume blsEntry.filename newFilename
            let trace := measured ++ [.renameEntry volume blsEntry.filename newFilename renamed]
            if renamed then
              (trace, (setBootCountPath w.writable
                ("\\loader\\entries\\" ++ newFilename) nv).2)
            else (trace, nv)
        else
          (measured ++ [.boot (.record
            { event := "boot_counter_skipped_ro", path := blsFile,
              note := "vol_idx=" ++ decimal selection.sourceVolumeIndex ++
                " backend=" ++ backend })], nv)

def measureSelection (selection : BootEntry) : List LoopEffect :=
  match selection.kind with
  | .uki _ options | .linuxLegacy _ _ options =>
    let data := (utf16 options).flatMap Bytes.le16
    [.boot (.extend 12 data (w.platform.hashLogExtend 12 data))]
  | .chainload _ | .iso _ => []

def announce (selection : BootEntry) : List LoopEffect :=
  [.boot (.record
      { event := "entry_selected", path := selection.name,
        note := "id=" ++ selection.id }),
    .boot (.record
      { event := "boot_attempt", path := selection.name,
        note := "id=" ++ selection.id ++ " kind=" ++
          cfg.debugKind selection.kind })] ++
  if cfg.conoutFatCoupling then [] else [.boot .flush]

def bootContext : BootContext where
  platform := w.platform
  memory := w.memory
  lower := cfg.lower
  nativePe := cfg.policy.loaderNativePe
  conoutFatCoupling := cfg.conoutFatCoupling
  sbState := cfg.sbState

def volumesAtBoot : List Volume :=
  s.volumes.map w.contentsAtBoot

def attempt (selection : BootEntry) : Attempt Status :=
  (cfg.bootContext w).bootEntry cfg.fromUtf8Lossy (volumesAtBoot w s) selection

def reportFailure (selection : BootEntry) (status : Status) : List LoopEffect :=
  [.boot (.record
    { event := "kernel_load_failed", path := selection.name, status := cfg.debugStatus status,
      note := w.overrideNote }), .boot .flush]

def afterTool (nv : Nvram) : Ending :=
  let (esp, extraVolumes) := swapRemoveFirst s.esp s.extraVolumes
  .again { esp, extraVolumes, inCrashLoop := false, nvram := nv }

def finish (selection : BootEntry) (trace : List LoopEffect) (nv : Nvram)
    (result : Except Exit Status) : Pass :=
  match result with
  | .error .handedOver => { trace, nvram := nv, ending := .handedOver }
  | .error (.error status) =>
    let trace := trace ++ cfg.reportFailure w selection status
    if selection.icon = .tools then { trace, nvram := nv, ending := afterTool s nv }
    else { trace, nvram := nv, ending := .returned (.error status) }
  | .ok status =>
    if selection.icon = .tools then { trace, nvram := nv, ending := afterTool s nv }
    else
      { trace := trace ++ [.markBootSuccess],
        nvram := (markBootSuccess w.writable w.now nv).2, ending := .returned (.ok status) }

def pass : Pass :=
  match cfg.selection w s with
  | none => { trace := [], nvram := s.nvram, ending := .rebootToFirmwareSetup }
  | some selection =>
    let nv := (recordBootEntry w.writable selection.id s.nvram).2
    match w.writeBootReport with
    | .error status => { trace := [], nvram := nv, ending := .returned (.error status) }
    | .ok () =>
      let (counted, nv) := updateBootCount w s selection nv
      let attempt := cfg.attempt w s selection
      cfg.finish w s selection
        (counted ++ measureSelection w selection ++ cfg.announce selection ++
          attempt.trace.map .boot) nv attempt.result

def passes : LoopState → List World → List (LoopState × World)
  | _, [] => []
  | s, w :: ws =>
    (s, w) ::
      match (cfg.pass w s).ending with
      | .again s' => passes s' ws
      | _ => []

/-! ### The cases of a pass -/

def Aside : LoopEffect → Prop
  | .boot e => ¬ e.Starts
  | .readEntry _ _ | .measureEntry _ _ _ | .renameEntry _ _ _ _ => True
  | .markBootSuccess => False

lemma updateBootCount_effects (selection : BootEntry) (nv : Nvram) {e : LoopEffect}
    (he : e ∈ (updateBootCount w s selection nv).1) :
    (∃ volume path, e = .readEntry volume path) ∨
      (∃ volume content extended, e = .measureEntry volume content extended) ∨
      (∃ volume filename newFilename renamed,
        e = .renameEntry volume filename newFilename renamed) ∨
      ∃ path note, e = .boot (.record { event := "boot_counter_skipped_ro", path, note }) := by
  unfold updateBootCount at he
  split at he
  · cases he
  · dsimp only at he
    split at he
    · exact .inl ⟨_, _, mem_singleton.mp he⟩
    · have hmeasured : ∀ {volume path content extended},
          e ∈ [LoopEffect.readEntry volume path, .measureEntry volume content extended] →
          (∃ volume path, e = .readEntry volume path) ∨
            (∃ volume content extended, e = .measureEntry volume content extended) := by
        intro volume path content extended h
        rcases mem_pair.mp h with h | h
        · exact .inl ⟨_, _, h⟩
        · exact .inr ⟨_, _, _, h⟩
      split at he
      · exact (hmeasured he).imp_right .inl
      · split at he
        · exact (hmeasured he).imp_right .inl
        · split at he
          · split at he
            · exact (hmeasured he).imp_right .inl
            · split at he <;> rcases mem_append.mp he with he | he
              · exact (hmeasured he).imp_right .inl
              · exact .inr (.inr (.inl ⟨_, _, _, _, mem_singleton.mp he⟩))
              · exact (hmeasured he).imp_right .inl
              · exact .inr (.inr (.inl ⟨_, _, _, _, mem_singleton.mp he⟩))
          · rcases mem_append.mp he with he | he
            · exact (hmeasured he).imp_right .inl
            · exact .inr (.inr (.inr ⟨_, _, mem_singleton.mp he⟩))

lemma updateBootCount_sameHealth (selection : BootEntry) (nv : Nvram) :
    SameHealth nv (updateBootCount w s selection nv).2 := by
  unfold updateBootCount
  split
  · exact .refl nv
  · dsimp only
    split
    · exact .refl nv
    · split
      · exact .refl nv
      · split
        · exact .refl nv
        · split
          · split
            · exact .refl nv
            · split
              · exact sameHealth_setBootCountPath _ _ nv
              · exact .refl nv
          · exact .refl nv

lemma updateBootCount_aside (selection : BootEntry) (nv : Nvram) :
    (∀ e ∈ (updateBootCount w s selection nv).1, Aside e) ∧
      SameHealth nv (updateBootCount w s selection nv).2 := by
  refine ⟨fun e he => ?_, updateBootCount_sameHealth w s selection nv⟩
  rcases updateBootCount_effects w s selection nv he with
    ⟨_, _, rfl⟩ | ⟨_, _, _, rfl⟩ | ⟨_, _, _, _, rfl⟩ | ⟨_, _, rfl⟩
  · trivial
  · trivial
  · trivial
  · exact id

lemma measureSelection_aside (selection : BootEntry) :
    ∀ e ∈ measureSelection w selection, Aside e := by
  unfold measureSelection
  split <;> simp [Aside, Effect.Starts]

lemma announce_aside (selection : BootEntry) : ∀ e ∈ cfg.announce selection, Aside e := by
  unfold announce
  split <;> simp [Aside, Effect.Starts]

lemma reportFailure_aside (selection : BootEntry) (status : Status) :
    ∀ e ∈ cfg.reportFailure w selection status, Aside e := by
  simp [reportFailure, Aside, Effect.Starts]

variable {cfg w s} in
lemma pass_of_selection {selection : BootEntry} (hsel : cfg.selection w s = some selection)
    (hreport : w.writeBootReport = .ok ()) :
    ∃ before nv, (∀ e ∈ before, Aside e) ∧ SameHealth s.nvram nv ∧
      cfg.pass w s = cfg.finish w s selection
        (before ++ (cfg.attempt w s selection).trace.map .boot) nv
        (cfg.attempt w s selection).result := by
  obtain ⟨hcount, hhealth⟩ := updateBootCount_aside w s selection
    (recordBootEntry w.writable selection.id s.nvram).2
  refine ⟨(updateBootCount w s selection (recordBootEntry w.writable selection.id s.nvram).2).1 ++
    measureSelection w selection ++ cfg.announce selection, _, ?_,
    (sameHealth_recordBootEntry w.writable selection.id s.nvram).trans hhealth, ?_⟩
  · intro e he
    simp only [mem_append] at he
    rcases he with (he | he) | he
    · exact hcount e he
    · exact measureSelection_aside w selection e he
    · exact cfg.announce_aside selection e he
  · unfold pass
    rw [hsel]
    dsimp only
    rw [hreport]

/-- What follows an attempt: nothing, the report of a failure, or the mark of a success. -/
def Tail (selection : BootEntry) (tail : List LoopEffect) : Prop :=
  tail = [] ∨ (∃ status, tail = cfg.reportFailure w selection status) ∨ tail = [.markBootSuccess]

variable {cfg w s} in
lemma pass_trace {selection : BootEntry} (hsel : cfg.selection w s = some selection)
    (hreport : w.writeBootReport = .ok ()) :
    ∃ nv tail, cfg.Tail w selection tail ∧ (cfg.pass w s).trace =
      (updateBootCount w s selection nv).1 ++ measureSelection w selection ++
        cfg.announce selection ++ (cfg.attempt w s selection).trace.map .boot ++ tail := by
  refine ⟨(recordBootEntry w.writable selection.id s.nvram).2, ?_⟩
  unfold pass
  rw [hsel]
  dsimp only
  rw [hreport]
  dsimp only
  unfold finish
  split
  · exact ⟨[], .inl rfl, (append_nil _).symm⟩
  · next status _ =>
    refine ⟨cfg.reportFailure w selection status, .inr (.inl ⟨status, rfl⟩), ?_⟩
    dsimp only
    split <;> rfl
  · split
    · exact ⟨[], .inl rfl, (append_nil _).symm⟩
    · exact ⟨[.markBootSuccess], .inr (.inr rfl), rfl⟩

lemma pass_of_no_attempt
    (h : ∀ selection, cfg.selection w s = some selection → w.writeBootReport ≠ .ok ()) :
    (cfg.pass w s).trace = [] ∧ ∀ s', (cfg.pass w s).ending ≠ .again s' := by
  unfold pass
  cases hsel : cfg.selection w s with
  | none => exact ⟨rfl, nofun⟩
  | some selection =>
    dsimp only
    cases hreport : w.writeBootReport with
    | error status => exact ⟨rfl, nofun⟩
    | ok => exact absurd hreport (h selection hsel)

end LoopConfig

/-! ### A machine that accepts everything -/

/-- The menu answers with `entry`, and what is started returns with `returned`. -/
def World.accepting (entry : BootEntry) (returned : Option Status) : World where
  menu _ := .ok entry
  writeBootReport := .ok ()
  contents _ := .uniform [1]
  contentsAtBoot _ := .uniform [1]
  rename _ _ _ := true
  platform := .accepting true returned
  memory := .stable
  overrideNote := []
  writable := .all
  now := none

def LoopConfig.default : LoopConfig where
  entries := []
  policy := {}
  lower := .asciiOnly
  fromUtf8Lossy _ := []
  debugKind _ := []
  debugStatus _ := []
  conoutFatCoupling := false
  sbState := .disabled

def toolEntry : BootEntry where
  id := "tool"
  name := "tool"
  kind := .chainload "\\tool.efi"
  icon := .tools

end LamBoot
