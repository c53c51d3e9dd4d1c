import LamBoot.Boot.Routes
import LamBoot.Main.Loop

/-!
# From selection to handoff

What a pass of the loop does between the selection of an entry and the start of its image: the
extensions of the register for the command line, by the loop and once more by the attempt, and the
flushes of the trust log, all but one of which respect the quirk of firmware that console output
breaks.
-/

namespace LamBoot

open List Text Traced BootContext Option

namespace LoopConfig

variable {cfg : LoopConfig} {w : World} {s : LoopState} {selection : BootEntry}

/-! ### The register for the command line -/

def cmdline : EntryKind → Option Text
  | .uki _ options | .linuxLegacy _ _ options => some options
  | .chainload _ | .iso _ => none

def cmdlineExtension : LoopEffect → Option Bytes
  | .boot (.extend 12 data true) => some data
  | _ => none

def pcrValue (hash : Bytes → Bytes) (initial : Bytes) (extensions : List Bytes) : Bytes :=
  extensions.foldl (fun value data => hash (value ++ hash data)) initial

/-- Register 12 is extended once, with the command line, so its value is what that makes of the
value it had. -/
def ExtendedOnce (options : Text) (trace : List LoopEffect) : Prop :=
  trace.filterMap cmdlineExtension = [cmdlineData options] ∧
    ∀ hash initial, pcrValue hash initial (trace.filterMap cmdlineExtension) =
      hash (initial ++ hash (cmdlineData options))

lemma extendedOnce_iff {options : Text} {trace : List LoopEffect} :
    ExtendedOnce options trace ↔ trace.filterMap cmdlineExtension = [cmdlineData options] := by
  refine ⟨fun h => h.1, fun h => ⟨h, fun hash initial => ?_⟩⟩
  rw [h]
  rfl

lemma updateBootCount_extension (selection : BootEntry) (nv : Nvram) :
    (updateBootCount w s selection nv).1.filterMap cmdlineExtension = [] := by
  refine filterMap_eq_nil_iff.mpr fun e he => ?_
  rcases updateBootCount_effects w s selection nv he with
    ⟨_, _, rfl⟩ | ⟨_, _, _, rfl⟩ | ⟨_, _, _, _, rfl⟩ | ⟨_, _, rfl⟩ <;> rfl

lemma announce_extension (selection : BootEntry) :
    (cfg.announce selection).filterMap cmdlineExtension = [] := by
  unfold announce
  split <;> rfl

lemma Tail.extension {tail : List LoopEffect} (h : cfg.Tail w selection tail) :
    tail.filterMap cmdlineExtension = [] := by
  rcases h with rfl | ⟨status, rfl⟩ | rfl <;> rfl

lemma measureSelection_extension {options : Text} (hoptions : cmdline selection.kind = some options)
    (htpm : ∀ pcr data, w.platform.hashLogExtend pcr data = true) :
    (measureSelection w selection).filterMap cmdlineExtension = [cmdlineData options] := by
  unfold measureSelection
  cases hkind : selection.kind with
  | chainload | iso =>
    rw [hkind] at hoptions
    cases hoptions
  | uki path options' =>
    rw [hkind] at hoptions
    obtain rfl : options' = options := some.inj hoptions
    simp only [htpm]
    rfl
  | linuxLegacy kernelPath initrdPaths options' =>
    rw [hkind] at hoptions
    obtain rfl : options' = options := some.inj hoptions
    simp only [htpm]
    rfl

end LoopConfig

namespace BootContext

variable {ctx : BootContext} {fromUtf8Lossy : Bytes → Text} {volumes : List Volume}
  {entry : BootEntry} {img : Image}

lemma options_of_imageFor {options : Text}
    (hoptions : LoopConfig.cmdline entry.kind = some options)
    (h : ctx.imageFor fromUtf8Lossy volumes entry = some img) : img.options = options := by
  unfold imageFor at h
  split at h
  · cases h
  · cases h
  · next hkind =>
    rw [hkind] at hoptions
    obtain ⟨bytes, -, himg⟩ := bind_eq_some_iff.mp h
    rw [← some.inj himg, ← some.inj hoptions]
  · next hkind =>
    rw [hkind] at hoptions
    obtain ⟨⟨i, v, resolved⟩, -, h⟩ := bind_eq_some_iff.mp h
    obtain ⟨bytes, -, himg⟩ := bind_eq_some_iff.mp h
    rw [← some.inj himg, ← some.inj hoptions]
  · next hkind =>
    rw [hkind] at hoptions
    cases hoptions
  · next hkind =>
    rw [hkind] at hoptions
    cases hoptions

end BootContext

namespace LoopConfig

variable {cfg : LoopConfig} {w : World} {s : LoopState} {selection : BootEntry} {options : Text}

lemma filterMap_cmdlineExtension_boot (trace : List Effect) :
    (trace.map LoopEffect.boot).filterMap cmdlineExtension =
      (trace.filterMap Effect.extension).filterMap fun x =>
        cmdlineExtension (.boot (.extend x.1 x.2.1 x.2.2)) := by
  rw [filterMap_map, filterMap_filterMap]
  refine filterMap_congr fun e _ => ?_
  cases e <;> rfl

/-- A command line that is not empty is measured once by the loop, and once more where an image is
found, so a pass measures it once exactly where it finds no image and hands nothing over. -/
theorem extendedOnce_pass_iff (hsel : cfg.selection w s = some selection)
    (hreport : w.writeBootReport = .ok ()) (hoptions : cmdline selection.kind = some options)
    (hne : options ≠ []) (htpm : ∀ pcr data, w.platform.hashLogExtend pcr data = true) :
    ExtendedOnce options (cfg.pass w s).trace ↔
      (cfg.bootContext w).imageFor cfg.fromUtf8Lossy (volumesAtBoot w s) selection = none := by
  have hkind : ∀ path, selection.kind ≠ .chainload path := by
    intro path hpath
    rw [hpath] at hoptions
    cases hoptions
  obtain ⟨nv, tail, htail, htrace⟩ := pass_trace hsel hreport
  have hpass : (cfg.pass w s).trace.filterMap cmdlineExtension =
      cmdlineData options ::
        ((cfg.attempt w s selection).trace.filterMap Effect.extension).filterMap fun x =>
          cmdlineExtension (.boot (.extend x.1 x.2.1 x.2.2)) := by
    rw [htrace]
    simp only [filterMap_append, updateBootCount_extension, announce_extension,
      htail.extension, measureSelection_extension hoptions htpm, filterMap_cmdlineExtension_boot,
      nil_append, append_nil, singleton_append]
  rw [extendedOnce_iff, hpass]
  cases himage : (cfg.bootContext w).imageFor cfg.fromUtf8Lossy (volumesAtBoot w s) selection with
  | none =>
    rw [attempt, extensions_of_no_image hkind himage]
    simp
  | some img =>
    have himg : img.options = options := options_of_imageFor hoptions himage
    have htpm' : ∀ pcr data, (cfg.bootContext w).platform.hashLogExtend pcr data = true := htpm
    rw [attempt, extensions_of_image himage]
    simp [measurements, measurement, himg, hne, Effect.extension, htpm', cmdlineExtension]

def quietEntry : BootEntry :=
  { ukiEntry with kind := .uki "\\EFI\\Linux\\a.efi" "quiet" }

/-- Where the image cannot be read, the command line is measured by the loop alone. -/
theorem extendedOnce_without_image :
    let w := { World.accepting quietEntry none with
      contentsAtBoot _ := { Volume.uniform [1] with read _ := .error .notFound } }
    ExtendedOnce "quiet" (LoopConfig.default.pass w (.discovered 0 false .blank)).trace :=
  (extendedOnce_pass_iff rfl rfl rfl (by decide) fun _ _ => rfl).mpr rfl

/-- Where it is read and started, register 12 is extended twice. -/
theorem extended_twice :
    let trace := (LoopConfig.default.pass (.accepting quietEntry none)
      (.discovered 0 false .blank)).trace
    .boot (.startNative [1] none) ∈ trace ∧
      trace.filterMap cmdlineExtension = [cmdlineData "quiet", cmdlineData "quiet"] ∧
      ¬ ExtendedOnce "quiet" trace := by
  intro trace
  have htwice : trace.filterMap cmdlineExtension = [cmdlineData "quiet", cmdlineData "quiet"] := by
    decide +kernel
  refine ⟨by decide +kernel, htwice, fun h => ?_⟩
  rw [ExtendedOnce, htwice] at h
  exact absurd h.1 (by decide)

/-! ### Flushes before a start -/

/-- The log is written before an image is started. -/
def FlushesBeforeStart (trace : List LoopEffect) : Prop :=
  ∃ before e after, trace = before ++ .boot e :: after ∧ e.Starts ∧ .boot .flush ∈ before

/-- An image is started by the firmware: it is ready, handed to the firmware, and loaded there. -/
def StartsByFirmware (cfg : LoopConfig) (w : World) (s : LoopState) (selection : BootEntry) :
    Prop :=
  ∃ img, (cfg.bootContext w).Ready cfg.fromUtf8Lossy (volumesAtBoot w s) selection img ∧
    (cfg.bootContext w).AsksFirmware img ∧ (cfg.bootContext w).LoadsImage img

section Coupled

variable (hcoupling : cfg.conoutFatCoupling = true)

include hcoupling

lemma startsByFirmware_of_flush
    (h : .flush ∈ (cfg.attempt w s selection).trace) :
    (∀ path, selection.kind ≠ .chainload path) ∧ cfg.StartsByFirmware w s selection := by
  have hopening : ¬ Effect.flush.Opening (cfg.bootContext w).conoutFatCoupling := by
    rintro (hfalse : cfg.conoutFatCoupling = false)
    rw [hcoupling] at hfalse
    cases hfalse
  have hflushes : (cfg.bootContext w).flushes = [] := if_pos hcoupling
  have hkind : ∀ path, selection.kind ≠ .chainload path := by
    intro path hpath
    cases chainloadEffect_of_mem _ hpath h with
    | read h => cases h
    | measurement bytes h => rcases mem_pair.mp h with h | h <;> cases h
    | loadImage image loaded h => cases h
    | loaded esp hesp bytes hread hload h =>
      rcases h with h | h | h
      · cases h
      · rw [hflushes] at h
        cases h
      · cases h
  obtain ⟨img, hready, ⟨-, -, -, h⟩ | ⟨hasks, ⟨loaded, h⟩ | ⟨hloads, -⟩⟩⟩ :=
    start_of_mem _ hkind h hopening nofun rfl nofun nofun
  · cases h
  · cases h
  · exact ⟨hkind, img, hready, hasks, hloads⟩

lemma not_flush_before_attempt (nv : Nvram) :
    .boot .flush ∉ (updateBootCount w s selection nv).1 ++ measureSelection w selection ++
      cfg.announce selection := by
  have hcount : .boot .flush ∉ (updateBootCount w s selection nv).1 := by
    intro hmem
    rcases updateBootCount_effects w s selection nv hmem with
      ⟨_, _, h⟩ | ⟨_, _, _, h⟩ | ⟨_, _, _, _, h⟩ | ⟨_, _, h⟩ <;> cases h
  have hmeasure : .boot .flush ∉ measureSelection w selection := by
    unfold measureSelection
    split <;> simp
  simp [hcount, hmeasure, announce, hcoupling]

omit hcoupling in
lemma Tail.not_starts {tail : List LoopEffect} (h : cfg.Tail w selection tail) {e : Effect}
    (he : .boot e ∈ tail) : ¬ e.Starts := by
  rcases h with rfl | ⟨status, rfl⟩ | rfl
  · cases he
  · exact reportFailure_aside cfg w selection status _ he
  · simp at he

omit hcoupling in
lemma flushesBeforeStart_of_startsByFirmware (hsel : cfg.selection w s = some selection)
    (hreport : w.writeBootReport = .ok ()) (h : cfg.StartsByFirmware w s selection) :
    FlushesBeforeStart (cfg.pass w s).trace := by
  obtain ⟨img, hready, hasks, hloads⟩ := h
  obtain ⟨nv, tail, -, htrace⟩ := pass_trace hsel hreport
  obtain ⟨past, -, heq⟩ := bootEntry_of_image_ready _ hready
  obtain ⟨q, -, hstart⟩ := startVerified_of_asksFirmware _ ((cfg.bootContext w).via img.bytes) hasks
  obtain ⟨earlier, hattempt⟩ : ∃ earlier : List Effect, (cfg.attempt w s selection).trace =
      earlier ++ [.flush, .startImage ((cfg.bootContext w).loadedImage img)
        (cfg.bootContext w).platform.startImage] := by
    rw [attempt, heq, hstart, firmwareRoute_of_loads _ hloads]
    exact ⟨past ++ q ++ [.record ((cfg.bootContext w).legacyEvent img),
      .loadImage ((cfg.bootContext w).loadedImage img) true, .record (loadedFirmwareEvent img)],
      by simp [trace_startLoaded]⟩
  refine ⟨(updateBootCount w s selection nv).1 ++ measureSelection w selection ++
    cfg.announce selection ++ earlier.map .boot ++ [.boot .flush],
    .startImage ((cfg.bootContext w).loadedImage img) (cfg.bootContext w).platform.startImage,
    tail, ?_, trivial, by simp⟩
  rw [htrace, hattempt]
  simp

/-- Where console output breaks the FAT driver, a pass flushes the trust log before it starts an
image exactly where the firmware starts a kernel, a UKI or an ISO kernel. -/
theorem not_flushesBeforeStart_iff :
    ¬ FlushesBeforeStart (cfg.pass w s).trace ↔
      ∀ selection, cfg.selection w s = some selection → w.writeBootReport = .ok () →
        (∃ path, selection.kind = .chainload path) ∨ ¬ cfg.StartsByFirmware w s selection := by
  constructor
  · intro h selection hsel hreport
    exact .inr fun hstarts => h (flushesBeforeStart_of_startsByFirmware hsel hreport hstarts)
  · rintro h ⟨before, e, after, htrace, hstarts, hflush⟩
    by_cases hattempt : ∃ selection, cfg.selection w s = some selection ∧
        w.writeBootReport = .ok ()
    · obtain ⟨selection, hsel, hreport⟩ := hattempt
      obtain ⟨nv, tail, htail, hpass⟩ := pass_trace hsel hreport
      rw [hpass] at htrace
      -- The start is not in the tail, so all that precedes it precedes the tail.
      have hbefore : .boot .flush ∈ (updateBootCount w s selection nv).1 ++
          measureSelection w selection ++ cfg.announce selection ++
          (cfg.attempt w s selection).trace.map .boot := by
        rcases append_eq_append_iff.mp htrace with ⟨rest, hrest, htailrest⟩ | ⟨rest, hrest, -⟩
        · refine absurd hstarts (htail.not_starts ?_)
          rw [htailrest]
          simp
        · rw [hrest]
          exact mem_append_left _ hflush
      rcases mem_append.mp hbefore with hmem | hmem
      · exact not_flush_before_attempt hcoupling nv hmem
      · obtain ⟨e', hmem', he'⟩ := mem_map.mp hmem
        obtain rfl : e' = .flush := LoopEffect.boot.inj he'
        obtain ⟨hkind, hfirmware⟩ := startsByFirmware_of_flush hcoupling hmem'
        rcases h selection hsel hreport with ⟨path, hpath⟩ | hnot
        · exact hkind path hpath
        · exact hnot hfirmware
    · have hnil := (cfg.pass_of_no_attempt w s fun selection hsel hreport =>
        hattempt ⟨selection, hsel, hreport⟩).1
      rw [hnil] at htrace
      simp at htrace

end Coupled

/-- On a machine that accepts everything, a kernel is started natively without a flush before. -/
theorem kernel_not_flushed_before_start :
    let cfg := { LoopConfig.default with conoutFatCoupling := true }
    ¬ FlushesBeforeStart
      (cfg.pass (.accepting kernelEntry none) (.discovered 0 false .blank)).trace := by
  refine (not_flushesBeforeStart_iff rfl).mpr fun selection hsel _ => .inr ?_
  obtain rfl : kernelEntry = selection := some.inj hsel
  rintro ⟨img, hready, hroute | ⟨-, hfails⟩, -⟩
  · cases hroute
  · obtain rfl : ⟨[1], "\\vmlinuz", [], "fat",
        some "kernel_native_load_fallback"⟩ = img := some.inj hready.image
    exact hfails ⟨.inl rfl, rfl⟩ rfl

/-- Where the policy is never to load natively, the log is flushed before the kernel is started, in
spite of the quirk. -/
theorem kernel_flushed_before_start :
    let cfg := { LoopConfig.default with
      policy := { loaderNativePe := .never }, conoutFatCoupling := true }
    FlushesBeforeStart
      (cfg.pass (.accepting kernelEntry none) (.discovered 0 false .blank)).trace := by
  intro cfg
  have hsel : cfg.selection (.accepting kernelEntry none) (.discovered 0 false .blank) =
      some kernelEntry := rfl
  refine flushesBeforeStart_of_startsByFirmware hsel rfl ?_
  have haccepts : (cfg.bootContext (.accepting kernelEntry none)).Accepts [1] := by
    intro hshim
    cases hshim
  have hinitrds : (cfg.bootContext (.accepting kernelEntry none)).InitrdsReadable
      (volumesAtBoot (.accepting kernelEntry none) (.discovered 0 false .blank))
      kernelEntry.kind := by
    intro path hpath
    cases hpath
  exact ⟨⟨[1], "\\vmlinuz", [], "fat", some "kernel_native_load_fallback"⟩,
    ⟨rfl, haccepts, hinitrds⟩, .inl rfl, rfl, .inl rfl⟩

end LoopConfig

end LamBoot
