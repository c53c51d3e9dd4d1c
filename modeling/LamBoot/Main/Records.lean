import LamBoot.Boot.Routes
import LamBoot.Main.Loop

/-!
# Everything that is recorded

A run records events before its menu loop, at the sites of `main.rs`, `drivers.rs`, `bls.rs` and
`discovery.rs`, and then in each pass. Of those before the loop only the name, the token and the
absence of a digest are kept here.
-/

namespace LamBoot

open List Text Traced

/-- The sites that record before the loop. -/
inductive StartupSite where
  | bootStart
  | firmwareQuirksApplied
  | inputSubsystem
  | policyLoaded
  | policyInvalid
  | legacyDriverSkippedPolicy
  | nativeBackendPreferred
  | legacyDriverSkippedCovered
  | legacyDriverRedundant
  | legacyDriverLoaded
  | legacyDriverRejected
  | volumeMounted
  | xbootldrMountFailed
  | lvmProbePassStart
  | lvmPvProbe
  | lvmLvOpenFailed
  | lvmProbePassEnd
  | blsEntryReadFailed
  | blsEntryInvalid
  | blsEntriesFound
  | blsDuplicateFilename
  | cohortSplitDetected
  | isoOpticalDiscovered
  | entriesDiscovered
  | bootEntrySelfInstalled
  | bootEntrySelfInstallSkipped
  | bootEntrySelfInstallFailed
  | preflightIssue
deriving DecidableEq, Repr

namespace StartupSite

def event : StartupSite → Text
  | .bootStart => "boot_start"
  | .firmwareQuirksApplied => "firmware_quirks_applied"
  | .inputSubsystem => "input_subsystem"
  | .policyLoaded => "policy_loaded"
  | .policyInvalid => "policy_invalid"
  | .legacyDriverSkippedPolicy => "legacy_driver_skipped_policy"
  | .nativeBackendPreferred => "native_backend_preferred"
  | .legacyDriverSkippedCovered => "legacy_driver_skipped_covered"
  | .legacyDriverRedundant => "legacy_driver_redundant"
  | .legacyDriverLoaded => "legacy_driver_loaded"
  | .legacyDriverRejected => "legacy_driver_rejected"
  | .volumeMounted => "volume_mounted"
  | .xbootldrMountFailed => "xbootldr_mount_failed"
  | .lvmProbePassStart => "lvm_probe_pass_start"
  | .lvmPvProbe => "lvm_pv_probe"
  | .lvmLvOpenFailed => "lvm_lv_open_failed"
  | .lvmProbePassEnd => "lvm_probe_pass_end"
  | .blsEntryReadFailed => "bls_entry_read_failed"
  | .blsEntryInvalid => "bls_entry_invalid"
  | .blsEntriesFound => "bls_entries_found"
  | .blsDuplicateFilename => "bls_duplicate_filename"
  | .cohortSplitDetected => "cohort_split_detected"
  | .isoOpticalDiscovered => "iso_optical_discovered"
  | .entriesDiscovered => "entries_discovered"
  | .bootEntrySelfInstalled => "boot_entry_self_installed"
  | .bootEntrySelfInstallSkipped => "boot_entry_self_install_skipped"
  | .bootEntrySelfInstallFailed => "boot_entry_self_install_failed"
  | .preflightIssue => "preflight_issue"

def verifiedVia : StartupSite → Text
  | .legacyDriverLoaded => "security_override"
  | .legacyDriverRejected => "rejected"
  | _ => []

end StartupSite

/-- An event that a site before the loop records. -/
structure StartupEvent (ev : TrustEvent) : Prop where
  site : ∃ site : StartupSite, ev.event = site.event ∧ ev.verifiedVia = site.verifiedVia
  sha256Hex : ev.sha256Hex = []

/-- A run: what was recorded before the loop, and the passes of the loop. Digests have 32 bytes. -/
structure Run where
  startup : List TrustEvent
  startupEvents : ∀ ev ∈ startup, StartupEvent ev
  cfg : LoopConfig
  state : LoopState
  worlds : List World
  digests : ∀ w ∈ worlds, ∀ bytes, (w.platform.sha256 bytes).length = 32

def LoopEffect.recorded : LoopEffect → Option TrustEvent
  | .boot (.record ev) => some ev
  | _ => none

variable {ev : TrustEvent}

lemma recorded_eq_some {e : LoopEffect} :
    e.recorded = some ev ↔ e = .boot (.record ev) := by
  unfold LoopEffect.recorded
  split <;> simp_all

namespace Run

variable (run : Run)

def passes : List (LoopState × World) :=
  run.cfg.passes run.state run.worlds

def events : List TrustEvent :=
  run.startup ++ run.passes.flatMap fun p =>
    (run.cfg.pass p.2 p.1).trace.filterMap LoopEffect.recorded

end Run

namespace LoopConfig

variable (cfg : LoopConfig)

lemma world_mem_of_mem_passes (s : LoopState) (ws : List World) {p : LoopState × World}
    (hp : p ∈ cfg.passes s ws) : p.2 ∈ ws := by
  induction ws generalizing s with
  | nil => cases hp
  | cons w ws ih =>
    rw [passes] at hp
    rcases mem_cons.mp hp with rfl | hp
    · exact mem_cons_self
    · split at hp
      · exact mem_cons_of_mem w (ih _ hp)
      · cases hp

def passEvents : List Text :=
  ["boot_counter_skipped_ro", "entry_selected", "boot_attempt", "kernel_load_failed"]

variable {cfg} {w : World} {s : LoopState}

lemma recorded_of_pass (h : .boot (.record ev) ∈ (cfg.pass w s).trace) :
    (ev.event ∈ passEvents ∧ ev.sha256Hex = [] ∧ ev.verifiedVia = []) ∨
      ∃ selection, cfg.selection w s = some selection ∧ w.writeBootReport = .ok () ∧
        .record ev ∈ (cfg.attempt w s selection).trace := by
  by_cases hattempt : ∃ selection, cfg.selection w s = some selection ∧ w.writeBootReport = .ok ()
  · obtain ⟨selection, hsel, hreport⟩ := hattempt
    obtain ⟨nv, tail, htail, htrace⟩ := pass_trace hsel hreport
    rw [htrace] at h
    simp only [mem_append] at h
    rcases h with (((h | h) | h) | h) | h
    · rcases updateBootCount_effects w s selection nv h with
        ⟨_, _, h⟩ | ⟨_, _, _, h⟩ | ⟨_, _, _, _, h⟩ | ⟨_, _, h⟩
      · cases h
      · cases h
      · cases h
      · rw [Effect.record.inj (LoopEffect.boot.inj h)]
        exact .inl ⟨mem_of_getElem? (i := 0) rfl, rfl, rfl⟩
    · unfold measureSelection at h
      split at h <;> simp at h
    · simp only [announce, mem_append, mem_cons, not_mem_nil, or_false,
        LoopEffect.boot.injEq, Effect.record.injEq] at h
      rcases h with (rfl | rfl) | h
      · exact .inl ⟨mem_of_getElem? (i := 1) rfl, rfl, rfl⟩
      · exact .inl ⟨mem_of_getElem? (i := 2) rfl, rfl, rfl⟩
      · split_ifs at h <;> simp at h
    · obtain ⟨e, he, heq⟩ := mem_map.mp h
      exact .inr ⟨selection, hsel, hreport, LoopEffect.boot.inj heq ▸ he⟩
    · rcases htail with rfl | ⟨status, rfl⟩ | rfl
      · cases h
      · simp only [reportFailure, mem_cons, not_mem_nil, or_false,
          LoopEffect.boot.injEq, Effect.record.injEq, reduceCtorEq] at h
        rw [h]
        exact .inl ⟨mem_of_getElem? (i := 3) rfl, rfl, rfl⟩
      · simp at h
  · have hnil := (cfg.pass_of_no_attempt w s fun selection hsel hreport =>
      hattempt ⟨selection, hsel, hreport⟩).1
    rw [hnil] at h
    cases h

lemma recorded_of_attempt {selection : BootEntry} (hsel : cfg.selection w s = some selection)
    (hreport : w.writeBootReport = .ok ())
    (h : .record ev ∈ (cfg.attempt w s selection).trace) :
    .boot (.record ev) ∈ (cfg.pass w s).trace := by
  obtain ⟨nv, tail, -, htrace⟩ := pass_trace hsel hreport
  rw [htrace]
  exact mem_append_left _ (mem_append_right _ (mem_map.mpr ⟨_, h, rfl⟩))

end LoopConfig

namespace BootContext

def attemptEvents : List Text :=
  openingEvents ++ (["kernel_measured", "kernel_measurement_skipped", "cmdline_measured",
    "cmdline_measurement_skipped", "chainload_measured", "chainload_measurement_skipped",
    "image_verified", "image_load_failed", "kernel_native_load_fallback",
    "iso_native_load_fallback", "image_loaded_native", "legacy_loadimage_used",
    "image_loaded_firmware", "image_chainloaded"] : List Text)

variable {ctx : BootContext} {fromUtf8Lossy : Bytes → Text} {volumes : List Volume}
  {entry : BootEntry}

lemma event_mem_attemptEvents
    (h : .record ev ∈ (ctx.bootEntry fromUtf8Lossy volumes entry).trace) :
    ev.event ∈ attemptEvents := by
  have hrecord : ∀ {v : TrustEvent},
      v.event ∈ attemptEvents → ev = v → ev.event ∈ attemptEvents := by
    intro v hv h
    rwa [h]
  by_cases hkind : ∃ path, entry.kind = .chainload path
  · obtain ⟨path, hpath⟩ := hkind
    cases chainloadEffect_of_mem _ hpath h with
    | read h => cases h
    | measurement bytes h =>
      rcases ctx.measurement_form (P := (· ∈ attemptEvents)) (by decide) (by decide) h with
        h | ⟨_, h, hname, -⟩
      · exact absurd rfl h
      · rwa [Effect.record.inj h]
    | loadImage image loaded h => cases h
    | loaded esp hesp bytes hread hload h =>
      rcases h with h | h | h
      · exact hrecord (mem_of_getElem? (i := 18) rfl) (Effect.record.inj h)
      · cases (mem_flushes.mp h).1
      · cases h
  · push Not at hkind
    cases ctx.attemptRecord_of_mem hkind h with
    | opening h => exact mem_append_left _ h.event
    | measurement img himage h =>
      rcases ctx.measurements_form (P := (· ∈ attemptEvents)) (by decide) h with
        h | ⟨_, h, hname, -⟩
      · exact absurd rfl h
      · rwa [Effect.record.inj h]
    | verified img himage h => exact hrecord (mem_of_getElem? (i := 11) rfl) h
    | failure _ _ _ _ _ h => exact hrecord (mem_of_getElem? (i := 12) rfl) h
    | fallsBack _ _ _ hevent =>
      have hnames : ∀ event ∈ (["kernel_native_load_fallback", "iso_native_load_fallback"] :
          List Text), event ∈ attemptEvents := by
        decide
      exact hnames _ (mem_of_kindFallbackEvent hevent)
    | native _ _ _ h => exact hrecord (mem_of_getElem? (i := 15) rfl) h
    | firmware _ _ _ h =>
      rcases h with h | h
      · exact hrecord (mem_of_getElem? (i := 16) rfl) h
      · exact hrecord (mem_of_getElem? (i := 17) rfl) h

end BootContext

end LamBoot
