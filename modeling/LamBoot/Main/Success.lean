import LamBoot.Main.Loop

/-!
# Marking a boot successful

A pass marks the boot successful when its attempt ends well. The firmware route ends well only when
the image returned with success, but the native route passes on any status as a value, so an image
that was started natively and returned an error is marked as well.
-/

namespace LamBoot

open List Text Traced

/-- An image was started and returned with `status`, on either route. -/
def Returned (trace : List LoopEffect) (status : Status) : Prop :=
  ∃ image, .boot (.startNative image (some status)) ∈ trace ∨
    .boot (.startImage image (some status)) ∈ trace

namespace LoopConfig

variable (cfg : LoopConfig) (w : World) (s : LoopState)

/-- A boot is marked successful only when the image returned with success, and an image that
returned with anything else leaves the boot state and the crash counter as they were. -/
structure MarksOnlySuccess : Prop where
  marked : .markBootSuccess ∈ (cfg.pass w s).trace → Returned (cfg.pass w s).trace .success
  unmarked : ∀ status, status ≠ .success → Returned (cfg.pass w s).trace status →
    .markBootSuccess ∉ (cfg.pass w s).trace ∧
      getState (cfg.pass w s).nvram = getState s.nvram ∧
      getCrashCounter (cfg.pass w s).nvram = getCrashCounter s.nvram

/-- A natively started image returns an error. -/
def ReturnsErrorNatively : Prop :=
  ∃ selection img status, cfg.selection w s = some selection ∧ w.writeBootReport = .ok () ∧
    selection.icon ≠ .tools ∧
    (cfg.bootContext w).StartsNatively cfg.fromUtf8Lossy (volumesAtBoot w s) selection img ∧
    w.platform.startNative = some status ∧ status ≠ .success

end LoopConfig

/-! ### What follows the attempt -/

namespace LoopConfig

variable {cfg : LoopConfig} {w : World} {s : LoopState} {selection : BootEntry}
variable {before : List LoopEffect} {effects : List Effect} {nv : Nvram} {rest : List LoopEffect}

lemma returned_append_iff (hbefore : ∀ e ∈ before, Aside e)
    (hrest : ∀ e ∈ rest, e = .markBootSuccess ∨ Aside e) (status : Status) :
    Returned (before ++ effects.map .boot ++ rest) status ↔
      ∃ image, .startNative image (some status) ∈ effects ∨
        .startImage image (some status) ∈ effects := by
  have hb : ∀ e : Effect, e.Starts → .boot e ∉ before := fun e he hmem => hbefore _ hmem he
  have hr : ∀ e : Effect, e.Starts → .boot e ∉ rest := by
    intro e he hmem
    rcases hrest _ hmem with h | h
    · exact nomatch h
    · exact h he
  unfold Returned
  refine exists_congr fun image => ?_
  simp [hb (.startNative image (some status)) trivial, hb (.startImage image (some status)) trivial,
    hr (.startNative image (some status)) trivial, hr (.startImage image (some status)) trivial]

lemma markBootSuccess_not_mem (hbefore : ∀ e ∈ before, Aside e)
    (hrest : ∀ e ∈ rest, Aside e) :
    .markBootSuccess ∉ before ++ effects.map .boot ++ rest := by
  intro hmem
  simp only [mem_append, mem_map] at hmem
  rcases hmem with (h | ⟨e, -, h⟩) | h
  · exact hbefore _ h
  · exact nomatch h
  · exact hrest _ h

/-- The parts of what follows an attempt: nothing is added that starts an image, and the boot is
marked exactly when an entry that is no tool ends well. -/
structure Concludes (selection : BootEntry) (before : List LoopEffect) (effects : List Effect)
    (nv : Nvram) (result : Except Exit Status) (p : Pass) : Prop where
  returned : ∀ status, Returned p.trace status ↔
    ∃ image, .startNative image (some status) ∈ effects ∨
      .startImage image (some status) ∈ effects
  marked : .markBootSuccess ∈ p.trace ↔ selection.icon ≠ .tools ∧ ∃ status, result = .ok status
  health : .markBootSuccess ∉ p.trace → SameHealth nv p.nvram

lemma concludes_of_aside {result : Except Exit Status} {ending : Ending}
    (hbefore : ∀ e ∈ before, Aside e) (hrest : ∀ e ∈ rest, Aside e)
    (hresult : selection.icon = .tools ∨ ∀ status, result ≠ .ok status) :
    Concludes selection before effects nv result
      { trace := before ++ effects.map .boot ++ rest, nvram := nv, ending } where
  returned := returned_append_iff hbefore fun e he => .inr (hrest e he)
  marked := by
    refine ⟨fun h => absurd h (markBootSuccess_not_mem hbefore hrest), ?_⟩
    rintro ⟨htool, status, hok⟩
    exact absurd hok (hresult.resolve_left htool status)
  health _ := .refl nv

lemma finish_concludes (hbefore : ∀ e ∈ before, Aside e) (result : Except Exit Status) :
    Concludes selection before effects nv result
      (cfg.finish w s selection (before ++ effects.map .boot) nv result) := by
  unfold finish
  match result with
  | .error .handedOver =>
    rw [← append_nil (before ++ _)]
    exact concludes_of_aside hbefore (by simp) (.inr nofun)
  | .error (.error status) =>
    dsimp only
    split
    · next htool =>
      exact concludes_of_aside hbefore (cfg.reportFailure_aside w selection status) (.inl htool)
    · exact concludes_of_aside hbefore (cfg.reportFailure_aside w selection status) (.inr nofun)
  | .ok status =>
    dsimp only
    split
    · next htool =>
      rw [← append_nil (before ++ _)]
      exact concludes_of_aside hbefore (by simp) (.inl htool)
    · next htool =>
      exact ⟨returned_append_iff hbefore (by simp), by simpa using htool, by simp⟩

/-! ### When only success is marked -/

lemma pass_concludes (hsel : cfg.selection w s = some selection)
    (hreport : w.writeBootReport = .ok ()) :
    ∃ before nv, SameHealth s.nvram nv ∧
      Concludes selection before (cfg.attempt w s selection).trace nv
        (cfg.attempt w s selection).result (cfg.pass w s) := by
  obtain ⟨before, nv, hbefore, hhealth, hpass⟩ := pass_of_selection hsel hreport
  refine ⟨before, nv, hhealth, ?_⟩
  rw [hpass]
  exact finish_concludes hbefore _

lemma ReturnsErrorNatively.not_marksOnlySuccess (h : cfg.ReturnsErrorNatively w s) :
    ¬ cfg.MarksOnlySuccess w s := by
  obtain ⟨selection, img, status, hsel, hreport, htool, hstarts, hstatus, hne⟩ := h
  intro hmarks
  obtain ⟨before, nv, -, hconcludes⟩ := pass_concludes hsel hreport
  obtain ⟨q, -, heq⟩ := hstarts.reaches (cfg.bootContext w)
  have hattempt : cfg.attempt w s selection =
      after q (after [.startNative ((cfg.bootContext w).loadedPe img) (some status)]
        (pure status)) := by
    rw [show (cfg.bootContext w).platform.startNative = some status from hstatus] at heq
    exact heq
  have hreturned : Returned (cfg.pass w s).trace status :=
    (hconcludes.returned status).mpr
      ⟨(cfg.bootContext w).loadedPe img, .inl (by rw [hattempt]; simp)⟩
  exact (hmarks.unmarked status hne hreturned).1
    (hconcludes.marked.mpr ⟨htool, status, by rw [hattempt]; rfl⟩)

lemma returned_concat_iff {q : List Effect} (hq : ∀ e ∈ q, ¬ e.Starts) (e : Effect)
    (status : Status) :
    (∃ image, .startNative image (some status) ∈ q ++ [e] ∨
        .startImage image (some status) ∈ q ++ [e]) ↔
      ∃ image, e = .startNative image (some status) ∨ e = .startImage image (some status) := by
  refine exists_congr fun image => ?_
  have hnative : Effect.startNative image (some status) ∉ q := fun h => hq _ h trivial
  have himage : Effect.startImage image (some status) ∉ q := fun h => hq _ h trivial
  simp [hnative, himage, eq_comm]

lemma returned_of_attempt_ok (h : ¬ cfg.ReturnsErrorNatively w s)
    (hsel : cfg.selection w s = some selection) (hreport : w.writeBootReport = .ok ())
    (htool : selection.icon ≠ .tools) {status : Status}
    (hok : (cfg.attempt w s selection).result = .ok status) (returned : Status) :
    (∃ image, .startNative image (some returned) ∈ (cfg.attempt w s selection).trace ∨
        .startImage image (some returned) ∈ (cfg.attempt w s selection).trace) ↔
      returned = .success := by
  unfold attempt at hok ⊢
  cases (cfg.bootContext w).bootEntry_outcome cfg.fromUtf8Lossy (volumesAtBoot w s) selection with
  | fails e hs =>
    obtain ⟨q, -, heq⟩ := hs
    rw [heq] at hok
    exact nomatch hok
  | native img hstarts hs =>
    obtain ⟨q, hq, heq⟩ := hs
    rw [heq] at hok ⊢
    cases hstart : (cfg.bootContext w).platform.startNative with
    | none =>
      rw [hstart] at hok
      exact nomatch hok
    | some st =>
      have hst : st = .success := by
        by_contra hne
        exact h ⟨selection, img, st, hsel, hreport, htool, hstarts, hstart, hne⟩
      rw [trace_after, trace_after, hst, BootContext.trace_awaitReturn, append_nil,
        returned_concat_iff hq]
      simp [eq_comm]
  | firmware image hs =>
    obtain ⟨q, hq, heq⟩ := hs
    rw [heq, BootContext.startLoaded_eq] at hok ⊢
    cases hstart : (cfg.bootContext w).platform.startImage with
    | none =>
      rw [hstart] at hok
      exact nomatch hok
    | some st =>
      rw [hstart] at hok
      by_cases hst : st = .success
      · simp only [hst, if_true, trace_after, trace_pure, append_nil]
        rw [returned_concat_iff hq]
        simp [eq_comm]
      · simp only [hst, if_false, result_after] at hok
        exact nomatch hok

lemma marksOnlySuccess_iff : cfg.MarksOnlySuccess w s ↔ ¬ cfg.ReturnsErrorNatively w s := by
  refine ⟨fun hmarks h => h.not_marksOnlySuccess hmarks, fun h => ?_⟩
  by_cases hattempt : ∃ selection, cfg.selection w s = some selection ∧
      w.writeBootReport = .ok ()
  · obtain ⟨selection, hsel, hreport⟩ := hattempt
    obtain ⟨before, nv, hhealth, hconcludes⟩ := pass_concludes hsel hreport
    constructor
    · intro hmark
      obtain ⟨htool, status, hok⟩ := hconcludes.marked.mp hmark
      rw [hconcludes.returned]
      exact (returned_of_attempt_ok h hsel hreport htool hok .success).mpr rfl
    · intro status hne hreturned
      have hunmarked : .markBootSuccess ∉ (cfg.pass w s).trace := by
        intro hmark
        obtain ⟨htool, _, hok⟩ := hconcludes.marked.mp hmark
        rw [hconcludes.returned] at hreturned
        exact hne ((returned_of_attempt_ok h hsel hreport htool hok status).mp hreturned)
      have hsame := hhealth.trans (hconcludes.health hunmarked)
      exact ⟨hunmarked, hsame.getState_eq, hsame.getCrashCounter_eq⟩
  · have htrace : (cfg.pass w s).trace = [] :=
      (cfg.pass_of_no_attempt w s fun selection hsel hreport =>
        hattempt ⟨selection, hsel, hreport⟩).1
    constructor
    · intro hmark
      rw [htrace] at hmark
      exact absurd hmark not_mem_nil
    · rintro status - ⟨image, hmem⟩
      rw [htrace] at hmem
      simp at hmem

/-- Along every run only boots whose image returned with success are marked, and others keep the
boot state, exactly when no entry that is no tool is started natively and returns with an error. -/
theorem marksOnlySuccess_along_passes_iff (cfg : LoopConfig) (s : LoopState) (ws : List World) :
    (∀ p ∈ cfg.passes s ws, cfg.MarksOnlySuccess p.2 p.1) ↔
      ∀ p ∈ cfg.passes s ws, ¬ cfg.ReturnsErrorNatively p.2 p.1 :=
  forall₂_congr fun _ _ => marksOnlySuccess_iff

end LoopConfig

/-- A kernel that returns with a load error is marked successful where the native loader started
it, and is not where the firmware did. -/
theorem marks_returned_error :
    let booting : LoopState := .discovered 0 false fun v =>
      if v = .state then some [1] else if v = .crashCounter then some [2] else none
    let native := LoopConfig.default.pass (.accepting kernelEntry (some .loadError)) booting
    let firmware := { LoopConfig.default with policy := { loaderNativePe := .never } }.pass
      (.accepting kernelEntry (some .loadError)) booting
    .boot (.startNative [1] (some .loadError)) ∈ native.trace ∧
      .markBootSuccess ∈ native.trace ∧
      (getState native.nvram, getCrashCounter native.nvram) = (.bootedOK, 0) ∧
      .boot (.startImage [1] (some .loadError)) ∈ firmware.trace ∧
      .markBootSuccess ∉ firmware.trace ∧
      (getState firmware.nvram, getCrashCounter firmware.nvram) = (.booting, 2) := by
  decide +kernel

end LamBoot
