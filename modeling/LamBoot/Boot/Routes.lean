import LamBoot.Boot.Inversion

/-!
# The course of an attempt

What an attempt does, in full: how an image is found, measured and verified (`Before`), and by which
of the two routes it is then started. `AsksFirmware` says when the image is handed to the firmware,
by choice or because the native loader failed.
-/

namespace LamBoot

open Text Traced

def Effect.extension : Effect → Option (Nat × Bytes × Bool)
  | .extend pcr data extended => some (pcr, data, extended)
  | _ => none

variable {e : Effect}

lemma Effect.Opening.extension {coupling : Bool} (h : e.Opening coupling) :
    e.extension = none := by
  cases e with
  | extend => cases h
  | _ => rfl

namespace BootContext

variable (ctx : BootContext)

/-! ### Measurements -/

def measurementEvent (pcr : Nat) (data : Bytes) (measured skipped path : Text) : TrustEvent :=
  if ctx.platform.hashLogExtend pcr data then
    { event := measured, path, note := "pcr=" ++ decimal pcr }
  else
    { event := skipped, path,
      note := "pcr=" ++ decimal pcr ++ " reason=no_tpm_or_tcg2_error" }

def measurement (pcr : Nat) (data : Bytes) (measured skipped path : Text) : List Effect :=
  [.extend pcr data (ctx.platform.hashLogExtend pcr data),
    .record (ctx.measurementEvent pcr data measured skipped path)]

lemma measureLogged_eq (pcr : Nat) (data : Bytes) (measured skipped path : Text) :
    measureLogged ctx.platform pcr data measured skipped path =
      after (ctx.measurement pcr data measured skipped path) (pure ()) := by
  unfold measureLogged measurement measurementEvent
  dsimp only
  split_ifs with h
  · rw [h]
    rfl
  · rw [Bool.not_eq_true] at h
    rw [h]
    rfl

def cmdlineData (options : Text) : Bytes :=
  (utf16 options).flatMap Bytes.le16

def measurements (img : Image) : List Effect :=
  ctx.measurement 4 img.bytes "kernel_measured" "kernel_measurement_skipped" img.path ++
    if img.options ≠ [] then
      ctx.measurement 12 (cmdlineData img.options) "cmdline_measured"
        "cmdline_measurement_skipped" img.path
    else []

lemma verifyAndStart_measures (img : Image) (stage : Attempt Unit) :
    ctx.verifyAndStart img stage = after (ctx.measurements img)
      (verifyKernelBytes ctx.platform img.bytes img.path ctx.sbState >>=
        ctx.afterVerify img stage) := by
  unfold verifyAndStart measureKernelLogged measureCmdlineLogged measurements
  rw [measureLogged_eq, after_bind, pure_bind]
  split_ifs with h
  · rw [← cmdlineData, measureLogged_eq, after_bind, pure_bind, after_after]
    rfl
  · rw [List.append_nil]
    rfl

lemma measurement_form {P : Text → Prop} {pcr : Nat} {data : Bytes} {measured skipped path : Text}
    (hm : P measured) (hs : P skipped)
    (he : e ∈ ctx.measurement pcr data measured skipped path) :
    e.extension ≠ none ∨
      ∃ ev, e = .record ev ∧ P ev.event ∧ ev.sha256Hex = [] ∧ ev.verifiedVia = [] := by
  rcases List.mem_pair.mp he with rfl | rfl
  · exact .inl nofun
  · refine .inr ⟨_, rfl, ?_⟩
    unfold measurementEvent
    split_ifs
    · exact ⟨hm, rfl, rfl⟩
    · exact ⟨hs, rfl, rfl⟩

lemma measurements_form {P : Text → Prop} {img : Image}
    (hP : ∀ name ∈ (["kernel_measured", "kernel_measurement_skipped", "cmdline_measured",
      "cmdline_measurement_skipped"] : List Text), P name) (he : e ∈ ctx.measurements img) :
    e.extension ≠ none ∨
      ∃ ev, e = .record ev ∧ P ev.event ∧ ev.sha256Hex = [] ∧ ev.verifiedVia = [] := by
  simp only [List.mem_cons, List.not_mem_nil, or_false, forall_eq_or_imp, forall_eq] at hP
  unfold measurements at he
  rcases List.mem_append.mp he with he | he
  · exact ctx.measurement_form hP.1 hP.2.1 he
  · split_ifs at he
    · exact ctx.measurement_form hP.2.2.1 hP.2.2.2 he
    · cases he

/-! ### Verdicts -/

def verdictOf (image : Bytes) : Text × Text × Bool :=
  match ctx.posture with
  | .disabled => (vDegradedTrustSbOff, "SKIPPED", true)
  | .activeDirect => (vDegradedTrustSbDirect, "DEFERRED", true)
  | .activeWithShim =>
    if ctx.ShimAccepts image then (vShimMok, "SUCCESS", true)
    else (vShimRejected, "REJECTED", false)

def via (image : Bytes) : Text :=
  (ctx.verdictOf image).1

variable {image : Bytes}

lemma accepts_iff : ctx.Accepts image ↔ (ctx.verdictOf image).2.2 = true := by
  unfold Accepts verdictOf
  cases ctx.posture with
  | disabled => simp
  | activeDirect => simp
  | activeWithShim => by_cases h : ctx.ShimAccepts image <;> simp [h]

lemma via_of_not_accepts (h : ¬ ctx.Accepts image) :
    ctx.via image = vShimRejected := by
  obtain ⟨hshim, hrefused⟩ := Classical.not_imp.mp h
  rw [via, verdictOf, hshim]
  dsimp only
  rw [if_neg hrefused]

lemma status_of_accepts (h : ctx.Accepts image) :
    debugStr (ctx.verdictOf image).2.1 ≠ debugStr "REJECTED" := by
  unfold verdictOf
  cases hp : ctx.posture with
  | disabled => exact (by decide : debugStr "SKIPPED" ≠ debugStr "REJECTED")
  | activeDirect => exact (by decide : debugStr "DEFERRED" ≠ debugStr "REJECTED")
  | activeWithShim =>
    dsimp only
    rw [if_pos (h hp)]
    decide

lemma verdict_eq (image : Bytes) :
    ∃ asked, (∀ e ∈ asked, ∃ accepted, e = Effect.shimVerify image accepted) ∧
      (ctx.posture = .activeWithShim → ctx.Accepts image → .shimVerify image true ∈ asked) ∧
      verdict ctx.platform image ctx.posture = after asked (pure (ctx.verdictOf image)) := by
  unfold verdictOf
  cases hp : ctx.posture with
  | disabled => exact ⟨[], by simp, nofun, rfl⟩
  | activeDirect => exact ⟨[], by simp, nofun, rfl⟩
  | activeWithShim =>
    by_cases haccepts : ctx.ShimAccepts image
    · obtain ⟨hhandle, hopen, hverify⟩ := haccepts
      refine ⟨[.shimVerify image true], by simp, by simp, ?_⟩
      simp only [verdict, verifyImage, ShimAccepts, hhandle, hopen, hverify]
      rfl
    · have hnot : ∀ asked : List Effect, True → ctx.Accepts image →
          .shimVerify image true ∈ asked := fun _ _ h => absurd (h hp) haccepts
      simp only [verdict, verifyImage, haccepts, if_false]
      cases hhandle : ctx.platform.shimLockHandle with
      | error e => exact ⟨[], by simp, hnot _, rfl⟩
      | ok =>
        cases hopen : ctx.platform.shimLockOpen with
        | error e => exact ⟨[], by simp, hnot _, rfl⟩
        | ok =>
          cases hverify : ctx.platform.shimVerify image with
          | error e => exact ⟨[.shimVerify image false], by simp, hnot _, rfl⟩
          | ok => exact absurd ⟨hhandle, hopen, hverify⟩ haccepts

def verification (img : Image) : TrustEvent :=
  ctx.verifiedEvent img (ctx.via img.bytes) (ctx.verdictOf img.bytes).2.1

/-! ### Before an image is loaded -/

/-- The history of an image that has been measured and verified. -/
structure Before (img : Image) (past : List Effect) : Prop where
  effects : ∀ e ∈ past, e.Opening ctx.conoutFatCoupling ∨ e ∈ ctx.measurements img ∨
    (∃ accepted, e = .shimVerify img.bytes accepted) ∨ e = .record (ctx.verification img)
  extensions : past.filterMap Effect.extension =
    (ctx.measurements img).filterMap Effect.extension
  measured : ∀ e ∈ ctx.measurements img, e ∈ past
  recorded : .record (ctx.verification img) ∈ past
  asked : ctx.posture = .activeWithShim → ctx.Accepts img.bytes → .shimVerify img.bytes true ∈ past

variable {ctx} in
lemma Before.append {img : Image} {past q : List Effect} (h : ctx.Before img past)
    (hq : ∀ e ∈ q, e.Opening ctx.conoutFatCoupling) : ctx.Before img (past ++ q) := by
  refine ⟨fun e he => ?_, ?_, fun e he => List.mem_append_left q (h.measured e he),
    List.mem_append_left q h.recorded, fun hp ha => List.mem_append_left q (h.asked hp ha)⟩
  · rcases List.mem_append.mp he with he | he
    · exact h.effects e he
    · exact .inl (hq e he)
  · have hnone : q.filterMap Effect.extension = [] :=
      List.filterMap_eq_nil_iff.mpr fun e he => (hq e he).extension
    rw [List.filterMap_append, hnone, List.append_nil, h.extensions]

variable {ctx} in
lemma Before.beforeLoad {img : Image} {past : List Effect} (h : ctx.Before img past)
    (he : e ∈ past) : e.BeforeLoad := by
  rcases h.effects e he with h | h | ⟨accepted, rfl⟩ | rfl
  · exact .inl h.quiet
  · rcases ctx.measurements_form (P := QuietEvent) (by decide) h with h | ⟨ev, rfl, hev, -⟩
    · cases e with
      | extend => exact .inl trivial
      | _ => exact absurd rfl h
    · exact .inl hev
  · exact .inr (.inl ⟨_, _, rfl⟩)
  · exact .inr (.inr ⟨_, rfl, rfl⟩)

variable {fromUtf8Lossy : Bytes → Text} {volumes : List Volume} {entry : BootEntry}
  {img : Image}

lemma not_chainload_of_imageFor (h : ctx.imageFor fromUtf8Lossy volumes entry = some img)
    (path : Text) : entry.kind ≠ .chainload path := by
  intro hkind
  unfold imageFor at h
  rw [hkind] at h
  cases volumes <;> cases h

lemma verifyAndStart_verifies (img : Image) (stage : Attempt Unit) :
    ∃ asked, (∀ e ∈ asked, ∃ accepted, e = .shimVerify img.bytes accepted) ∧
      (ctx.posture = .activeWithShim → ctx.Accepts img.bytes →
        .shimVerify img.bytes true ∈ asked) ∧
      ctx.verifyAndStart img stage =
        after (ctx.measurements img ++ (asked ++ [.record (ctx.verification img)]))
          (ctx.afterVerify img stage (if (ctx.verdictOf img.bytes).2.2 then
            some (ctx.verifiedBytes img (ctx.via img.bytes)) else none)) := by
  obtain ⟨asked, hasked, hshim, hverdict⟩ := ctx.verdict_eq img.bytes
  have hverify : verifyKernelBytes ctx.platform img.bytes img.path ctx.sbState =
      after (asked ++ [.record (ctx.verification img)])
        (pure (if (ctx.verdictOf img.bytes).2.2 then
          some (ctx.verifiedBytes img (ctx.via img.bytes)) else none)) :=
    ctx.verifyKernelBytes_of_verdict img hverdict
  refine ⟨asked, hasked, hshim, ?_⟩
  rw [verifyAndStart_measures, hverify, after_bind, pure_bind, after_after]

lemma bootEntry_verifies (h : ctx.imageFor fromUtf8Lossy volumes entry = some img) :
    ∃ stage past, ctx.Staging (ctx.InitrdsReadable volumes entry.kind) stage ∧
      ctx.Before img past ∧ ctx.bootEntry fromUtf8Lossy volumes entry =
        after past (ctx.afterVerify img stage
          (if (ctx.verdictOf img.bytes).2.2 then some (ctx.verifiedBytes img (ctx.via img.bytes))
          else none)) := by
  have hopens := ctx.bootEntry_opensTo fromUtf8Lossy volumes entry
    (ctx.not_chainload_of_imageFor h)
  rw [h] at hopens
  obtain ⟨stage, hstage, q, hq, heq⟩ := hopens
  obtain ⟨asked, hasked, hshim, hverifies⟩ := ctx.verifyAndStart_verifies img stage
  refine ⟨stage, q ++ (ctx.measurements img ++ (asked ++ [.record (ctx.verification img)])),
    hstage, ⟨fun e he => ?_, ?_, fun e he => ?_, by simp, fun hp ha => by simp [hshim hp ha]⟩, ?_⟩
  · simp only [List.mem_append, List.mem_singleton] at he
    rcases he with he | he | he | he
    · exact .inl (hq e he)
    · exact .inr (.inl he)
    · exact .inr (.inr (.inl (hasked e he)))
    · exact .inr (.inr (.inr he))
  · have hopening : q.filterMap Effect.extension = [] :=
      List.filterMap_eq_nil_iff.mpr fun e he => (hq e he).extension
    have hquestion : asked.filterMap Effect.extension = [] := by
      refine List.filterMap_eq_nil_iff.mpr fun e he => ?_
      obtain ⟨accepted, rfl⟩ := hasked e he
      rfl
    rw [List.filterMap_append, List.filterMap_append, List.filterMap_append, hopening, hquestion]
    exact List.append_nil _
  · exact List.mem_append_right _ (List.mem_append_left _ he)
  · rw [heq, hverifies, after_after]

lemma bootEntry_of_no_image (hkind : ∀ path, entry.kind ≠ .chainload path)
    (h : ctx.imageFor fromUtf8Lossy volumes entry = none) :
    ∃ s, Reaches (Effect.Opening ctx.conoutFatCoupling)
      (ctx.bootEntry fromUtf8Lossy volumes entry) (fail s) := by
  have hopens := ctx.bootEntry_opensTo fromUtf8Lossy volumes entry hkind
  rwa [h] at hopens

lemma bootEntry_of_image_not_ready (himage : ctx.imageFor fromUtf8Lossy volumes entry = some img)
    (h : ¬ ctx.Ready fromUtf8Lossy volumes entry img) :
    ∃ past s, ctx.Before img past ∧
      ctx.bootEntry fromUtf8Lossy volumes entry = after past (fail s) := by
  obtain ⟨stage, past, hstage, hpast, heq⟩ := ctx.bootEntry_verifies himage
  by_cases haccepts : ctx.Accepts img.bytes
  · have hinitrds : ¬ ctx.InitrdsReadable volumes entry.kind := fun hr => h ⟨himage, haccepts, hr⟩
    obtain ⟨s, q, hq, hfail⟩ := hstage.fails hinitrds
    refine ⟨past ++ q, s, hpast.append hq, ?_⟩
    rw [heq, if_pos (ctx.accepts_iff.mp haccepts), afterVerify, hfail, after_bind, after_after]
    rfl
  · refine ⟨past, .securityViolation, hpast, ?_⟩
    rw [heq, if_neg (mt ctx.accepts_iff.mpr haccepts)]
    rfl

lemma bootEntry_of_image_ready (h : ctx.Ready fromUtf8Lossy volumes entry img) :
    ∃ past, ctx.Before img past ∧ ctx.bootEntry fromUtf8Lossy volumes entry =
      after past (ctx.startVerified img (ctx.verifiedBytes img (ctx.via img.bytes))) := by
  obtain ⟨stage, past, hstage, hpast, heq⟩ := ctx.bootEntry_verifies h.image
  obtain ⟨q, hq, hstageq⟩ := hstage.opens h.initrds
  refine ⟨past ++ q, hpast.append hq, ?_⟩
  rw [heq, if_pos (ctx.accepts_iff.mp h.accepted), afterVerify, hstageq, after_bind, pure_bind,
    after_after]

lemma bootEntry_of_not_ready (hkind : ∀ path, entry.kind ≠ .chainload path)
    (h : ¬ ∃ img, ctx.Ready fromUtf8Lossy volumes entry img) :
    ∃ s, Reaches Effect.BeforeLoad (ctx.bootEntry fromUtf8Lossy volumes entry) (fail s) := by
  cases himage : ctx.imageFor fromUtf8Lossy volumes entry with
  | none =>
    obtain ⟨s, hs⟩ := ctx.bootEntry_of_no_image hkind himage
    exact ⟨s, hs.mono fun _ he => .inl he.quiet⟩
  | some img =>
    obtain ⟨past, s, hpast, heq⟩ :=
      ctx.bootEntry_of_image_not_ready himage fun hready => h ⟨img, hready⟩
    exact ⟨s, past, fun e he => hpast.beforeLoad he, heq⟩

/-! ### The two routes -/

/-- The native loader refuses the image, or finds that it has changed. -/
def NativeFails (img : Image) : Prop :=
  ctx.LoadsPe img → ctx.Mismatch img

/-- The image is handed to the firmware: by choice, or after the native loader failed in a flow that
falls back. -/
def AsksFirmware (img : Image) : Prop :=
  chooseLoadPath ctx.nativePe ctx.posture = .firmware ∨
    img.fallbackEvent ≠ none ∧ ctx.NativeFails img

/-- The options can be handed to an image. -/
def OptionsEncode (img : Image) : Prop :=
  img.options = [] ∨ cstring16 img.options ≠ none

/-- The effects of a native load that fails. -/
def NativeFailure (img : Image) (e : Effect) : Prop :=
  ctx.NativeFails img ∧ OptionsEncode img ∧
    ((∃ loaded, e = .loadPe (ctx.loadedPe img) loaded) ∨
    (∃ note, e = .record
      { event := "image_load_failed", path := img.path, verifiedVia := vNativePeLoader, note }) ∨
    e = .flush ∧ ctx.conoutFatCoupling = false)

/-- The way back from a native load that failed. -/
def FallsBack (img : Image) (e : Effect) : Prop :=
  ctx.NativeFails img ∧ ∃ event ∈ img.fallbackEvent, ∃ note,
    e = .record { event, path := img.path, note }

lemma nativeRoute_of_fails (verifiedVia : Text) (h : ctx.NativeFails img) :
    (¬ OptionsEncode img ∧ ∃ s, ctx.nativeRoute img verifiedVia = fail s) ∨
    OptionsEncode img ∧ ∃ s note loaded t, (loaded = true ↔ ctx.LoadsPe img) ∧ t ⊆ ctx.flushes ∧
      ctx.nativeRoute img verifiedVia = after (.loadPe (ctx.loadedPe img) loaded :: .record
        { event := "image_load_failed", path := img.path, verifiedVia := vNativePeLoader, note } ::
          t) (fail s) := by
  have hiff : OptionsEncode img ↔ ¬ (img.options ≠ [] ∧ cstring16 img.options = none) := by
    unfold OptionsEncode
    tauto
  unfold nativeRoute nativeLoadAndStart
  by_cases hencode : OptionsEncode img
  · have hencodes := hiff.mp hencode
    refine .inr ⟨hencode, ?_⟩
    cases hload : ctx.platform.loadPe (ctx.loadedPe img) with
    | error e =>
      have hnot : false = true ↔ ctx.LoadsPe img := by simp [LoadsPe, hload]
      unfold loadedPe at hload
      simp only [hencodes, if_false, verifiedBytes, hload, emit_bind, record, after_after]
      exact ⟨.loadError, _, false, [], hnot, List.nil_subset _, rfl⟩
    | ok =>
      have hloads : ctx.LoadsPe img := ⟨hencode, hload⟩
      have hm : ctx.platform.sha256 (ctx.memory.atLoadPe img.bytes) ≠
          ctx.platform.sha256 img.bytes := h hloads
      unfold loadedPe at hload
      simp only [hencodes, if_false, verifiedBytes, hload, hm, ne_eq, not_false_eq_true, if_true,
        flushUnless_eq, emit_bind, record, after_bind, pure_bind, after_after]
      exact ⟨.securityViolation, _, true, ctx.flushes, by simp [hloads], List.Subset.refl _, rfl⟩
  · refine .inl ⟨hencode, .invalidParameter, ?_⟩
    rw [if_pos (not_not.mp (mt hiff.mpr hencode))]
    rfl

lemma nativeRoute_reaches_fail (verifiedVia : Text) (h : ctx.NativeFails img) :
    ∃ s, Reaches (ctx.NativeFailure img) (ctx.nativeRoute img verifiedVia) (fail s) := by
  rcases ctx.nativeRoute_of_fails verifiedVia h with
    ⟨-, s, heq⟩ | ⟨hencode, s, note, loaded, t, -, ht, heq⟩
  · exact ⟨s, heq ▸ Reaches.refl _⟩
  · refine ⟨s, _, fun e he => ⟨h, hencode, ?_⟩, heq⟩
    simp only [List.mem_cons] at he
    rcases he with rfl | rfl | he
    · exact .inl ⟨loaded, rfl⟩
    · exact .inr (.inl ⟨note, rfl⟩)
    · exact .inr (.inr (mem_flushes.mp (ht he)))

lemma startVerified_of_not_asksFirmware (verifiedVia : Text) (h : ¬ ctx.AsksFirmware img) :
    chooseLoadPath ctx.nativePe ctx.posture = .native ∧
      ((ctx.LoadsPe img ∧ ¬ ctx.Mismatch img ∧
        ctx.startVerified img (ctx.verifiedBytes img verifiedVia) =
          ctx.nativeRoute img verifiedVia) ∨
      (ctx.NativeFails img ∧ ∃ s, Reaches (ctx.NativeFailure img)
        (ctx.startVerified img (ctx.verifiedBytes img verifiedVia)) (fail s))) := by
  obtain ⟨hroute, hfallback⟩ := not_or.mp h
  have hnative : chooseLoadPath ctx.nativePe ctx.posture = .native := by
    cases hpath : chooseLoadPath ctx.nativePe ctx.posture with
    | native => rfl
    | firmware => exact absurd hpath hroute
  refine ⟨hnative, ?_⟩
  by_cases hfails : ctx.NativeFails img
  · have hnone : img.fallbackEvent = none := by
      by_contra hne
      exact hfallback ⟨hne, hfails⟩
    obtain ⟨s, q, hq, heq⟩ := ctx.nativeRoute_reaches_fail verifiedVia hfails
    refine .inr ⟨hfails, s, q, hq, ?_⟩
    rw [ctx.startVerified_of_native_fails hnative heq, hnone]
  · obtain ⟨hl, hm⟩ := Classical.not_imp.mp hfails
    exact .inl ⟨hl, hm, ctx.startVerified_of_native_starts hnative hl hm⟩

lemma startVerified_of_asksFirmware (verifiedVia : Text) (h : ctx.AsksFirmware img) :
    Reaches (fun e => ctx.NativeFailure img e ∨ ctx.FallsBack img e)
      (ctx.startVerified img (ctx.verifiedBytes img verifiedVia)) (ctx.firmwareRoute img) := by
  cases hroute : chooseLoadPath ctx.nativePe ctx.posture with
  | firmware =>
    rw [startVerified_eq, hroute]
    exact Reaches.refl _
  | native =>
    obtain ⟨hne, hfails⟩ := h.resolve_left (by rw [hroute]; decide)
    obtain ⟨event, hevent⟩ := Option.ne_none_iff_exists'.mp hne
    obtain ⟨s, q, hq, heq⟩ := ctx.nativeRoute_reaches_fail verifiedVia hfails
    rw [ctx.startVerified_of_native_fails hroute heq, hevent]
    refine Reaches.after (fun e he => .inl (hq e he))
      (Reaches.after (q := [Effect.record _]) (fun e he => ?_) (Reaches.refl _))
    rw [List.mem_singleton.mp he]
    exact .inr ⟨hfails, event, hevent, _, rfl⟩

lemma firmwareRoute_effects (he : e ∈ (ctx.firmwareRoute img).trace) :
    e = .record (ctx.legacyEvent img) ∨ (∃ loaded, e = .loadImage (ctx.loadedImage img) loaded) ∨
      ctx.LoadsImage img ∧ (e = .record (loadedFirmwareEvent img) ∨ e = .flush ∨
        e = .startImage (ctx.loadedImage img) ctx.platform.startImage) := by
  by_cases hl : ctx.LoadsImage img
  · rw [ctx.firmwareRoute_of_loads hl, trace_after, trace_startLoaded] at he
    simp only [List.mem_append, List.mem_cons, List.not_mem_nil, or_false] at he
    rcases he with (rfl | rfl | rfl | rfl) | rfl
    · exact .inl rfl
    · exact .inr (.inl ⟨true, rfl⟩)
    · exact .inr (.inr ⟨hl, .inl rfl⟩)
    · exact .inr (.inr ⟨hl, .inr (.inl rfl)⟩)
    · exact .inr (.inr ⟨hl, .inr (.inr rfl)⟩)
  · obtain ⟨s, loaded, heq⟩ := ctx.firmwareRoute_of_not_loads_eq hl
    rw [heq] at he
    rcases List.mem_pair.mp he with rfl | rfl
    · exact .inl rfl
    · exact .inr (.inl ⟨loaded, rfl⟩)

/-! ### The effects of an attempt -/

/-- An effect of starting an image: of a native load that failed or the way back from it, of one
that did not fail, or of the firmware route. -/
inductive StartEffect (img : Image) (e : Effect) : Prop
  | failure (h : ctx.NativeFailure img e)
  | fallsBack (h : ctx.FallsBack img e)
  | native (hasks : ¬ ctx.AsksFirmware img) (hl : ctx.LoadsPe img) (hm : ¬ ctx.Mismatch img)
      (h : e ∈ (ctx.nativeRoute img (ctx.via img.bytes)).trace)
  | firmware (hasks : ctx.AsksFirmware img) (h : e ∈ (ctx.firmwareRoute img).trace)

lemma startEffect_of_mem
    (h : e ∈ (ctx.startVerified img (ctx.verifiedBytes img (ctx.via img.bytes))).trace) :
    ctx.StartEffect img e := by
  by_cases hasks : ctx.AsksFirmware img
  · obtain ⟨q, hq, heq⟩ := ctx.startVerified_of_asksFirmware (ctx.via img.bytes) hasks
    rw [heq, trace_after] at h
    rcases List.mem_append.mp h with h | h
    · rcases hq e h with h | h
      · exact .failure h
      · exact .fallsBack h
    · exact .firmware hasks h
  · obtain ⟨-, ⟨hl, hm, heq⟩ | ⟨-, s, hs⟩⟩ :=
      ctx.startVerified_of_not_asksFirmware (ctx.via img.bytes) hasks
    · rw [heq] at h
      exact .native hasks hl hm h
    · exact .failure (hs.forall_mem rfl e h)

/-- The effects of an attempt that is no chainload. -/
inductive AttemptEffect (fromUtf8Lossy : Bytes → Text) (volumes : List Volume)
    (entry : BootEntry) (e : Effect) : Prop
  | opening (h : e.Opening ctx.conoutFatCoupling)
  | measurement (img : Image) (himage : ctx.imageFor fromUtf8Lossy volumes entry = some img)
      (h : e ∈ ctx.measurements img)
  | asked (img : Image) (himage : ctx.imageFor fromUtf8Lossy volumes entry = some img)
      (accepted : Bool) (h : e = .shimVerify img.bytes accepted)
  | verified (img : Image) (himage : ctx.imageFor fromUtf8Lossy volumes entry = some img)
      (h : e = .record (ctx.verification img))
  | start (img : Image) (hready : ctx.Ready fromUtf8Lossy volumes entry img)
      (h : ctx.StartEffect img e)

variable {ctx} in
lemma Before.attemptEffect {past : List Effect} (h : ctx.Before img past)
    (himage : ctx.imageFor fromUtf8Lossy volumes entry = some img) (he : e ∈ past) :
    ctx.AttemptEffect fromUtf8Lossy volumes entry e := by
  rcases h.effects e he with h | h | ⟨accepted, h⟩ | h
  · exact .opening h
  · exact .measurement img himage h
  · exact .asked img himage accepted h
  · exact .verified img himage h

/-- Every effect of an attempt is one of these. -/
theorem attemptEffect_of_mem (hkind : ∀ path, entry.kind ≠ .chainload path) {e : Effect}
    (h : e ∈ (ctx.bootEntry fromUtf8Lossy volumes entry).trace) :
    ctx.AttemptEffect fromUtf8Lossy volumes entry e := by
  cases himage : ctx.imageFor fromUtf8Lossy volumes entry with
  | none =>
    obtain ⟨s, hs⟩ := ctx.bootEntry_of_no_image hkind himage
    exact .opening (hs.forall_mem rfl e h)
  | some img =>
    by_cases hready : ctx.Ready fromUtf8Lossy volumes entry img
    · obtain ⟨past, hpast, heq⟩ := ctx.bootEntry_of_image_ready hready
      rw [heq, trace_after] at h
      rcases List.mem_append.mp h with h | h
      · exact hpast.attemptEffect himage h
      · exact .start img hready (ctx.startEffect_of_mem h)
    · obtain ⟨past, s, hpast, heq⟩ := ctx.bootEntry_of_image_not_ready himage hready
      rw [heq, trace_after] at h
      exact hpast.attemptEffect himage (by simpa [fail] using h)

def chainloadedEvent (path : Text) (bytes : Bytes) : TrustEvent :=
  { event := "image_chainloaded", path, sha256Hex := hexEncode (ctx.platform.sha256 bytes),
    verifiedVia := vFirmwareLoadimage, status := "SUCCESS" }

/-- The effects of a chainload: it reads the image, measures it and hands it to the firmware, which
starts it if it loads it. -/
inductive ChainloadEffect (volumes : List Volume) (path : Text) (e : Effect) : Prop
  | read (h : e = .read (.volume 0) path)
  | measurement (bytes : Bytes)
      (h : e ∈ ctx.measurement 4 bytes "chainload_measured" "chainload_measurement_skipped" path)
  | loadImage (image : Bytes) (loaded : Bool) (h : e = .loadImage image loaded)
  | loaded (esp : Volume) (hesp : volumes.head? = some esp) (bytes : Bytes)
      (hread : esp.readStr path = .ok bytes)
      (hload : ctx.platform.loadImage (ctx.memory.atLoadImage bytes) = .ok ())
      (h : e = .record (ctx.chainloadedEvent path bytes) ∨ e ∈ ctx.flushes ∨
        e = .startImage (ctx.memory.atLoadImage bytes) ctx.platform.startImage)

def chainloadEffects (path : Text) (bytes : Bytes) (loaded : Bool) : List Effect :=
  .read (.volume 0) path ::
    (ctx.measurement 4 bytes "chainload_measured" "chainload_measurement_skipped" path ++
      [.loadImage (ctx.memory.atLoadImage bytes) loaded])

variable {path : Text}

lemma bootEntry_of_chainload_fails (hkind : entry.kind = .chainload path)
    (h : ∀ esp bytes, volumes.head? = some esp → esp.readStr path = .ok bytes →
      ctx.platform.loadImage (ctx.memory.atLoadImage bytes) ≠ .ok ()) :
    ∃ s q, ctx.bootEntry fromUtf8Lossy volumes entry = after q (fail s) ∧
      (q ⊆ [.read (.volume 0) path] ∨ ∃ bytes, q = ctx.chainloadEffects path bytes false) := by
  unfold bootEntry
  cases volumes with
  | nil => exact ⟨.aborted, [], rfl, .inl (List.nil_subset _)⟩
  | cons esp extras =>
    simp only [hkind, chainloadEfi]
    cases hread : esp.readStr path with
    | error e => exact ⟨e.toUefiStatus, _, rfl, .inl (List.Subset.refl _)⟩
    | ok bytes =>
      cases hload : ctx.platform.loadImage (ctx.memory.atLoadImage bytes) with
      | ok => exact absurd hload (h esp bytes List.head?_cons hread)
      | error s =>
        refine ⟨s, _, ?_, .inr ⟨bytes, rfl⟩⟩
        simp only [orStatus, Except.mapError, ofExcept_ok, pure_bind, measureLogged_eq,
          loadFromBuffer, emit_bind, after_bind, after_after, hload]
        rfl

variable {bytes : Bytes}

lemma bootEntry_of_chainload_loads (hkind : entry.kind = .chainload path)
    {esp : Volume} (hesp : volumes.head? = some esp)
    (hread : esp.readStr path = .ok bytes)
    (hload : ctx.platform.loadImage (ctx.memory.atLoadImage bytes) = .ok ()) :
    ctx.bootEntry fromUtf8Lossy volumes entry = after (ctx.chainloadEffects path bytes true ++
      .record (ctx.chainloadedEvent path bytes) :: ctx.flushes)
        (startLoaded ctx.platform (ctx.memory.atLoadImage bytes)) := by
  unfold bootEntry
  cases volumes with
  | nil => cases hesp
  | cons v extras =>
    obtain rfl : v = esp := Option.some.inj hesp
    simp only [hkind, chainloadEfi, hread, orStatus, Except.mapError, ofExcept_ok, pure_bind,
      measureLogged_eq, loadFromBuffer, hload, emit_bind, after_bind, record, flushUnless_eq,
      after_after]
    rfl

variable {ctx} in
lemma chainloadEffect_of_mem_effects {loaded : Bool}
    (h : e ∈ ctx.chainloadEffects path bytes loaded) : ctx.ChainloadEffect volumes path e := by
  simp only [chainloadEffects, List.mem_cons, List.mem_append, List.not_mem_nil, or_false] at h
  rcases h with h | h | h
  · exact .read h
  · exact .measurement bytes h
  · exact .loadImage _ _ h

lemma chainloadEffect_of_mem (hkind : entry.kind = .chainload path)
    (h : e ∈ (ctx.bootEntry fromUtf8Lossy volumes entry).trace) :
    ctx.ChainloadEffect volumes path e := by
  by_cases hloads : ∃ esp bytes, volumes.head? = some esp ∧ esp.readStr path = .ok bytes ∧
      ctx.platform.loadImage (ctx.memory.atLoadImage bytes) = .ok ()
  · obtain ⟨esp, bytes, hesp, hread, hload⟩ := hloads
    rw [ctx.bootEntry_of_chainload_loads hkind hesp hread hload, trace_after, trace_startLoaded,
      List.append_assoc, List.cons_append, List.mem_append] at h
    rcases h with h | h
    · exact chainloadEffect_of_mem_effects h
    · exact .loaded esp hesp bytes hread hload (by simpa using h)
  · push Not at hloads
    obtain ⟨s, q, heq, hq⟩ := ctx.bootEntry_of_chainload_fails hkind hloads
    rw [heq, trace_after, fail, trace_stop, List.append_nil] at h
    rcases hq with hq | ⟨bytes, rfl⟩
    · exact .read (List.mem_singleton.mp (hq h))
    · exact chainloadEffect_of_mem_effects h

variable {ctx} in
lemma ChainloadEffect.form (h : ctx.ChainloadEffect volumes path e) :
    e.Quiet ∨ (∃ image loaded, e = .loadImage image loaded) ∨
      ∃ image returned, e = .startImage image returned := by
  cases h with
  | read h => exact .inl (h ▸ trivial)
  | measurement bytes h =>
    rcases ctx.measurement_form (P := QuietEvent) (by decide) (by decide) h with h | ⟨_, rfl, h, -⟩
    · cases e with
      | extend => exact .inl trivial
      | _ => exact absurd rfl h
    · exact .inl h
  | loadImage image loaded h => exact .inr (.inl ⟨image, loaded, h⟩)
  | loaded esp hesp bytes hread hload h =>
    rcases h with rfl | h | h
    · exact .inl (by decide : QuietEvent "image_chainloaded")
    · exact .inl ((mem_flushes.mp h).1 ▸ trivial)
    · exact .inr (.inr ⟨_, _, h⟩)

variable {ctx} in
lemma StartEffect.form (h : ctx.StartEffect img e) :
    (∃ ev, e = .record ev) ∨ e = .flush ∨
      (∃ image loaded, e = .loadPe image loaded ∨ e = .loadImage image loaded) ∨ e.Starts := by
  cases h with
  | failure h =>
    obtain ⟨-, -, ⟨_, h⟩ | ⟨_, h⟩ | ⟨h, -⟩⟩ := h
    · exact .inr (.inr (.inl ⟨_, _, .inl h⟩))
    · exact .inl ⟨_, h⟩
    · exact .inr (.inl h)
  | fallsBack h =>
    obtain ⟨-, _, _, _, h⟩ := h
    exact .inl ⟨_, h⟩
  | native hasks hl hm h =>
    rcases ctx.mem_nativeRoute_of_loads hl hm h with h | h | h | rfl
    · exact .inr (.inr (.inl ⟨_, _, .inl h⟩))
    · exact .inl ⟨_, h⟩
    · exact .inr (.inl (mem_flushes.mp h).1)
    · exact .inr (.inr (.inr trivial))
  | firmware hasks h =>
    rcases ctx.firmwareRoute_effects h with h | ⟨_, h⟩ | ⟨-, h | h | rfl⟩
    · exact .inl ⟨_, h⟩
    · exact .inr (.inr (.inl ⟨_, _, .inr h⟩))
    · exact .inl ⟨_, h⟩
    · exact .inr (.inl h)
    · exact .inr (.inr (.inr trivial))

variable {ctx} in
lemma StartEffect.extension (h : ctx.StartEffect img e) : e.extension = none := by
  rcases h.form with ⟨_, rfl⟩ | rfl | ⟨_, _, rfl | rfl⟩ | h
  · rfl
  · rfl
  · rfl
  · rfl
  · cases e with
    | startNative | startImage => rfl
    | _ => cases h

variable {ctx} in
lemma extensions_of_image (h : ctx.imageFor fromUtf8Lossy volumes entry = some img) :
    (ctx.bootEntry fromUtf8Lossy volumes entry).trace.filterMap Effect.extension =
      (ctx.measurements img).filterMap Effect.extension := by
  by_cases hready : ctx.Ready fromUtf8Lossy volumes entry img
  · obtain ⟨past, hpast, heq⟩ := ctx.bootEntry_of_image_ready hready
    have hstart : (ctx.startVerified img
        (ctx.verifiedBytes img (ctx.via img.bytes))).trace.filterMap Effect.extension = [] :=
      List.filterMap_eq_nil_iff.mpr fun e he => (ctx.startEffect_of_mem he).extension
    rw [heq, trace_after, List.filterMap_append, hstart, List.append_nil, hpast.extensions]
  · obtain ⟨past, s, hpast, heq⟩ := ctx.bootEntry_of_image_not_ready h hready
    rw [heq, trace_after, List.filterMap_append, hpast.extensions]
    exact List.append_nil _

variable {ctx} in
lemma extensions_of_no_image (hkind : ∀ path, entry.kind ≠ .chainload path)
    (h : ctx.imageFor fromUtf8Lossy volumes entry = none) :
    (ctx.bootEntry fromUtf8Lossy volumes entry).trace.filterMap Effect.extension = [] := by
  obtain ⟨s, hs⟩ := ctx.bootEntry_of_no_image hkind h
  exact List.filterMap_eq_nil_iff.mpr fun e he => (hs.forall_mem rfl e he).extension

lemma verification_mem (h : ctx.imageFor fromUtf8Lossy volumes entry = some img) :
    .record (ctx.verification img) ∈ (ctx.bootEntry fromUtf8Lossy volumes entry).trace := by
  obtain ⟨stage, past, -, hpast, heq⟩ := ctx.bootEntry_verifies h
  rw [heq, trace_after]
  exact List.mem_append_left _ hpast.recorded

/-- The records of an attempt that is no chainload. -/
inductive AttemptRecord (fromUtf8Lossy : Bytes → Text) (volumes : List Volume)
    (entry : BootEntry) (ev : TrustEvent) : Prop
  | opening (h : OpeningEvent ev)
  | measurement (img : Image) (himage : ctx.imageFor fromUtf8Lossy volumes entry = some img)
      (h : .record ev ∈ ctx.measurements img)
  | verified (img : Image) (himage : ctx.imageFor fromUtf8Lossy volumes entry = some img)
      (h : ev = ctx.verification img)
  | failure (img : Image) (hready : ctx.Ready fromUtf8Lossy volumes entry img)
      (hfails : ctx.NativeFails img) (hencode : OptionsEncode img) (note : Text) (h : ev =
        { event := "image_load_failed", path := img.path, verifiedVia := vNativePeLoader, note })
  | fallsBack (img : Image) (hready : ctx.Ready fromUtf8Lossy volumes entry img)
      (hfails : ctx.NativeFails img) (hevent : ev.event ∈ kindFallbackEvent entry.kind)
  | native (img : Image) (hready : ctx.Ready fromUtf8Lossy volumes entry img)
      (hm : ¬ ctx.Mismatch img) (h : ev = ctx.loadedNativeEvent img (ctx.via img.bytes))
  | firmware (img : Image) (hready : ctx.Ready fromUtf8Lossy volumes entry img)
      (hasks : ctx.AsksFirmware img) (h : ev = ctx.legacyEvent img ∨ ev = loadedFirmwareEvent img)

variable {ev : TrustEvent}

lemma attemptRecord_of_mem (hkind : ∀ path, entry.kind ≠ .chainload path)
    (h : .record ev ∈ (ctx.bootEntry fromUtf8Lossy volumes entry).trace) :
    ctx.AttemptRecord fromUtf8Lossy volumes entry ev := by
  cases ctx.attemptEffect_of_mem hkind h with
  | opening h => exact .opening h
  | measurement img himage h => exact .measurement img himage h
  | asked img himage accepted h => cases h
  | verified img himage h => exact .verified img himage (Effect.record.inj h)
  | start img hready h =>
    cases h with
    | failure h =>
      obtain ⟨hfails, hencode, ⟨_, h⟩ | ⟨note, h⟩ | ⟨h, -⟩⟩ := h
      · cases h
      · exact .failure img hready hfails hencode note (Effect.record.inj h)
      · cases h
    | fallsBack h =>
      obtain ⟨hfails, event, hevent, _, h⟩ := h
      rw [ctx.imageFor_fallbackEvent hready.image] at hevent
      obtain rfl := Effect.record.inj h
      exact .fallsBack img hready hfails hevent
    | native hasks hl hm h =>
      rcases ctx.mem_nativeRoute_of_loads hl hm h with h | h | h | h
      · cases h
      · exact .native img hready hm (Effect.record.inj h)
      · cases (mem_flushes.mp h).1
      · cases h
    | firmware hasks h =>
      rcases ctx.firmwareRoute_effects h with h | ⟨_, h⟩ | ⟨-, h | h | h⟩
      · exact .firmware img hready hasks (.inl (Effect.record.inj h))
      · cases h
      · exact .firmware img hready hasks (.inr (Effect.record.inj h))
      · cases h
      · cases h

lemma record_form
    (h : .record ev ∈ (ctx.bootEntry fromUtf8Lossy volumes entry).trace) :
    QuietEvent ev.event ∨
    (∃ img, ctx.imageFor fromUtf8Lossy volumes entry = some img ∧ ev = ctx.verification img) ∨
    ∃ img, ctx.Ready fromUtf8Lossy volumes entry img ∧ (ev = loadedFirmwareEvent img ∨
      ¬ ctx.Mismatch img ∧ ev = ctx.loadedNativeEvent img (ctx.via img.bytes)) := by
  by_cases hkind : ∃ path, entry.kind = .chainload path
  · obtain ⟨path, hpath⟩ := hkind
    rcases (ctx.chainloadEffect_of_mem hpath h).form with h | ⟨_, _, h⟩ | ⟨_, _, h⟩
    · exact .inl h
    · cases h
    · cases h
  · push Not at hkind
    cases ctx.attemptRecord_of_mem hkind h with
    | opening h => exact .inl (show (Effect.record ev).Opening true from h).quiet
    | measurement img himage h =>
      rcases ctx.measurements_form (P := QuietEvent) (by decide) h with h | ⟨_, h, hev, -⟩
      · exact absurd rfl h
      · exact .inl (Effect.record.inj h ▸ hev)
    | verified img himage h => exact .inr (.inl ⟨img, himage, h⟩)
    | failure img _ _ _ note h => exact .inl (h ▸ (by decide : QuietEvent "image_load_failed"))
    | fallsBack img _ _ hevent =>
      have hquiet : ∀ event ∈ (["kernel_native_load_fallback", "iso_native_load_fallback"] :
          List Text), QuietEvent event := by
        decide
      exact .inl (hquiet _ (mem_of_kindFallbackEvent hevent))
    | native img hready hm h => exact .inr (.inr ⟨img, hready, .inr ⟨hm, h⟩⟩)
    | firmware img hready _ h =>
      rcases h with rfl | h
      · exact .inl (ctx.legacyEvent_quiet img)
      · exact .inr (.inr ⟨img, hready, .inl h⟩)

lemma verification_of_mem
    (h : .record ev ∈ (ctx.bootEntry fromUtf8Lossy volumes entry).trace)
    (hevent : ev.event = "image_verified") :
    ∃ img, ctx.imageFor fromUtf8Lossy volumes entry = some img ∧ ev = ctx.verification img := by
  rcases ctx.record_form h with h | h | ⟨img, -, rfl | ⟨-, rfl⟩⟩
  · exact absurd hevent h.1
  · exact h
  · exact absurd (show "image_loaded_firmware".toList = _ from hevent) (by decide)
  · exact absurd (show "image_loaded_native".toList = _ from hevent) (by decide)

lemma mem_of_asksFirmware (hready : ctx.Ready fromUtf8Lossy volumes entry img)
    (hasks : ctx.AsksFirmware img) (he : e ∈ (ctx.firmwareRoute img).trace) :
    e ∈ (ctx.bootEntry fromUtf8Lossy volumes entry).trace := by
  obtain ⟨past, -, heq⟩ := ctx.bootEntry_of_image_ready hready
  obtain ⟨q, -, hstart⟩ := ctx.startVerified_of_asksFirmware (ctx.via img.bytes) hasks
  rw [heq, trace_after, hstart, trace_after]
  exact List.mem_append_right _ (List.mem_append_right _ he)

lemma loadImage_mem_firmwareRoute (img : Image) :
    ∃ loaded, .loadImage (ctx.loadedImage img) loaded ∈ (ctx.firmwareRoute img).trace := by
  by_cases hl : ctx.LoadsImage img
  · refine ⟨true, ?_⟩
    rw [ctx.firmwareRoute_of_loads hl]
    simp
  · obtain ⟨s, loaded, heq⟩ := ctx.firmwareRoute_of_not_loads_eq hl
    refine ⟨loaded, ?_⟩
    rw [heq]
    simp

lemma startImage_mem_firmwareRoute (h : ctx.LoadsImage img) :
    .startImage (ctx.loadedImage img) ctx.platform.startImage ∈ (ctx.firmwareRoute img).trace ∧
      .flush ∈ (ctx.firmwareRoute img).trace := by
  rw [ctx.firmwareRoute_of_loads h, trace_after, trace_startLoaded]
  simp

lemma loadFailed_mem (hready : ctx.Ready fromUtf8Lossy volumes entry img)
    (hroute : chooseLoadPath ctx.nativePe ctx.posture = .native) (hfails : ctx.NativeFails img)
    (hencode : OptionsEncode img) :
    ∃ note, .record
      { event := "image_load_failed", path := img.path, verifiedVia := vNativePeLoader, note } ∈
        (ctx.bootEntry fromUtf8Lossy volumes entry).trace := by
  obtain ⟨past, -, heq⟩ := ctx.bootEntry_of_image_ready hready
  rcases ctx.nativeRoute_of_fails (ctx.via img.bytes) hfails with
    ⟨hnot, -⟩ | ⟨-, s, note, loaded, t, -, -, hnative⟩
  · exact absurd hencode hnot
  · refine ⟨note, ?_⟩
    rw [heq, trace_after, ctx.startVerified_of_native_fails hroute hnative, trace_after]
    simp

lemma chainloaded_mem (hkind : entry.kind = .chainload path) {esp : Volume}
    (hesp : volumes.head? = some esp) (hread : esp.readStr path = .ok bytes)
    (hload : ctx.platform.loadImage (ctx.memory.atLoadImage bytes) = .ok ()) :
    .record (ctx.chainloadedEvent path bytes) ∈
      (ctx.bootEntry fromUtf8Lossy volumes entry).trace := by
  rw [ctx.bootEntry_of_chainload_loads hkind hesp hread hload]
  simp

/-! ### Which route is taken -/

section Routes

variable (hkind : ∀ path, entry.kind ≠ .chainload path)

include hkind

lemma start_of_mem (h : e ∈ (ctx.bootEntry fromUtf8Lossy volumes entry).trace)
    (hopening : ¬ e.Opening ctx.conoutFatCoupling) (hrecord : ∀ ev, e ≠ .record ev)
    (hextend : e.extension = none) (hshim : ∀ image accepted, e ≠ .shimVerify image accepted)
    (hloadPe : ∀ image loaded, e ≠ .loadPe image loaded) :
    ∃ img, ctx.Ready fromUtf8Lossy volumes entry img ∧
      ((¬ ctx.AsksFirmware img ∧ ctx.LoadsPe img ∧ ¬ ctx.Mismatch img ∧
          e = .startNative (ctx.loadedPe img) ctx.platform.startNative) ∨
        (ctx.AsksFirmware img ∧ ((∃ loaded, e = .loadImage (ctx.loadedImage img) loaded) ∨
          ctx.LoadsImage img ∧
            (e = .flush ∨ e = .startImage (ctx.loadedImage img) ctx.platform.startImage)))) := by
  cases ctx.attemptEffect_of_mem hkind h with
  | opening h => exact absurd h hopening
  | measurement img himage h =>
    rcases ctx.measurements_form (P := fun _ => True) (fun _ _ => trivial) h with h | ⟨ev, h, -⟩
    · exact absurd hextend h
    · exact absurd h (hrecord ev)
  | asked img himage accepted h => exact absurd h (hshim _ _)
  | verified img himage h => exact absurd h (hrecord _)
  | start img hready h =>
    refine ⟨img, hready, ?_⟩
    cases h with
    | failure h =>
      obtain ⟨-, -, ⟨_, h⟩ | ⟨_, h⟩ | ⟨rfl, hcoupling⟩⟩ := h
      · exact absurd h (hloadPe _ _)
      · exact absurd h (hrecord _)
      · exact absurd hcoupling hopening
    | fallsBack h =>
      obtain ⟨-, _, _, _, h⟩ := h
      exact absurd h (hrecord _)
    | native hasks hl hm h =>
      rcases ctx.mem_nativeRoute_of_loads hl hm h with h | h | h | h
      · exact absurd h (hloadPe _ _)
      · exact absurd h (hrecord _)
      · obtain ⟨rfl, hcoupling⟩ := mem_flushes.mp h
        exact absurd hcoupling hopening
      · exact .inl ⟨hasks, hl, hm, h⟩
    | firmware hasks h =>
      rcases ctx.firmwareRoute_effects h with h | h | ⟨hl, h | h | h⟩
      · exact absurd h (hrecord _)
      · exact .inr ⟨hasks, .inl h⟩
      · exact absurd h (hrecord _)
      · exact .inr ⟨hasks, .inr ⟨hl, .inl h⟩⟩
      · exact .inr ⟨hasks, .inr ⟨hl, .inr h⟩⟩

lemma loadImage_mem_iff :
    (∃ image loaded, .loadImage image loaded ∈ (ctx.bootEntry fromUtf8Lossy volumes entry).trace) ↔
      ∃ img, ctx.Ready fromUtf8Lossy volumes entry img ∧ ctx.AsksFirmware img := by
  constructor
  · rintro ⟨image, loaded, h⟩
    obtain ⟨img, hready, ⟨-, -, -, h⟩ | ⟨hasks, -⟩⟩ :=
      ctx.start_of_mem hkind h id nofun rfl nofun nofun
    · cases h
    · exact ⟨img, hready, hasks⟩
  · rintro ⟨img, hready, hasks⟩
    obtain ⟨loaded, hload⟩ := ctx.loadImage_mem_firmwareRoute img
    exact ⟨_, loaded, ctx.mem_of_asksFirmware hready hasks hload⟩

lemma startImage_mem_iff :
    (∃ image returned,
      .startImage image returned ∈ (ctx.bootEntry fromUtf8Lossy volumes entry).trace) ↔
      ∃ img, ctx.Ready fromUtf8Lossy volumes entry img ∧ ctx.AsksFirmware img ∧
        ctx.LoadsImage img := by
  constructor
  · rintro ⟨image, returned, h⟩
    obtain ⟨img, hready, ⟨-, -, -, h⟩ | ⟨hasks, ⟨loaded, h⟩ | ⟨hl, -⟩⟩⟩ :=
      ctx.start_of_mem hkind h id nofun rfl nofun nofun
    · cases h
    · cases h
    · exact ⟨img, hready, hasks, hl⟩
  · rintro ⟨img, hready, hasks, hl⟩
    exact ⟨_, _, ctx.mem_of_asksFirmware hready hasks (ctx.startImage_mem_firmwareRoute hl).1⟩

omit hkind in
variable {ctx} in
lemma not_chainload_of_startNative {returned : Option Status}
    (h : .startNative image returned ∈ (ctx.bootEntry fromUtf8Lossy volumes entry).trace)
    (path : Text) : entry.kind ≠ .chainload path := by
  intro hpath
  rcases (ctx.chainloadEffect_of_mem hpath h).form with h | ⟨_, _, h⟩ | ⟨_, _, h⟩
  · exact h
  · cases h
  · cases h

lemma not_asksFirmware_of_startNative {returned : Option Status}
    (h : .startNative image returned ∈ (ctx.bootEntry fromUtf8Lossy volumes entry).trace) :
    ∃ img, ctx.Ready fromUtf8Lossy volumes entry img ∧ ¬ ctx.AsksFirmware img := by
  obtain ⟨img, hready, ⟨hasks, -⟩ | ⟨-, ⟨loaded, h⟩ | ⟨-, h | h⟩⟩⟩ :=
    ctx.start_of_mem hkind h id nofun rfl nofun nofun
  · exact ⟨img, hready, hasks⟩
  · cases h
  · cases h
  · cases h

lemma startNative_or_fails_of_not_asksFirmware
    (h : ∀ img, ctx.Ready fromUtf8Lossy volumes entry img → ¬ ctx.AsksFirmware img) :
    (∃ image returned,
      .startNative image returned ∈ (ctx.bootEntry fromUtf8Lossy volumes entry).trace) ∨
      ∃ s, (ctx.bootEntry fromUtf8Lossy volumes entry).result = .error (.error s) := by
  by_cases hready : ∃ img, ctx.Ready fromUtf8Lossy volumes entry img
  · obtain ⟨img, hready⟩ := hready
    obtain ⟨past, -, heq⟩ := ctx.bootEntry_of_image_ready hready
    obtain ⟨-, ⟨hl, hm, hstart⟩ | ⟨-, s, q, -, hstart⟩⟩ :=
      ctx.startVerified_of_not_asksFirmware (ctx.via img.bytes) (h img hready)
    · refine .inl ⟨ctx.loadedPe img, ctx.platform.startNative, ?_⟩
      rw [heq, hstart, ctx.nativeRoute_of_loads _ hl hm]
      simp
    · refine .inr ⟨s, ?_⟩
      rw [heq, hstart]
      rfl
  · obtain ⟨s, q, -, heq⟩ := ctx.bootEntry_of_not_ready hkind hready
    refine .inr ⟨s, ?_⟩
    rw [heq]
    rfl

/-- Where the policy asks for the native loader always, an attempt keeps to it exactly where the
native loader does not fail, or the flow of its entry does not fall back. -/
theorem native_only_iff (halways : ctx.nativePe = .always) :
    ((∀ image loaded,
        .loadImage image loaded ∉ (ctx.bootEntry fromUtf8Lossy volumes entry).trace) ∧
      ((∃ image returned,
        .startNative image returned ∈ (ctx.bootEntry fromUtf8Lossy volumes entry).trace) ∨
        ∃ s, (ctx.bootEntry fromUtf8Lossy volumes entry).result = .error (.error s))) ↔
      (kindFallbackEvent entry.kind = none ∨ ∀ img, ctx.Ready fromUtf8Lossy volumes entry img →
        ctx.LoadsPe img ∧ ¬ ctx.Mismatch img) := by
  have hasks : ∀ img, ctx.Ready fromUtf8Lossy volumes entry img →
      (ctx.AsksFirmware img ↔ kindFallbackEvent entry.kind ≠ none ∧
        ¬ (ctx.LoadsPe img ∧ ¬ ctx.Mismatch img)) := by
    intro img hready
    have hroute : chooseLoadPath ctx.nativePe ctx.posture ≠ .firmware := by
      rw [halways]
      nofun
    rw [AsksFirmware, ctx.imageFor_fallbackEvent hready.image, NativeFails]
    tauto
  constructor
  · rintro ⟨hload, -⟩
    by_contra hnot
    push Not at hnot
    obtain ⟨hfallback, img, hready, hfails⟩ := hnot
    obtain ⟨image, loaded, hmem⟩ := (ctx.loadImage_mem_iff hkind).mpr
      ⟨img, hready, (hasks img hready).mpr ⟨hfallback, by tauto⟩⟩
    exact hload image loaded hmem
  · intro h
    have hnot : ∀ img, ctx.Ready fromUtf8Lossy volumes entry img → ¬ ctx.AsksFirmware img := by
      intro img hready hfirmware
      obtain ⟨hfallback, hfails⟩ := (hasks img hready).mp hfirmware
      rcases h with h | h
      · exact hfallback h
      · exact hfails (h img hready)
    refine ⟨fun image loaded hmem => ?_, ctx.startNative_or_fails_of_not_asksFirmware hkind hnot⟩
    obtain ⟨img, hready, hfirmware⟩ := (ctx.loadImage_mem_iff hkind).mp ⟨image, loaded, hmem⟩
    exact hnot img hready hfirmware

end Routes

/-- On a machine that accepts everything, a kernel is loaded natively only. -/
theorem kernel_native_only :
    let ctx := BootContext.accepting .always .disabled true .stable none
    let attempt := ctx.bootEntry (fun _ => []) [.uniform [1]] kernelEntry
    (∀ image loaded, .loadImage image loaded ∉ attempt.trace) ∧
      ((∃ image returned, .startNative image returned ∈ attempt.trace) ∨
        ∃ s, attempt.result = .error (.error s)) := by
  have hkind : ∀ path, kernelEntry.kind ≠ .chainload path := by
    intro path hpath
    cases hpath
  refine (native_only_iff _ hkind rfl).mpr (.inr fun img hready => ?_)
  obtain rfl : ⟨[1], "\\vmlinuz", [], "fat",
      some "kernel_native_load_fallback"⟩ = img := Option.some.inj hready.image
  exact ⟨⟨.inl rfl, rfl⟩, fun hm => hm rfl⟩

def refusingPe : BootContext :=
  let ctx := BootContext.accepting .always .disabled true .stable none
  { ctx with platform := { ctx.platform with checkPe _ := .error ⟨"parse", []⟩ } }

/-- The policy asks for the native loader always, and yet a kernel that it refuses is loaded and
started by the firmware. -/
theorem kernel_falls_back_to_firmware :
    let attempt := refusingPe.bootEntry (fun _ => []) [.uniform [1]] kernelEntry
    refusingPe.nativePe = .always ∧ .loadImage [1] true ∈ attempt.trace ∧
      .startImage [1] none ∈ attempt.trace := by
  decide

end BootContext

end LamBoot
