import LamBoot.Inspect.Diagnose
import LamBoot.Inspect.RoundTrip
import LamBoot.Main.Records

/-!
# The events of a run and the inspector's schema

The boot loader writes tokens that are not in the vocabulary of the inspector.
-/

namespace LamBoot.Inspect

open List Text Python Traced BootContext

/-! ### Valid events -/

/-- The inspector finds nothing wrong with the event. -/
def Valid (ev : TrustEvent) : Prop :=
  ∀ seq line, validate (parsedEvent seq line ev) = []

lemma issue_eq_nil_iff {found : Bool} {text : Text} : issue found text = [] ↔ found = false := by
  cases found <;> simp [issue]

variable {ev : TrustEvent}

lemma valid_iff :
    Valid ev ↔ ev.event ≠ [] ∧ (ev.sha256Hex = [] ∨ isHexDigest ev.sha256Hex = true) ∧
      (ev.verifiedVia = [] ∨ ev.verifiedVia ∈ verifiedViaTokens ∨
        ev.verifiedVia.head? = some '_') ∧
      (ev.event = imageVerified → ev.sha256Hex ≠ [] ∧ ev.verifiedVia ≠ []) := by
  have hvalidate : ∀ seq line, validate (parsedEvent seq line ev) = [] ↔
      ev.event ≠ [] ∧ (ev.sha256Hex = [] ∨ isHexDigest ev.sha256Hex = true) ∧
        (ev.verifiedVia = [] ∨ ev.verifiedVia ∈ verifiedViaTokens ∨
          ev.verifiedVia.head? = some '_') ∧
        (ev.event = imageVerified → ev.sha256Hex ≠ [] ∧ ev.verifiedVia ≠ []) := by
    intro seq line
    simp only [validate, append_eq_nil_iff, issue_eq_nil_iff, ← Bool.not_eq_true, decide_eq_true_eq]
    simp only [parsedEvent]
    tauto
  exact ⟨fun h => (hvalidate 0 0).mp (h 0 0), fun h seq line => (hvalidate seq line).mpr h⟩

lemma valid_of_plain (hevent : ev.event ≠ []) (hverified : ev.event ≠ imageVerified)
    (hsha : ev.sha256Hex = []) (hvia : ev.verifiedVia = []) : Valid ev :=
  valid_iff.mpr ⟨hevent, .inl hsha, .inl hvia, fun h => absurd h hverified⟩

def unknownTokens : List Text :=
  [vDegradedTrustSbDirect, vShimRejected, vNativePeLoader, vFirmwareLoadimage]

lemma Valid.via_ne (h : Valid ev) (token : Text) (htoken : token ∈ unknownTokens) :
    ev.verifiedVia ≠ token := by
  have hunknown : ∀ via ∈ unknownTokens,
      ¬ (via = [] ∨ via ∈ verifiedViaTokens ∨ via.head? = some '_') := by
    decide
  rintro rfl
  exact hunknown _ htoken (valid_iff.mp h).2.2.1

lemma isHexDigest_hexEncode {digest : Bytes} (h : digest.length = 32) :
    isHexDigest (hexEncode digest) = true := by
  have hlength : ∀ digest : Bytes, (hexEncode digest).length = 2 * digest.length := by
    intro digest
    rw [hexEncode, length_flatMap]
    simp [Nat.mul_comm]
  have hdigits : ∀ n < 16, (Json.hexValue (Nat.digitChar n)).isSome = true := by decide
  rw [isHexDigest, hlength, h, Bool.and_eq_true]
  refine ⟨rfl, all_eq_true.mpr fun c hc => ?_⟩
  obtain ⟨b, -, hc⟩ := mem_flatMap.mp hc
  have hb := b.toNat_lt
  rcases mem_pair.mp hc with rfl | rfl
  · exact hdigits _ (by omega)
  · exact hdigits _ (by omega)

lemma hexEncode_ne_nil {digest : Bytes} (h : digest.length = 32) : hexEncode digest ≠ [] := by
  intro hnil
  have hhex := isHexDigest_hexEncode h
  rw [hnil] at hhex
  cases hhex

/-! ### Attempts -/

/-- An attempt without tokens unknown to the inspector: a chainload that the firmware does not load,
or an image not verified without shim, not refused, and not handed to the firmware. -/
structure Clean (ctx : BootContext) (fromUtf8Lossy : Bytes → Text) (volumes : List Volume)
    (entry : BootEntry) : Prop where
  chainload : ∀ path, entry.kind = .chainload path → ∀ esp bytes, volumes.head? = some esp →
    esp.readStr path = .ok bytes →
      ctx.platform.loadImage (ctx.memory.atLoadImage bytes) ≠ .ok ()
  verified : ∀ img, ctx.imageFor fromUtf8Lossy volumes entry = some img →
    ctx.posture ≠ .activeDirect ∧ ctx.Accepts img.bytes
  loaded : ∀ img, ctx.Ready fromUtf8Lossy volumes entry img →
    ¬ ctx.AsksFirmware img ∧ (OptionsEncode img → ¬ ctx.NativeFails img)

section Attempts

variable {ctx : BootContext} {fromUtf8Lossy : Bytes → Text} {volumes : List Volume}
  {entry : BootEntry} {img : Image}

lemma valid_of_opening (h : OpeningEvent ev) : Valid ev := by
  have hevents : ∀ event ∈ openingEvents, event ≠ [] ∧ event ≠ imageVerified := by decide
  obtain ⟨hne, hverified⟩ := hevents _ h.event
  exact valid_of_plain hne hverified h.sha256Hex h.verifiedVia

lemma via_of_clean {image : Bytes} (hposture : ctx.posture ≠ .activeDirect)
    (haccepts : ctx.Accepts image) : ctx.via image ∈ verifiedViaTokens ∧ ctx.via image ≠ [] := by
  have htokens : ∀ via ∈ ([vDegradedTrustSbOff, vShimMok] : List Text),
      via ∈ verifiedViaTokens ∧ via ≠ [] := by
    decide
  have hmem : ctx.via image ∈ ([vDegradedTrustSbOff, vShimMok] : List Text) := by
    unfold via verdictOf
    cases hp : ctx.posture with
    | disabled => exact mem_cons_self
    | activeDirect => exact absurd hp hposture
    | activeWithShim =>
      dsimp only
      rw [if_pos (haccepts hp)]
      exact mem_of_getElem? (i := 1) rfl
  exact htokens _ hmem

section Digests

variable (hsha : ∀ bytes, (ctx.platform.sha256 bytes).length = 32)

include hsha

lemma valid_verification (hposture : ctx.posture ≠ .activeDirect)
    (haccepts : ctx.Accepts img.bytes) : Valid (ctx.verification img) := by
  obtain ⟨htoken, hne⟩ := via_of_clean hposture haccepts
  exact valid_iff.mpr ⟨cons_ne_nil _ _, .inr (isHexDigest_hexEncode (hsha _)),
    .inr (.inl htoken), fun _ => ⟨hexEncode_ne_nil (hsha _), hne⟩⟩

lemma valid_loadedNative (hposture : ctx.posture ≠ .activeDirect)
    (haccepts : ctx.Accepts img.bytes) :
    Valid (ctx.loadedNativeEvent img (ctx.via img.bytes)) := by
  have hverified : ("image_loaded_native" : Text) ≠ imageVerified := by decide
  exact valid_iff.mpr ⟨cons_ne_nil _ _, .inr (isHexDigest_hexEncode (hsha _)),
    .inr (.inl (via_of_clean hposture haccepts).1), fun h => absurd h hverified⟩

lemma valid_of_clean (h : Clean ctx fromUtf8Lossy volumes entry)
    (hmem : .record ev ∈ (ctx.bootEntry fromUtf8Lossy volumes entry).trace) : Valid ev := by
  by_cases hkind : ∃ path, entry.kind = .chainload path
  · obtain ⟨path, hpath⟩ := hkind
    cases chainloadEffect_of_mem _ hpath hmem with
    | read h => cases h
    | measurement bytes h =>
      rcases ctx.measurement_form (P := fun name => name ≠ [] ∧ name ≠ imageVerified) (by decide)
        (by decide) h with h | ⟨_, h, hname, hsha, hvia⟩
      · exact absurd rfl h
      · rw [Effect.record.inj h]
        exact valid_of_plain hname.1 hname.2 hsha hvia
    | loadImage image loaded h => cases h
    | loaded esp hesp bytes hread hload =>
      exact absurd hload (h.chainload path hpath esp bytes hesp hread)
  · push Not at hkind
    cases ctx.attemptRecord_of_mem hkind hmem with
    | opening h => exact valid_of_opening h
    | measurement img himage h =>
      rcases ctx.measurements_form (P := fun name => name ≠ [] ∧ name ≠ imageVerified) (by decide)
        h with h | ⟨_, h, hname, hsha, hvia⟩
      · exact absurd rfl h
      · rw [Effect.record.inj h]
        exact valid_of_plain hname.1 hname.2 hsha hvia
    | verified img himage hev =>
      obtain ⟨hposture, haccepts⟩ := h.verified img himage
      rw [hev]
      exact valid_verification hsha hposture haccepts
    | failure img hready hfails hencode note =>
      exact absurd hfails ((h.loaded img hready).2 hencode)
    | fallsBack img hready hfails hevent =>
      rw [← ctx.imageFor_fallbackEvent hready.image] at hevent
      exact absurd (.inr ⟨Option.ne_none_iff_exists'.mpr ⟨_, hevent⟩, hfails⟩)
        (h.loaded img hready).1
    | native img hready hm hev =>
      obtain ⟨hposture, haccepts⟩ := h.verified img hready.image
      rw [hev]
      exact valid_loadedNative hsha hposture haccepts
    | firmware img hready hasks => exact absurd hasks (h.loaded img hready).1

omit hsha in
lemma clean_of_valid
    (h : ∀ ev, .record ev ∈ (ctx.bootEntry fromUtf8Lossy volumes entry).trace → Valid ev) :
    Clean ctx fromUtf8Lossy volumes entry := by
  refine ⟨fun path hpath esp bytes hesp hread hload => ?_, fun img himage => ?_,
    fun img hready => ?_⟩
  · exact (h _ (ctx.chainloaded_mem hpath hesp hread hload)).via_ne vFirmwareLoadimage
      (by decide) rfl
  · have hvalid := h _ (ctx.verification_mem himage)
    constructor
    · intro hposture
      have hvia : ctx.via img.bytes = vDegradedTrustSbDirect := by
        rw [via, verdictOf, hposture]
      exact hvalid.via_ne vDegradedTrustSbDirect (by decide) hvia
    · by_contra haccepts
      exact hvalid.via_ne vShimRejected (by decide) (ctx.via_of_not_accepts haccepts)
  · have hasks : ¬ ctx.AsksFirmware img := by
      intro hasks
      have hlegacy : .record (ctx.legacyEvent img) ∈ (ctx.firmwareRoute img).trace := by
        by_cases hl : ctx.LoadsImage img
        · rw [ctx.firmwareRoute_of_loads hl]
          simp
        · obtain ⟨s, loaded, heq⟩ := ctx.firmwareRoute_of_not_loads_eq hl
          rw [heq]
          simp
      exact (h _ (ctx.mem_of_asksFirmware hready hasks hlegacy)).via_ne vFirmwareLoadimage
        (by decide) rfl
    refine ⟨hasks, fun hencode hfails => ?_⟩
    obtain ⟨hroute, -⟩ := ctx.startVerified_of_not_asksFirmware (ctx.via img.bytes) hasks
    obtain ⟨note, hmem⟩ := ctx.loadFailed_mem hready hroute hfails hencode
    exact (h _ hmem).via_ne vNativePeLoader (by decide) rfl

end Digests

end Attempts

/-! ### Runs -/

/-- Every attempt of the run is clean. -/
def CleanRun (run : Run) : Prop :=
  ∀ p ∈ run.passes, ∀ selection, run.cfg.selection p.2 p.1 = some selection →
    p.2.writeBootReport = .ok () →
      Clean (run.cfg.bootContext p.2) run.cfg.fromUtf8Lossy (LoopConfig.volumesAtBoot p.2 p.1)
        selection

/-- In some pass the firmware loads an image, other than by a chainload. -/
def LoadsThroughFirmware (run : Run) : Prop :=
  ∃ p ∈ run.passes, ∃ selection, run.cfg.selection p.2 p.1 = some selection ∧
    p.2.writeBootReport = .ok () ∧ (∀ path, selection.kind ≠ .chainload path) ∧
    ∃ image, .loadImage image true ∈ (run.cfg.attempt p.2 p.1 selection).trace

def logOf (py : Python) (run : Run) : ParseResult :=
  parse py (utf8 (serializeEvents run.events 0))

/-- The inspector finds nothing wrong with the events of a run, and reports it where the firmware
loaded the kernel. -/
structure Validates (py : Python) (run : Run) : Prop where
  events : ∀ ev ∈ run.events, Valid ev
  fallback : LoadsThroughFirmware run → ruleFirmwareFallback (logOf py run) ≠ []

section Runs

variable {run : Run}

lemma valid_of_startupEvent (h : StartupEvent ev) : Valid ev := by
  obtain ⟨⟨site, hevent, hvia⟩, hsha⟩ := h
  have hsites : ∀ site : StartupSite, site.event ≠ [] ∧ site.event ≠ imageVerified ∧
      (site.verifiedVia = [] ∨ site.verifiedVia ∈ verifiedViaTokens) := by
    intro site
    cases site <;> decide
  obtain ⟨hne, hverified, htoken⟩ := hsites site
  refine valid_iff.mpr ⟨hevent ▸ hne, .inl hsha, ?_, fun h => absurd (hevent ▸ h) hverified⟩
  rw [hvia]
  exact htoken.imp_right .inl

lemma mem_events_iff :
    ev ∈ run.events ↔ ev ∈ run.startup ∨
      ∃ p ∈ run.passes, .boot (.record ev) ∈ (run.cfg.pass p.2 p.1).trace := by
  simp only [Run.events, mem_append, mem_flatMap, mem_filterMap, recorded_eq_some]
  simp

lemma validEvents_iff : (∀ ev ∈ run.events, Valid ev) ↔ CleanRun run := by
  constructor
  · intro h p hp selection hsel hreport
    refine clean_of_valid fun ev hev => h ev (mem_events_iff.mpr (.inr ⟨p, hp, ?_⟩))
    exact LoopConfig.recorded_of_attempt hsel hreport hev
  · intro h ev hev
    rcases mem_events_iff.mp hev with hev | ⟨p, hp, hev⟩
    · exact valid_of_startupEvent (run.startupEvents ev hev)
    · rcases LoopConfig.recorded_of_pass hev with ⟨hname, hsha, hvia⟩ |
        ⟨selection, hsel, hreport, hmem⟩
      · have hnames : ∀ event ∈ LoopConfig.passEvents, event ≠ [] ∧ event ≠ imageVerified := by
          decide
        obtain ⟨hne, hverified⟩ := hnames _ hname
        exact valid_of_plain hne hverified hsha hvia
      · have hworld := run.cfg.world_mem_of_mem_passes run.state run.worlds hp
        have hsha : ∀ bytes, ((run.cfg.bootContext p.2).platform.sha256 bytes).length = 32 :=
          run.digests p.2 hworld
        exact valid_of_clean hsha (h p hp selection hsel hreport) hmem

lemma not_loadsThroughFirmware (h : CleanRun run) : ¬ LoadsThroughFirmware run := by
  rintro ⟨p, hp, selection, hsel, hreport, hkind, image, hmem⟩
  obtain ⟨img, hready, hasks⟩ := (loadImage_mem_iff _ hkind).mp ⟨image, true, hmem⟩
  exact ((h p hp selection hsel hreport).loaded img hready).1 hasks

lemma snd_mem_of_mem_numbered {start : UInt64} {evs : List TrustEvent} {e : Nat × TrustEvent}
    (he : e ∈ numbered start evs) : e.2 ∈ evs := by
  obtain ⟨i, hi, rfl⟩ := mem_mapIdx.mp he
  exact getElem_mem hi

lemma logOf_eq (py : Python) (hframed : ∀ ev ∈ run.events, Framed ev) :
    logOf py run =
      { events := sortEvents (parsedEvents (numbered 0 run.events))
        parseErrors := []
        schemaViolations := (parsedEvents (numbered 0 run.events)).filterMap violation
        sourceSha256 := some (py.sha256 (utf8 (logText (numbered 0 run.events)))) } := by
  rw [logOf, serializeEvents_eq_logText,
    parse_logText py fun e he => hframed _ (snd_mem_of_mem_numbered he)]

lemma schemaViolations_eq_nil (py : Python) (hvalid : ∀ ev ∈ run.events, Valid ev)
    (hframed : ∀ ev ∈ run.events, Framed ev) : (logOf py run).schemaViolations = [] := by
  rw [logOf_eq py hframed]
  refine filterMap_eq_nil_iff.mpr fun e he => ?_
  obtain ⟨x, hx, rfl⟩ := mem_map.mp he
  have hev := snd_mem_of_mem_numbered (fst_mem_of_mem_zipIdx hx)
  exact if_pos (hvalid _ hev _ _)

lemma ruleFirmwareFallback_logOf (py : Python) (hframed : ∀ ev ∈ run.events, Framed ev) :
    ruleFirmwareFallback (logOf py run) = [] := by
  have hnames : ∀ site : StartupSite, site.event ≠ "firmware_loadimage" := by
    intro site
    cases site <;> decide
  have hothers : ∀ event ∈ LoopConfig.passEvents ++ attemptEvents,
      event ≠ "firmware_loadimage" := by
    decide
  rw [ruleFirmwareFallback, if_neg]
  rintro ⟨hfound, -⟩
  obtain ⟨e, he⟩ := exists_mem_of_ne_nil _ hfound
  obtain ⟨he, hevent⟩ := mem_filter.mp he
  rw [logOf_eq py hframed, (sortEvents_perm _).mem_iff] at he
  obtain ⟨x, hx, rfl⟩ := mem_map.mp he
  have hevent : x.1.2.event = "firmware_loadimage" := of_decide_eq_true hevent
  have hx := snd_mem_of_mem_numbered (fst_mem_of_mem_zipIdx hx)
  rcases mem_events_iff.mp hx with hx | ⟨p, -, hx⟩
  · obtain ⟨site, hsite, -⟩ := (run.startupEvents _ hx).site
    exact hnames site (hsite ▸ hevent)
  · rcases LoopConfig.recorded_of_pass hx with ⟨hname, -⟩ | ⟨selection, -, -, hmem⟩
    · exact hothers _ (mem_append_left _ hname) hevent
    · exact hothers _ (mem_append_right _ (event_mem_attemptEvents hmem)) hevent

/-- The inspector finds nothing wrong with the events of a run exactly where all its attempts are
clean. A strict diagnosis of its log then does not fail, where no field has a line separator. -/
theorem validates_iff (py : Python) (run : Run) :
    (Validates py run ↔ CleanRun run) ∧
      (CleanRun run → (∀ ev ∈ run.events, Framed ev) →
        (logOf py run).schemaViolations = [] ∧
          ∀ floor, (diagnose py true floor (logOf py run)).2 ≠ exitUnsafe) := by
  refine ⟨⟨fun h => validEvents_iff.mp h.events, fun h => ⟨validEvents_iff.mpr h, fun hloads =>
    absurd hloads (not_loadsThroughFirmware h)⟩⟩, fun h hframed => ?_⟩
  have hnone := schemaViolations_eq_nil py (validEvents_iff.mpr h) hframed
  refine ⟨hnone, fun floor => ?_⟩
  simp only [diagnose, hnone, exitCodeFor, length_nil, ne_eq, not_true_eq_false, decide_false,
    Bool.and_false, Bool.false_eq_true, if_false]
  split_ifs <;> decide

end Runs

def sha256OfOne : Bytes :=
  [0x4b, 0xf5, 0x12, 0x2f, 0x34, 0x45, 0x54, 0xc5, 0x3b, 0xde, 0x2e, 0xbb, 0x8c, 0xd2, 0xb7, 0xe3,
    0xd1, 0x60, 0x0a, 0xd6, 0x31, 0xc3, 0x85, 0xa5, 0xd7, 0xcc, 0xe2, 0x3c, 0x77, 0x85, 0x45, 0x9a]

def kernelRun (cfg : LoopConfig) : Run where
  startup := [{ event := "boot_start" }]
  startupEvents := by
    intro ev hev
    rw [mem_singleton.mp hev]
    exact ⟨⟨.bootStart, rfl, rfl⟩, rfl⟩
  cfg := cfg
  state := .discovered 0 false .blank
  worlds :=
    let w := World.accepting kernelEntry none
    [{ w with platform := { w.platform with sha256 _ := sha256OfOne } }]
  digests := by
    intro w hw bytes
    rw [mem_singleton.mp hw]
    rfl

/-- Without Secure Boot and with the default policy, the inspector finds nothing wrong. -/
theorem kernelRun_validates :
    Validates .minimal (kernelRun .default) ∧
      (diagnose .minimal true .info (logOf .minimal (kernelRun .default))).2 ≠ exitUnsafe := by
  have hclean : CleanRun (kernelRun .default) := by
    intro p hp selection hsel hreport
    obtain rfl := mem_singleton.mp hp
    obtain rfl : kernelEntry = selection := Option.some.inj hsel
    refine ⟨fun path hpath => ?_, fun img himage => ⟨nofun, nofun⟩, fun img hready => ?_⟩
    · cases hpath
    · obtain rfl : ⟨[1], "\\vmlinuz", [], "fat",
          some "kernel_native_load_fallback"⟩ = img := Option.some.inj hready.image
      refine ⟨?_, fun _ hfails => hfails ⟨.inl rfl, rfl⟩ rfl⟩
      rintro (hroute | ⟨-, hfails⟩)
      · cases hroute
      · exact hfails ⟨.inl rfl, rfl⟩ rfl
  obtain ⟨hiff, hstrict⟩ := validates_iff .minimal (kernelRun .default)
  exact ⟨hiff.mpr hclean, (hstrict hclean (by decide +kernel)).2 .info⟩

/-- Where the policy is never to load natively, the firmware loads the kernel, and the events are
not valid. The load is not reported either. -/
theorem kernelRun_not_validates :
    let run := kernelRun { LoopConfig.default with policy := { loaderNativePe := .never } }
    LoadsThroughFirmware run ∧ ruleFirmwareFallback (logOf .minimal run) = [] ∧
      (∃ ev ∈ run.events, ev.event = "image_loaded_firmware" ∧ ¬ Valid ev) ∧
      ¬ Validates .minimal run := by
  intro run
  have hloads : LoadsThroughFirmware run := by
    refine ⟨_, mem_singleton_self _, kernelEntry, rfl, rfl, nofun, [1], ?_⟩
    decide +kernel
  have hsilent : ruleFirmwareFallback (logOf .minimal run) = [] :=
    ruleFirmwareFallback_logOf .minimal (by decide +kernel)
  refine ⟨hloads, hsilent, ?_, fun h => h.fallback hloads hsilent⟩
  refine ⟨{ event := "image_loaded_firmware", path := "\\vmlinuz",
            verifiedVia := vFirmwareLoadimage, status := "SUCCESS" }, by decide +kernel, rfl,
    fun h => h.via_ne vFirmwareLoadimage (by decide) rfl⟩

end LamBoot.Inspect
