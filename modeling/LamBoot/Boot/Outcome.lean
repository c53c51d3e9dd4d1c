import LamBoot.Boot.Routes

/-!
# How boot attempts end

An attempt starts at most one image, and that is the last thing it does (`bootEntry_outcome`). The
native route then ends with whatever status the image returns; the firmware route turns every
status but success into an error.
-/

namespace LamBoot.BootContext

open List Text Traced

variable (ctx : BootContext)

/-- The image is ready, takes the native route, and is there loaded and started. -/
structure StartsNatively (fromUtf8Lossy : Bytes → Text) (volumes : List Volume)
    (entry : BootEntry) (img : Image) : Prop where
  ready : ctx.Ready fromUtf8Lossy volumes entry img
  native : chooseLoadPath ctx.nativePe ctx.posture = .native
  loadsPe : ctx.LoadsPe img
  digest : ¬ ctx.Mismatch img

/-- The ways an attempt ends: it fails without a start, or it starts one image last, on one of the
two routes, and ends as that route takes the status the image returns with. -/
inductive Outcome (fromUtf8Lossy : Bytes → Text) (volumes : List Volume) (entry : BootEntry)
    (attempt : Attempt Status) : Prop
  | fails (s : Status) (h : Reaches (fun e => ¬ e.Starts) attempt (fail s))
  | native (img : Image) (hstarts : ctx.StartsNatively fromUtf8Lossy volumes entry img)
      (h : Reaches (fun e => ¬ e.Starts) attempt
        (after [.startNative (ctx.loadedPe img) ctx.platform.startNative]
          (awaitReturn ctx.platform.startNative)))
  | firmware (image : Bytes)
      (h : Reaches (fun e => ¬ e.Starts) attempt (startLoaded ctx.platform image))

variable {fromUtf8Lossy : Bytes → Text} {volumes : List Volume} {entry : BootEntry}

variable {ctx} in
lemma Outcome.of_reaches {x y : Attempt Status} (h : Reaches (fun e => ¬ e.Starts) x y)
    (hy : ctx.Outcome fromUtf8Lossy volumes entry y) :
    ctx.Outcome fromUtf8Lossy volumes entry x := by
  cases hy with
  | fails s hs => exact .fails s (h.trans hs)
  | native img hstarts hs => exact .native img hstarts (h.trans hs)
  | firmware image hs => exact .firmware image (h.trans hs)

lemma outcome_firmwareRoute (img : Image) :
    ctx.Outcome fromUtf8Lossy volumes entry (ctx.firmwareRoute img) := by
  by_cases hl : ctx.LoadsImage img
  · refine .firmware _ ⟨_, ?_, ctx.firmwareRoute_of_loads hl⟩
    simp [Effect.Starts]
  · obtain ⟨s, loaded, heq⟩ := ctx.firmwareRoute_of_not_loads_eq hl
    refine .fails s ⟨_, ?_, heq⟩
    simp [Effect.Starts]

variable {img : Image}

lemma nativeRoute_reaches_start (verifiedVia : Text) (hl : ctx.LoadsPe img)
    (hm : ¬ ctx.Mismatch img) :
    Reaches (fun e => ¬ e.Starts) (ctx.nativeRoute img verifiedVia)
      (after [.startNative (ctx.loadedPe img) ctx.platform.startNative]
        (awaitReturn ctx.platform.startNative)) := by
  rw [ctx.nativeRoute_of_loads verifiedVia hl hm, ← after_after]
  refine Reaches.after (fun e he => ?_) (Reaches.refl _)
  simp only [mem_append, mem_cons, not_mem_nil, or_false] at he
  rcases he with (rfl | rfl) | he
  · exact id
  · exact id
  · rw [(mem_flushes.mp he).1]
    exact id

variable {ctx} in
lemma NativeFailure.not_starts {e : Effect} (h : ctx.NativeFailure img e) :
    ¬ e.Starts := by
  obtain ⟨-, -, ⟨_, rfl⟩ | ⟨_, rfl⟩ | ⟨rfl, -⟩⟩ := h
  · exact id
  · exact id
  · exact id

lemma startVerified_outcome (verifiedVia : Text)
    (hready : ctx.Ready fromUtf8Lossy volumes entry img) :
    ctx.Outcome fromUtf8Lossy volumes entry
      (ctx.startVerified img (ctx.verifiedBytes img verifiedVia)) := by
  by_cases hasks : ctx.AsksFirmware img
  · refine Outcome.of_reaches ((ctx.startVerified_of_asksFirmware verifiedVia hasks).mono ?_)
      (ctx.outcome_firmwareRoute img)
    rintro e (h | ⟨-, _, _, _, rfl⟩)
    · exact h.not_starts
    · exact id
  · obtain ⟨hroute, ⟨hl, hm, heq⟩ | ⟨-, s, hs⟩⟩ :=
      ctx.startVerified_of_not_asksFirmware verifiedVia hasks
    · rw [heq]
      exact .native img ⟨hready, hroute, hl, hm⟩ (ctx.nativeRoute_reaches_start _ hl hm)
    · exact .fails s (hs.mono fun _ h => h.not_starts)

lemma chainloadEffects_not_starts (path : Text) (bytes : Bytes) (loaded : Bool) :
    ∀ e ∈ ctx.chainloadEffects path bytes loaded, ¬ e.Starts := by
  simp [chainloadEffects, measurement, Effect.Starts]

lemma outcome_of_chainload {path : Text} (hpath : entry.kind = .chainload path) :
    ctx.Outcome fromUtf8Lossy volumes entry (ctx.bootEntry fromUtf8Lossy volumes entry) := by
  by_cases hloads : ∃ esp bytes, volumes.head? = some esp ∧ esp.readStr path = .ok bytes ∧
      ctx.platform.loadImage (ctx.memory.atLoadImage bytes) = .ok ()
  · obtain ⟨esp, bytes, hesp, hread, hload⟩ := hloads
    refine .firmware _ ⟨_, ?_, ctx.bootEntry_of_chainload_loads hpath hesp hread hload⟩
    intro e he
    simp only [mem_append, mem_cons] at he
    rcases he with he | rfl | he
    · exact ctx.chainloadEffects_not_starts _ _ _ e he
    · exact id
    · rw [(mem_flushes.mp he).1]
      exact id
  · push Not at hloads
    obtain ⟨s, q, heq, hq⟩ := ctx.bootEntry_of_chainload_fails hpath hloads
    refine .fails s ⟨q, fun e he => ?_, heq⟩
    rcases hq with hq | ⟨bytes, rfl⟩
    · rw [mem_singleton.mp (hq he)]
      exact id
    · exact ctx.chainloadEffects_not_starts _ _ _ e he

/-- Every attempt ends in one of these ways. -/
theorem bootEntry_outcome (fromUtf8Lossy : Bytes → Text) (volumes : List Volume)
    (entry : BootEntry) :
    ctx.Outcome fromUtf8Lossy volumes entry (ctx.bootEntry fromUtf8Lossy volumes entry) := by
  by_cases hkind : ∃ path, entry.kind = .chainload path
  · obtain ⟨path, hpath⟩ := hkind
    exact ctx.outcome_of_chainload hpath
  · push Not at hkind
    by_cases hready : ∃ img, ctx.Ready fromUtf8Lossy volumes entry img
    · obtain ⟨img, hready⟩ := hready
      obtain ⟨past, hpast, heq⟩ := ctx.bootEntry_of_image_ready hready
      exact Outcome.of_reaches ⟨past, fun e he => (hpast.beforeLoad he).not_starts, heq⟩
        (ctx.startVerified_outcome _ hready)
    · obtain ⟨s, hs⟩ := ctx.bootEntry_of_not_ready hkind hready
      exact .fails s (hs.mono fun _ he => he.not_starts)

lemma StartsNatively.reaches
    (h : ctx.StartsNatively fromUtf8Lossy volumes entry img) :
    Reaches (fun e => ¬ e.Starts) (ctx.bootEntry fromUtf8Lossy volumes entry)
      (after [.startNative (ctx.loadedPe img) ctx.platform.startNative]
        (awaitReturn ctx.platform.startNative)) := by
  obtain ⟨past, hpast, heq⟩ := ctx.bootEntry_of_image_ready h.ready
  rw [heq, ctx.startVerified_of_native_starts h.native h.loadsPe h.digest]
  exact Reaches.after (fun e he => (hpast.beforeLoad he).not_starts)
    (ctx.nativeRoute_reaches_start _ h.loadsPe h.digest)

end LamBoot.BootContext
