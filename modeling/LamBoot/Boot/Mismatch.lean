import LamBoot.Boot.Outcome

/-!
# Images that change between verification and load

The native loader takes the digest of an image once its headers are checked. It refuses an image
whose digest is not the one that was verified, but may also fail before it compares the two. In both
cases the flows of kernels and ISO kernels hand the image to the firmware, so an attempt fails
closed exactly where that fallback does not get through.
-/

namespace LamBoot

open List Text Traced

namespace BootContext

variable (ctx : BootContext)

/-- After a native load that took a digest other than the one its verification recorded, whether or
not the load then succeeded, the attempt ends with an error and starts nothing. -/
def FailsClosed (attempt : Attempt Status) : Prop :=
  ∀ pre image loaded post, attempt.trace = pre ++ .loadPe image loaded :: post →
    ctx.platform.checkPe image = .ok () →
    (∃ v, .record v ∈ pre ∧ v.event = "image_verified".toList ∧
      v.sha256Hex ≠ hexEncode (ctx.platform.sha256 image)) →
    (∃ s, attempt.result = .error (.error s)) ∧ ∀ e ∈ post, ¬ e.Starts

/-! ### When attempts fail closed -/

/-- A kernel or an ISO kernel is ready and takes the native route, its bytes have changed when the
native loader takes them, and the firmware takes them too. -/
structure StartsMismatch (fromUtf8Lossy : Bytes → Text) (volumes : List Volume)
    (entry : BootEntry) (img : Image) : Prop where
  ready : ctx.Ready fromUtf8Lossy volumes entry img
  not_uki : ∀ path options, entry.kind ≠ .uki path options
  native : chooseLoadPath ctx.nativePe ctx.posture = .native
  encodes : OptionsEncode img
  hashed : ctx.platform.checkPe (ctx.loadedPe img) = .ok ()
  mismatch : ctx.Mismatch img
  loadsImage : ctx.LoadsImage img

variable {fromUtf8Lossy : Bytes → Text} {volumes : List Volume} {entry : BootEntry}

lemma kindFallbackEvent_eq_none_iff {kind : EntryKind}
    (hkind : ∀ path, kind ≠ .chainload path) :
    kindFallbackEvent kind = none ↔ ∃ path options, kind = .uki path options := by
  cases kind with
  | chainload path => exact absurd rfl (hkind path)
  | uki path options => exact ⟨fun _ => ⟨path, options, rfl⟩, fun _ => rfl⟩
  | linuxLegacy kernelPath initrdPaths options => simp [kindFallbackEvent]
  | iso source => simp [kindFallbackEvent]

variable {img : Image} {image : Bytes} {loaded : Bool}

lemma loadPe_of_mem_nativeRoute {verifiedVia : Text}
    (h : .loadPe image loaded ∈ (ctx.nativeRoute img verifiedVia).trace) :
    image = ctx.loadedPe img ∧ OptionsEncode img := by
  by_cases hfails : ctx.NativeFails img
  · rcases ctx.nativeRoute_of_fails verifiedVia hfails with
      ⟨-, s, heq⟩ | ⟨hencode, s, note, loaded, t, -, ht, heq⟩
    · rw [heq] at h
      cases h
    · rw [heq, trace_after, fail, trace_stop, append_nil] at h
      simp only [mem_cons] at h
      rcases h with h | h | h
      · exact ⟨(Effect.loadPe.inj h).1, hencode⟩
      · cases h
      · cases (mem_flushes.mp (ht h)).1
  · obtain ⟨hl, hm⟩ := Classical.not_imp.mp hfails
    rcases ctx.mem_nativeRoute_of_loads hl hm h with h | h | h | h
    · exact ⟨(Effect.loadPe.inj h).1, hl.1⟩
    · cases h
    · cases (mem_flushes.mp h).1
    · cases h

lemma firmwareRoute_not_loadPe (img : Image) (image : Bytes) (loaded : Bool) :
    .loadPe image loaded ∉ (ctx.firmwareRoute img).trace := by
  intro h
  rcases ctx.firmwareRoute_effects h with h | ⟨_, h⟩ | ⟨-, h | h | h⟩ <;> cases h

lemma loadPe_of_mem_startVerified {verifiedVia : Text}
    (h : .loadPe image loaded ∈
      (ctx.startVerified img (ctx.verifiedBytes img verifiedVia)).trace) :
    chooseLoadPath ctx.nativePe ctx.posture = .native ∧ image = ctx.loadedPe img ∧
      OptionsEncode img := by
  rw [startVerified_eq] at h
  cases hroute : chooseLoadPath ctx.nativePe ctx.posture with
  | firmware =>
    rw [hroute] at h
    exact absurd h (ctx.firmwareRoute_not_loadPe img image loaded)
  | native =>
    refine ⟨rfl, ?_⟩
    rw [hroute] at h
    cases hevent : img.fallbackEvent with
    | none =>
      rw [hevent] at h
      exact ctx.loadPe_of_mem_nativeRoute h
    | some event =>
      rw [hevent] at h
      refine Forall.recover (P := fun e => e = .loadPe image loaded → _)
        (fun e he hload => ctx.loadPe_of_mem_nativeRoute (hload ▸ he)) ?_ _ h rfl
      rintro (s | _) y hy
      · cases hy
        intro e he hload
        subst hload
        exact absurd ((mem_cons.mp he).resolve_left nofun)
          (ctx.firmwareRoute_not_loadPe img image loaded)
      · cases hy

lemma native_of_loadPe
    (h : .loadPe image loaded ∈ (ctx.bootEntry fromUtf8Lossy volumes entry).trace) :
    ∃ img, ctx.Ready fromUtf8Lossy volumes entry img ∧
      chooseLoadPath ctx.nativePe ctx.posture = .native ∧ image = ctx.loadedPe img ∧
      OptionsEncode img := by
  by_cases hready : ∃ img, ctx.Ready fromUtf8Lossy volumes entry img
  · obtain ⟨img, hready⟩ := hready
    obtain ⟨past, hpast, heq⟩ := ctx.bootEntry_of_image_ready hready
    rw [heq, trace_after] at h
    have hstart := (mem_append.mp h).resolve_left fun h =>
      (hpast.beforeLoad h).not_loadPe image loaded rfl
    exact ⟨img, hready, ctx.loadPe_of_mem_startVerified hstart⟩
  · have hkind : ∀ path, entry.kind ≠ .chainload path := by
      intro path hpath
      rcases (ctx.chainloadEffect_of_mem hpath h).form with h | ⟨_, _, h⟩ | ⟨_, _, h⟩
      · exact h
      · cases h
      · cases h
    obtain ⟨s, hs⟩ := ctx.bootEntry_of_not_ready hkind hready
    exact absurd rfl ((hs.forall_mem rfl _ h).not_loadPe image loaded)

lemma fails_of_native_fails (hready : ctx.Ready fromUtf8Lossy volumes entry img)
    (hroute : chooseLoadPath ctx.nativePe ctx.posture = .native) (hfails : ctx.NativeFails img)
    (hfirmware : img.fallbackEvent ≠ none → ¬ ctx.LoadsImage img) :
    ∃ s, Reaches (fun e => ¬ e.Starts) (ctx.bootEntry fromUtf8Lossy volumes entry) (fail s) := by
  obtain ⟨past, hpast, heq⟩ := ctx.bootEntry_of_image_ready hready
  obtain ⟨s, q, hq, hnative⟩ := ctx.nativeRoute_reaches_fail (ctx.via img.bytes) hfails
  have hbefore : ∀ e ∈ past ++ q, ¬ e.Starts := by
    intro e he
    rcases mem_append.mp he with he | he
    · exact (hpast.beforeLoad he).not_starts
    · exact (hq e he).not_starts
  rw [heq, ctx.startVerified_of_native_fails hroute hnative, after_after]
  cases hevent : img.fallbackEvent with
  | none => exact ⟨s, _, hbefore, rfl⟩
  | some event =>
    obtain ⟨s', loaded, hroute'⟩ := ctx.firmwareRoute_of_not_loads_eq (hfirmware (by simp [hevent]))
    refine ⟨s', Reaches.after hbefore (Reaches.after (q := [.record _]) ?_ ⟨_, ?_, hroute'⟩)⟩
    · simp [Effect.Starts]
    · simp [Effect.Starts]

lemma StartsMismatch.not_failsClosed
    (h : ctx.StartsMismatch fromUtf8Lossy volumes entry img) :
    ¬ ctx.FailsClosed (ctx.bootEntry fromUtf8Lossy volumes entry) := by
  intro hclosed
  obtain ⟨past, hpast, heq⟩ := ctx.bootEntry_of_image_ready h.ready
  obtain ⟨hencode, -⟩ | ⟨-, s, note, loaded, t, -, -, hnative⟩ :=
    ctx.nativeRoute_of_fails (ctx.via img.bytes) fun _ => h.mismatch
  · exact hencode h.encodes
  have hfallback : img.fallbackEvent ≠ none := by
    rw [ctx.imageFor_fallbackEvent h.ready.image, ne_eq,
      kindFallbackEvent_eq_none_iff (ctx.not_chainload_of_imageFor h.ready.image)]
    rintro ⟨path, options, hkind⟩
    exact h.not_uki path options hkind
  obtain ⟨event, hevent⟩ := Option.ne_none_iff_exists'.mp hfallback
  rw [ctx.startVerified_of_native_fails h.native hnative, hevent] at heq
  obtain ⟨q, htrace⟩ : ∃ q, (ctx.bootEntry fromUtf8Lossy volumes entry).trace =
      past ++ .loadPe (ctx.loadedPe img) loaded :: (q ++ (ctx.fallback img event).trace) := by
    rw [heq]
    exact ⟨.record { event := "image_load_failed", path := img.path, verifiedVia := vNativePeLoader,
                     note } :: t, rfl⟩
  have hdigest : (ctx.verification img).sha256Hex ≠
      hexEncode (ctx.platform.sha256 (ctx.loadedPe img)) :=
    fun hhex => h.mismatch (hexEncode_injective hhex).symm
  refine (hclosed past _ loaded _ htrace h.hashed ⟨_, hpast.recorded, rfl, hdigest⟩).2
    (.startImage (ctx.loadedImage img) ctx.platform.startImage) ?_ trivial
  refine mem_append_right _ (mem_cons_of_mem _ ?_)
  rw [show (ctx.firmwareRoute img).trace = _ from congrArg Traced.trace
    (ctx.firmwareRoute_of_loads h.loadsImage), startLoaded_eq]
  simp

/-- An attempt fails closed on a changed image exactly where the fallback of a kernel or an ISO
kernel does not hand that image to the firmware. -/
theorem bootEntry_failsClosed_iff (fromUtf8Lossy : Bytes → Text) (volumes : List Volume)
    (entry : BootEntry) :
    ctx.FailsClosed (ctx.bootEntry fromUtf8Lossy volumes entry) ↔
      ¬ ∃ img, ctx.StartsMismatch fromUtf8Lossy volumes entry img := by
  constructor
  · rintro hclosed ⟨img, h⟩
    exact h.not_failsClosed ctx hclosed
  · rintro hnot pre image loaded post htrace hhashed ⟨v, hv, hevent, hne⟩
    have hload : .loadPe image loaded ∈ (ctx.bootEntry fromUtf8Lossy volumes entry).trace := by
      simp [htrace]
    have hrecord : .record v ∈ (ctx.bootEntry fromUtf8Lossy volumes entry).trace := by
      simp [htrace, hv]
    obtain ⟨img, hready, hroute, rfl, hencode⟩ := ctx.native_of_loadPe hload
    obtain ⟨img', himage, rfl⟩ := ctx.verification_of_mem hrecord hevent
    obtain rfl : img' = img := Option.some.inj (himage.symm.trans hready.image)
    have hm : ctx.Mismatch img' := fun hdigest => hne (congrArg hexEncode hdigest.symm)
    obtain ⟨s, hs⟩ := ctx.fails_of_native_fails hready hroute (fun _ => hm) fun hfallback hli => by
      refine hnot ⟨img', hready, fun path options hkind => hfallback ?_, hroute, hencode, hhashed,
        hm, hli⟩
      rw [ctx.imageFor_fallbackEvent himage, hkind]
      rfl
    refine ⟨⟨s, ?_⟩, fun e he => hs.forall_mem rfl e (by simp [htrace, he])⟩
    obtain ⟨q, -, heq⟩ := hs
    rw [heq]
    rfl

end BootContext

/-- The attempt to boot a kernel whose only byte is one when it is verified, and two when it is
loaded. -/
def changedKernelContext : BootContext :=
  .accepting .auto .activeWithShim true ⟨fun _ => [2], fun _ => [2]⟩ none

def changedKernelAttempt : Attempt Status :=
  changedKernelContext.bootEntry (fun _ => []) [.uniform [1]] kernelEntry

/-- The changed kernel is refused by the native loader and started by the firmware. -/
theorem changedKernel_not_failsClosed :
    ¬ changedKernelContext.FailsClosed changedKernelAttempt := by
  intro hclosed
  have htrace : changedKernelAttempt.trace = changedKernelAttempt.trace.take 11 ++
      .loadPe [2] true :: changedKernelAttempt.trace.drop 12 := by
    decide +kernel
  have hrecorded : ∃ v, .record v ∈ changedKernelAttempt.trace.take 11 ∧
      v.event = "image_verified".toList ∧
      v.sha256Hex ≠ hexEncode (changedKernelContext.platform.sha256 [2]) :=
    ⟨{ event := "image_verified", path := "\\vmlinuz", sha256Hex := "01",
       verifiedVia := vShimMok, status := debugStr "SUCCESS" }, by decide +kernel⟩
  have hstarts : .startImage [2] none ∈ changedKernelAttempt.trace.drop 12 := by
    decide +kernel
  exact (hclosed _ _ _ _ htrace rfl hrecorded).2 _ hstarts trivial

end LamBoot
