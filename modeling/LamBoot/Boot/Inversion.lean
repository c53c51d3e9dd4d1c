import LamBoot.Boot.Opening

/-!
# What a boot attempt can do

Finding and reading an image neither verifies, loads nor starts anything. What is proved about
attempts is proved from this and from the cases of `nativeLoadAndStart` and `firmwareLoadAndStart`
below.
-/

namespace LamBoot

open Text Traced

/-! ### Quiet effects -/

/-- An event that does not say of an image that it was verified or loaded. -/
def QuietEvent (event : Text) : Prop :=
  event ≠ "image_verified" ∧ event ≠ "image_loaded_native" ∧
    event ≠ "image_loaded_firmware"
deriving Decidable

/-- An effect that neither verifies, loads nor starts an image, nor records that one was. -/
def Effect.Quiet : Effect → Prop
  | .record e => QuietEvent e.event
  | .flush | .read _ _ | .extend _ _ _ | .registerInitrd _ _ => True
  | .shimVerify _ _ | .loadPe _ _ | .loadImage _ _ | .startNative _ _ | .startImage _ _ => False

def Effect.Starts : Effect → Prop
  | .startNative _ _ | .startImage _ _ => True
  | _ => False

variable {e : Effect}

lemma Effect.Quiet.not_starts (h : e.Quiet) : ¬ e.Starts := by
  cases e <;> simp_all [Effect.Quiet, Effect.Starts]

/-- What may happen before an image is loaded. -/
def Effect.BeforeLoad (e : Effect) : Prop :=
  e.Quiet ∨ (∃ image accepted, e = .shimVerify image accepted) ∨
    ∃ v, e = .record v ∧ v.event = "image_verified"

lemma Effect.BeforeLoad.not_starts (h : e.BeforeLoad) : ¬ e.Starts := by
  rcases h with h | ⟨_, _, rfl⟩ | ⟨_, rfl, -⟩
  · exact h.not_starts
  · exact id
  · exact id

lemma Effect.BeforeLoad.not_loadPe (h : e.BeforeLoad) (image : Bytes)
    (loaded : Bool) : e ≠ .loadPe image loaded := by
  rintro rfl
  rcases h with h | ⟨_, _, h⟩ | ⟨_, h, -⟩
  · exact h
  · exact nomatch h
  · exact nomatch h

lemma Effect.Opening.quiet {coupling : Bool} (h : e.Opening coupling) : e.Quiet := by
  have hevents : ∀ event ∈ openingEvents, QuietEvent event := by decide
  cases e with
  | record ev => exact hevents ev.event h.event
  | flush | read | registerInitrd => trivial
  | extend | shimVerify | loadPe | loadImage | startNative | startImage => cases h

namespace BootContext

variable (ctx : BootContext)

lemma mem_of_kindFallbackEvent {kind : EntryKind} {event : Text}
    (h : event ∈ kindFallbackEvent kind) :
    event ∈ (["kernel_native_load_fallback", "iso_native_load_fallback"] : List Text) := by
  cases kind with
  | chainload path => exact nomatch h
  | uki path options => exact nomatch h
  | linuxLegacy kernelPath initrdPaths options => simp [← Option.some.inj h]
  | iso source => simp [← Option.some.inj h]

/-! ### Verification -/

/-- Shim is there and accepts the image. -/
def ShimAccepts (image : Bytes) : Prop :=
  ctx.platform.shimLockHandle = .ok () ∧ ctx.platform.shimLockOpen = .ok () ∧
    ctx.platform.shimVerify image = .ok ()
deriving Decidable

def posture : SecureBootState :=
  postureAtVerify ctx.platform ctx.sbState

/-- The image passes verification. -/
def Accepts (image : Bytes) : Prop :=
  ctx.posture = .activeWithShim → ctx.ShimAccepts image

def verifiedEvent (img : Image) (verifiedVia status : Text) : TrustEvent :=
  { event := "image_verified", path := img.path,
    sha256Hex := hexEncode (ctx.platform.sha256 img.bytes), verifiedVia, status := debugStr status }

def verifiedBytes (img : Image) (verifiedVia : Text) : VerifiedBytes :=
  { bytes := img.bytes, sha256 := ctx.platform.sha256 img.bytes, verifiedVia,
    sbState := ctx.posture }

lemma verifyKernelBytes_of_verdict (img : Image) {asked : List Effect}
    {verifiedVia status : Text} {accepted : Bool}
    (h : verdict ctx.platform img.bytes ctx.posture =
      after asked (pure (verifiedVia, status, accepted))) :
    verifyKernelBytes ctx.platform img.bytes img.path ctx.sbState =
      after (asked ++ [.record (ctx.verifiedEvent img verifiedVia status)])
        (pure (if accepted then some (ctx.verifiedBytes img verifiedVia) else none)) := by
  unfold verifyKernelBytes
  change (verdict ctx.platform img.bytes ctx.posture >>= _) = _
  rw [h, after_bind, pure_bind, ← after_after]
  cases accepted <;> rfl

def afterVerify (img : Image) (stage : Attempt Unit) : Option VerifiedBytes → Attempt Status
  | none => fail .securityViolation
  | some verified => do
    stage
    ctx.startVerified img verified

/-! ### The cases of the two routes -/

def loadedPe (img : Image) : Bytes :=
  ctx.memory.atLoadPe img.bytes

def loadedImage (img : Image) : Bytes :=
  ctx.memory.atLoadImage img.bytes

/-- The native loader takes the image and its options. -/
def LoadsPe (img : Image) : Prop :=
  (img.options = [] ∨ cstring16 img.options ≠ none) ∧
    ctx.platform.loadPe (ctx.loadedPe img) = .ok ()

/-- The image in memory is not the one that was verified. -/
def Mismatch (img : Image) : Prop :=
  ctx.platform.sha256 (ctx.loadedPe img) ≠ ctx.platform.sha256 img.bytes

/-- The firmware accepts the image, and the options can be set. -/
def LoadsImage (img : Image) : Prop :=
  ctx.platform.loadImage (ctx.loadedImage img) = .ok () ∧
    (img.options = [] ∨
      cstring16 img.options ≠ none ∧ ctx.platform.openLoadedImage = .ok ())

def nativeRoute (img : Image) (verifiedVia : Text) : Attempt Status :=
  nativeLoadAndStart ctx.platform ctx.memory (ctx.verifiedBytes img verifiedVia) img.options
    img.backendTag img.path ctx.conoutFatCoupling

def firmwareRoute (img : Image) : Attempt Status :=
  firmwareLoadAndStart ctx.platform ctx.memory img.bytes img.options ctx.nativePe img.path

def loadedNativeEvent (img : Image) (verifiedVia : Text) : TrustEvent :=
  { event := "image_loaded_native", path := img.path,
    sha256Hex := hexEncode (ctx.platform.sha256 (ctx.loadedPe img)), verifiedVia,
    status := "SUCCESS",
    note := "backend=" ++ img.backendTag ++ " loader=" ++ vNativePeLoader }

def flushes : List Effect :=
  if ctx.conoutFatCoupling then [] else [.flush]

variable {ctx} in
lemma mem_flushes : e ∈ ctx.flushes ↔ e = .flush ∧ ctx.conoutFatCoupling = false := by
  unfold flushes
  split_ifs with h <;> simp [h]

lemma flushUnless_eq : flushUnless ctx.conoutFatCoupling = after ctx.flushes (pure ()) := by
  unfold flushUnless flushes
  split <;> rfl

variable {img : Image}

lemma nativeRoute_of_loads (verifiedVia : Text) (hl : ctx.LoadsPe img)
    (hm : ¬ ctx.Mismatch img) :
    ctx.nativeRoute img verifiedVia =
      after ([.loadPe (ctx.loadedPe img) true,
          .record (ctx.loadedNativeEvent img verifiedVia)] ++ ctx.flushes ++
          [.startNative (ctx.loadedPe img) ctx.platform.startNative])
        (awaitReturn ctx.platform.startNative) := by
  obtain ⟨hoptions, hload⟩ := hl
  have hencodes : ¬ (img.options ≠ [] ∧ cstring16 img.options = none) := by tauto
  unfold Mismatch loadedPe at hm
  unfold loadedPe at hload
  unfold nativeRoute nativeLoadAndStart
  simp only [hencodes, if_false, verifiedBytes, hload, hm, flushUnless_eq, record,
    emit_bind, after_bind, after_after, pure_bind]
  rfl

@[simp] lemma trace_awaitReturn (returned : Option Status) :
    (awaitReturn returned).trace = [] := by
  cases returned <;> rfl

variable {verifiedVia : Text}

lemma mem_nativeRoute_of_loads (hl : ctx.LoadsPe img)
    (hm : ¬ ctx.Mismatch img) (he : e ∈ (ctx.nativeRoute img verifiedVia).trace) :
    e = .loadPe (ctx.loadedPe img) true ∨ e = .record (ctx.loadedNativeEvent img verifiedVia) ∨
      e ∈ ctx.flushes ∨ e = .startNative (ctx.loadedPe img) ctx.platform.startNative := by
  rw [ctx.nativeRoute_of_loads verifiedVia hl hm, trace_after, trace_awaitReturn,
    List.append_nil] at he
  simpa [or_assoc] using he

def legacyEvent (img : Image) : TrustEvent :=
  { event := "legacy_loadimage_used", path := img.path, verifiedVia := vFirmwareLoadimage,
    note := "size=" ++ decimal img.bytes.length ++ " policy=" ++
      ctx.nativePe.asLogToken }

lemma legacyEvent_quiet (img : Image) : (Effect.record (ctx.legacyEvent img)).Quiet :=
  show QuietEvent "legacy_loadimage_used" by decide

def loadedFirmwareEvent (img : Image) : TrustEvent :=
  { event := "image_loaded_firmware", path := img.path, verifiedVia := vFirmwareLoadimage,
    status := "SUCCESS" }

lemma firmwareRoute_of_loads (h : ctx.LoadsImage img) :
    ctx.firmwareRoute img =
      after [.record (ctx.legacyEvent img), .loadImage (ctx.loadedImage img) true,
        .record (loadedFirmwareEvent img), .flush]
        (startLoaded ctx.platform (ctx.loadedImage img)) := by
  obtain ⟨hload, hoptions⟩ := h
  unfold loadedImage at hload
  unfold firmwareRoute firmwareLoadAndStart
  simp only [loadFromBuffer, hload, record, emit_bind, after_bind, after_after,
    Except.mapError, ofExcept_ok, pure_bind]
  by_cases hnil : img.options = []
  · rw [if_neg (by simpa using hnil)]
    rfl
  · obtain ⟨hencodes, hopen⟩ := hoptions.resolve_left hnil
    simp only [hnil, ne_eq, not_false_eq_true, if_true, setLoadOptions, hencodes, if_false,
      hopen, Except.mapError, ofExcept_ok, pure_bind]
    rfl

lemma firmwareRoute_of_not_loads_eq (h : ¬ ctx.LoadsImage img) :
    ∃ s loaded, ctx.firmwareRoute img =
      after [.record (ctx.legacyEvent img), .loadImage (ctx.loadedImage img) loaded] (fail s) := by
  unfold firmwareRoute firmwareLoadAndStart
  simp only [loadFromBuffer, record, emit_bind, after_bind, after_after]
  cases hload : ctx.platform.loadImage (ctx.memory.atLoadImage img.bytes) with
  | error s => exact ⟨s, false, rfl⟩
  | ok =>
    have hset : img.options ≠ [] ∧
        (cstring16 img.options = none ∨ ctx.platform.openLoadedImage ≠ .ok ()) := by
      by_contra hn
      exact h ⟨hload, by tauto⟩
    simp only [hset.1, ne_eq, not_false_eq_true, if_true, setLoadOptions]
    by_cases hencodes : cstring16 img.options = none
    · refine ⟨.invalidParameter, true, ?_⟩
      rw [if_pos hencodes]
      rfl
    · cases hopen : ctx.platform.openLoadedImage with
      | ok => exact absurd hset.2 (by simp [hencodes, hopen])
      | error s =>
        refine ⟨s, true, ?_⟩
        rw [if_neg hencodes]
        rfl

def fallback (img : Image) (event : Text) : Attempt Status := do
  record { event, path := img.path, note := "reason=native_pe_load_error route=firmware" }
  ctx.firmwareRoute img

lemma startVerified_eq (img : Image) (verifiedVia : Text) :
    ctx.startVerified img (ctx.verifiedBytes img verifiedVia) =
      match chooseLoadPath ctx.nativePe ctx.posture, img.fallbackEvent with
      | .firmware, _ => ctx.firmwareRoute img
      | .native, none => ctx.nativeRoute img verifiedVia
      | .native, some event =>
        (ctx.nativeRoute img verifiedVia).recover fun
          | .error _ => some (ctx.fallback img event)
          | .handedOver => none := by
  have hposture : (ctx.verifiedBytes img verifiedVia).sbState = ctx.posture := rfl
  unfold startVerified
  rw [hposture]
  cases chooseLoadPath ctx.nativePe ctx.posture with
  | firmware => rfl
  | native => cases img.fallbackEvent <;> rfl

lemma recover_awaitReturn (returned : Option Status) (fallback : Attempt Status) :
    (awaitReturn returned).recover (fun
      | .error _ => some fallback
      | .handedOver => none) = awaitReturn returned := by
  cases returned <;> rfl

lemma startVerified_of_native_fails {q : List Effect}
    {s : Status} (hroute : chooseLoadPath ctx.nativePe ctx.posture = .native)
    (h : ctx.nativeRoute img verifiedVia = after q (fail s)) :
    ctx.startVerified img (ctx.verifiedBytes img verifiedVia) =
      after q (match img.fallbackEvent with
        | none => fail s
        | some event => ctx.fallback img event) := by
  rw [startVerified_eq, hroute, h]
  cases img.fallbackEvent with
  | none => rfl
  | some event => exact recover_after

lemma startVerified_of_native_starts
    (hroute : chooseLoadPath ctx.nativePe ctx.posture = .native) (hl : ctx.LoadsPe img)
    (hm : ¬ ctx.Mismatch img) :
    ctx.startVerified img (ctx.verifiedBytes img verifiedVia) =
      ctx.nativeRoute img verifiedVia := by
  rw [startVerified_eq, hroute]
  cases img.fallbackEvent with
  | none => rfl
  | some event =>
    dsimp only
    rw [ctx.nativeRoute_of_loads verifiedVia hl hm, recover_after]
    exact congrArg (after _) (recover_awaitReturn _ _)

lemma startLoaded_eq (p : Platform) (image : Bytes) :
    startLoaded p image = after [.startImage image p.startImage]
      (match p.startImage with
        | none => stop .handedOver
        | some status => if status = .success then pure .success else fail status) := by
  unfold startLoaded Status.toResult
  cases p.startImage with
  | none => rfl
  | some status =>
    simp only [emit_bind, awaitReturn, pure_bind]
    split <;> rfl

lemma trace_startLoaded (p : Platform) (image : Bytes) :
    (startLoaded p image).trace = [.startImage image p.startImage] := by
  rw [startLoaded_eq]
  cases p.startImage with
  | none => rfl
  | some status => by_cases hs : status = .success <;> simp [hs, fail]

/-- An image is found for the entry and accepted, and its initrd can be read. -/
structure Ready (fromUtf8Lossy : Bytes → Text) (volumes : List Volume) (entry : BootEntry)
    (img : Image) : Prop where
  image : ctx.imageFor fromUtf8Lossy volumes entry = some img
  accepted : ctx.Accepts img.bytes
  initrds : ctx.InitrdsReadable volumes entry.kind

end BootContext

end LamBoot
