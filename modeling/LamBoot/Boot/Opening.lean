import LamBoot.Boot.Flows

/-!
# Finding and reading an image

Every attempt to boot a kernel, a UKI or an ISO kernel first finds and reads an image and then comes
down to `verifyAndStart` on that image (`bootEntry_opensTo`).
-/

namespace LamBoot

open List Text Traced

def openingEvents : List Text :=
  ["kernel_load_phase", "iso_mounted", "iso_optical_mounted", "iso_path_a2_distro",
    "iso_path_a_resolved"]

/-- They say nothing about a digest or about trust. -/
structure OpeningEvent (ev : TrustEvent) : Prop where
  event : ev.event ∈ openingEvents
  sha256Hex : ev.sha256Hex = []
  verifiedVia : ev.verifiedVia = []

/-- Files are read and an initrd is staged, with their records. -/
def Effect.Opening (coupling : Bool) : Effect → Prop
  | .record ev => OpeningEvent ev
  | .flush => coupling = false
  | .read _ _ | .registerInitrd _ _ => True
  | .extend _ _ _ | .shimVerify _ _ | .loadPe _ _ | .loadImage _ _ | .startNative _ _
  | .startImage _ _ => False

/-- The computation has such effects only and ends with `a`. -/
abbrev Opens {α : Type} (coupling : Bool) (x : Attempt α) (a : α) : Prop :=
  Reaches (Effect.Opening coupling) x (pure a)

section Opens

variable {coupling : Bool}

lemma opens_emit {e : Effect} (h : e.Opening coupling) : Opens coupling (emit e) () :=
  ⟨[e], by simpa using h, emit_eq_after⟩

lemma opens_flushUnless (coupling : Bool) : Opens coupling (flushUnless coupling) () := by
  cases coupling with
  | true => exact Reaches.refl _
  | false => exact opens_emit rfl

lemma opens_record {ev : TrustEvent} (h : OpeningEvent ev) : Opens coupling (record ev) () :=
  opens_emit h

lemma opens_kernelLoadPhase (path note : Text) :
    Opens coupling (BootContext.kernelLoadPhase path note) () :=
  opens_record ⟨mem_cons_self, rfl, rfl⟩

end Opens

namespace BootContext

variable (ctx : BootContext)

/-! ### The image of an entry -/

def linuxImage (volumes : List Volume) (kernelPath options : Text) : Option Image := do
  let (_, v, resolved) ← ctx.findVolume kernelPath volumes 0
  let bytes ← (v.readStr resolved).toOption
  pure
    { bytes, path := kernelPath, options, backendTag := v.backendTag,
      fallbackEvent := some "kernel_native_load_fallback" }

def ukiImage (esp : Volume) (path options : Text) : Option Image := do
  let bytes ← (esp.readStr path).toOption
  pure { bytes, path, options, backendTag := esp.backendTag, fallbackEvent := none }

def isoImage (iso : Volume) (kernelPath options : Text) : Option Image := do
  let bytes ← (iso.readStr kernelPath).toOption
  pure
    { bytes, path := kernelPath, options, backendTag := iso.backendTag,
      fallbackEvent := some "iso_native_load_fallback" }

def isoRecipeImage (iso : Volume) (cmdline : DistroRecipe → Text) : Option Image := do
  let recipe ← fingerprint iso.existsStr
  let (kernelPath, _) ← resolveRecipe iso recipe
  isoImage iso kernelPath (cmdline recipe)

/-- The entry of an ISO's own `loopback.cfg`. -/
def loopbackEntry (fromUtf8Lossy : Bytes → Text) (iso : Volume) (isoPath : Text) :
    Option LoopbackEntry := do
  let bytes ← (iso.readStr "/boot/grub/loopback.cfg").toOption
  parseFirstMenuentry (fromUtf8Lossy bytes) isoPath

def isoFileImage (fromUtf8Lossy : Bytes → Text) (volumes : List Volume) (holdingIndex : Nat)
    (isoPath : Text) : Option Image := do
  let holding ← volumes[holdingIndex]?
  let path ← (PathBuf.fromStr isoPath).toOption
  let backend ← (ctx.platform.mountIso holding path).toOption
  let iso := isoVolume backend
  match loopbackEntry fromUtf8Lossy iso isoPath with
  | some entry => isoImage iso entry.kernel entry.options
  | none =>
    isoRecipeImage iso fun recipe => renderCmdline recipe.fileCmdline isoPath []

def isoOpticalImage (handle : Nat) (label : Text) : Option Image := do
  let backend ← (ctx.platform.mountOptical handle).toOption
  isoRecipeImage (isoVolume backend) fun recipe => renderCmdline recipe.mediaCmdline [] label

/-- The image an entry boots, as the volumes hold it. Chainloaded images are not verified by the
boot loader and have none. -/
def imageFor (fromUtf8Lossy : Bytes → Text) (volumes : List Volume) (entry : BootEntry) :
    Option Image :=
  match volumes, entry.kind with
  | [], _ => none
  | _ :: _, .chainload _ => none
  | esp :: _, .uki path options => ukiImage esp path options
  | _ :: _, .linuxLegacy kernelPath _ options => ctx.linuxImage volumes kernelPath options
  | _ :: _, .iso (.file isoPath) =>
    ctx.isoFileImage fromUtf8Lossy volumes entry.sourceVolumeIndex isoPath
  | _ :: _, .iso (.optical handle label) => ctx.isoOpticalImage handle label

/-- The event of the fallback to the firmware, for the kinds of entry whose flow has one. -/
def kindFallbackEvent : EntryKind → Option Text
  | .chainload _ | .uki _ _ => none
  | .linuxLegacy _ _ _ => some "kernel_native_load_fallback"
  | .iso _ => some "iso_native_load_fallback"

lemma isoImage_fallbackEvent {iso : Volume} {kernelPath options : Text} {img : Image}
    (h : isoImage iso kernelPath options = some img) :
    img.fallbackEvent = some "iso_native_load_fallback".toList := by
  obtain ⟨bytes, -, himg⟩ := Option.bind_eq_some_iff.mp h
  rw [← Option.some.inj himg]

lemma isoRecipeImage_fallbackEvent {iso : Volume} {cmdline : DistroRecipe → Text} {img : Image}
    (h : isoRecipeImage iso cmdline = some img) :
    img.fallbackEvent = some "iso_native_load_fallback".toList := by
  obtain ⟨recipe, -, h⟩ := Option.bind_eq_some_iff.mp h
  obtain ⟨⟨kernelPath, initrdPaths⟩, -, h⟩ := Option.bind_eq_some_iff.mp h
  exact isoImage_fallbackEvent h

lemma imageFor_fallbackEvent {fromUtf8Lossy : Bytes → Text} {volumes : List Volume}
    {entry : BootEntry} {img : Image} (h : ctx.imageFor fromUtf8Lossy volumes entry = some img) :
    img.fallbackEvent = kindFallbackEvent entry.kind := by
  unfold imageFor at h
  split at h
  · exact nomatch h
  · exact nomatch h
  · next hkind =>
    obtain ⟨bytes, -, himg⟩ := Option.bind_eq_some_iff.mp h
    rw [← Option.some.inj himg, hkind]
    rfl
  · next hkind =>
    obtain ⟨⟨i, v, resolved⟩, -, h⟩ := Option.bind_eq_some_iff.mp h
    obtain ⟨bytes, -, himg⟩ := Option.bind_eq_some_iff.mp h
    rw [← Option.some.inj himg, hkind]
    rfl
  · next hkind =>
    obtain ⟨holding, -, h⟩ := Option.bind_eq_some_iff.mp h
    obtain ⟨path, -, h⟩ := Option.bind_eq_some_iff.mp h
    obtain ⟨backend, -, h⟩ := Option.bind_eq_some_iff.mp h
    rw [hkind]
    dsimp only at h
    split at h
    · exact isoImage_fallbackEvent h
    · exact isoRecipeImage_fallbackEvent h
  · next hkind =>
    obtain ⟨backend, -, h⟩ := Option.bind_eq_some_iff.mp h
    rw [hkind]
    exact isoRecipeImage_fallbackEvent h

/-! ### Finding and reading the image -/

/-- Every initrd component that is found can be read. -/
def InitrdsReadable (volumes : List Volume) : EntryKind → Prop
  | .linuxLegacy _ initrdPaths _ =>
    ∀ path ∈ initrdPaths, ∀ i v resolved, ctx.findVolume path volumes 0 = some (i, v, resolved) →
      (v.readStr resolved).isOk
  | .chainload _ | .uki _ _ | .iso _ => True

/-- Staging the initrd ends well exactly when the components can be read. -/
structure Staging (readable : Prop) (stage : Attempt Unit) : Prop where
  opens : readable → Opens ctx.conoutFatCoupling stage ()
  fails : ¬ readable → ∃ s, Reaches (Effect.Opening ctx.conoutFatCoupling) stage (fail s)

variable {ctx} in
lemma Staging.of_opens {stage : Attempt Unit} (h : Opens ctx.conoutFatCoupling stage ()) :
    ctx.Staging True stage :=
  ⟨fun _ => h, fun hn => absurd trivial hn⟩

/-- What an attempt opens with: an error where there is no image, else the way to the shared
steps. -/
def OpensTo (readable : Prop) (attempt : Attempt Status) : Option Image → Prop
  | none => ∃ s, Reaches (Effect.Opening ctx.conoutFatCoupling) attempt (fail s)
  | some img =>
    ∃ stage, ctx.Staging readable stage ∧
      Reaches (Effect.Opening ctx.conoutFatCoupling) attempt (ctx.verifyAndStart img stage)

variable {readable : Prop}

variable {ctx} in
lemma OpensTo.of_reaches {x y : Attempt Status} {image : Option Image}
    (h : Reaches (Effect.Opening ctx.conoutFatCoupling) x y) (hy : ctx.OpensTo readable y image) :
    ctx.OpensTo readable x image := by
  cases image with
  | none =>
    obtain ⟨s, hs⟩ := hy
    exact ⟨s, h.trans hs⟩
  | some img =>
    obtain ⟨stage, hstage, hs⟩ := hy
    exact ⟨stage, hstage, h.trans hs⟩

variable {ctx} in
lemma OpensTo.bind {α : Type} {x : Attempt α} {a : α}
    {f : α → Attempt Status} {image : Option Image} (hx : Opens ctx.conoutFatCoupling x a)
    (h : ctx.OpensTo readable (f a) image) : ctx.OpensTo readable (x >>= f) image :=
  h.of_reaches (Reaches.pure_bind hx (Reaches.refl _))

lemma opensTo_fail (s : Status) :
    ctx.OpensTo readable (fail s) none :=
  ⟨s, Reaches.refl _⟩

lemma opensTo_orStatus {α : Type} (r : Except FsError α)
    {f : α → Attempt Status} {image : α → Option Image}
    (h : ∀ a, r = .ok a → ctx.OpensTo readable (f a) (image a)) :
    ctx.OpensTo readable (orStatus r >>= f) (r.toOption >>= image) := by
  cases r with
  | error e => exact ctx.opensTo_fail e.toUefiStatus
  | ok a => exact h a rfl

lemma bootUki_opensTo (esp : Volume) (path options : Text) :
    ctx.OpensTo True (ctx.bootUki esp path options) (ukiImage esp path options) := by
  refine OpensTo.bind (opens_emit trivial) ?_
  refine ctx.opensTo_orStatus _ fun bytes _ => ?_
  exact ⟨_, Staging.of_opens (Reaches.refl _), Reaches.refl _⟩

lemma staging_readInitrds (volumes : List Volume) (paths : List Text) :
    (ctx.InitrdsReadable volumes (.linuxLegacy [] paths []) →
      ∃ data, Opens ctx.conoutFatCoupling (ctx.readInitrds volumes paths) data) ∧
    (¬ ctx.InitrdsReadable volumes (.linuxLegacy [] paths []) →
      ∃ s, Reaches (Effect.Opening ctx.conoutFatCoupling) (ctx.readInitrds volumes paths)
        (fail s)) := by
  induction paths with
  | nil => exact ⟨fun _ => ⟨[], Reaches.refl _⟩, fun h => absurd (by simp [InitrdsReadable]) h⟩
  | cons path paths ih =>
    simp only [InitrdsReadable, forall_mem_cons] at ih ⊢
    unfold readInitrds
    cases hfind : ctx.findVolume path volumes 0 with
    | none => simpa using ih
    | some found =>
      obtain ⟨i, v, resolved⟩ := found
      have hread : (∀ i' v' resolved', some (i, v, resolved) = some (i', v', resolved') →
          (v'.readStr resolved').isOk) ↔ (v.readStr resolved).isOk :=
        ⟨fun h => h i v resolved rfl, by rintro h _ _ _ ⟨⟩; exact h⟩
      rw [hread]
      dsimp only
      cases hr : v.readStr resolved with
      | error e =>
        refine ⟨fun h => absurd h.1 (by simp [Except.isOk, Except.toBool]), fun _ => ?_⟩
        exact ⟨e.toUefiStatus, Reaches.pure_bind (opens_emit trivial) (Reaches.refl _)⟩
      | ok data =>
        constructor
        · rintro ⟨-, h⟩
          obtain ⟨rest, hrest⟩ := ih.1 h
          refine ⟨data ++ rest, Reaches.pure_bind (opens_emit trivial) ?_⟩
          exact Reaches.pure_bind (Reaches.refl _)
            (Reaches.pure_bind hrest (Reaches.refl _))
        · intro h
          obtain ⟨s, hs⟩ := ih.2 fun hn => h ⟨rfl, hn⟩
          refine ⟨s, Reaches.pure_bind (opens_emit trivial) ?_⟩
          exact Reaches.pure_bind (Reaches.refl _) (Reaches.bind_stop hs)

lemma bootLinux_opensTo (volumes : List Volume) (kernelPath : Text)
    (initrdPaths : List Text) (options : Text) :
    ctx.OpensTo (ctx.InitrdsReadable volumes (.linuxLegacy kernelPath initrdPaths options))
      (ctx.bootLinux volumes kernelPath initrdPaths options)
      (ctx.linuxImage volumes kernelPath options) := by
  refine OpensTo.bind (opens_kernelLoadPhase _ _) ?_
  refine OpensTo.bind (opens_flushUnless _) ?_
  unfold readKernel linuxImage
  cases ctx.findVolume kernelPath volumes 0 with
  | none =>
    refine ⟨.notFound, Reaches.bind_stop ?_⟩
    exact Reaches.pure_bind (opens_kernelLoadPhase _ _)
      (Reaches.pure_bind (opens_flushUnless _) (Reaches.refl _))
  | some found =>
    obtain ⟨i, v, resolved⟩ := found
    simp only [bind_assoc]
    refine OpensTo.bind (opens_kernelLoadPhase _ _) ?_
    refine OpensTo.bind (opens_emit trivial) ?_
    refine ctx.opensTo_orStatus _ fun bytes _ => ?_
    refine OpensTo.bind (opens_kernelLoadPhase _ _) ?_
    refine OpensTo.bind (Reaches.refl _) ?_
    refine OpensTo.bind (opens_kernelLoadPhase _ _) ?_
    refine OpensTo.bind (opens_flushUnless _) ?_
    refine ⟨_, ?_, Reaches.refl _⟩
    obtain ⟨hok, hfail⟩ := ctx.staging_readInitrds volumes initrdPaths
    split
    · next h => exact ⟨fun _ => Reaches.refl _, fun hn => absurd (by simp [InitrdsReadable, h]) hn⟩
    · constructor
      · intro h
        obtain ⟨data, hdata⟩ := hok h
        exact Reaches.pure_bind hdata (opens_emit trivial)
      · intro h
        obtain ⟨s, hs⟩ := hfail h
        exact ⟨s, Reaches.bind_stop hs⟩

lemma opens_readIsoInitrds (iso : Volume) (paths : List Text) :
    ∃ data, Opens ctx.conoutFatCoupling (readIsoInitrds iso paths) data := by
  induction paths with
  | nil => exact ⟨[], Reaches.refl _⟩
  | cons path paths ih =>
    obtain ⟨rest, hrest⟩ := ih
    unfold readIsoInitrds
    cases iso.readStr path with
    | ok data =>
      exact ⟨data ++ rest, Reaches.pure_bind (opens_emit trivial)
        (Reaches.pure_bind hrest (Reaches.refl _))⟩
    | error e =>
      exact ⟨rest, Reaches.pure_bind (opens_emit trivial)
        (Reaches.pure_bind hrest (Reaches.refl _))⟩

lemma isoBootResolved_opensTo (iso : Volume) (labelForLog kernelPath : Text)
    (initrdPaths : List Text) (options : Text) :
    ctx.OpensTo True (ctx.isoBootResolved iso labelForLog kernelPath initrdPaths options)
      (isoImage iso kernelPath options) := by
  refine OpensTo.bind (opens_emit trivial) ?_
  refine ctx.opensTo_orStatus _ fun kernel _ => ?_
  obtain ⟨initrd, hinitrd⟩ := ctx.opens_readIsoInitrds iso initrdPaths
  refine OpensTo.bind hinitrd ?_
  refine OpensTo.bind
    (opens_record ⟨mem_of_getElem? (i := 4) rfl, rfl, rfl⟩) ?_
  refine ⟨_, Staging.of_opens ?_, Reaches.refl _⟩
  split
  · exact Reaches.refl _
  · exact opens_emit trivial

lemma bootIsoRecipe_opensTo (iso : Volume) (labelForLog : Text)
    (cmdline : DistroRecipe → Text) (source : Text) :
    ctx.OpensTo True (ctx.bootIsoRecipe iso labelForLog cmdline source)
      (isoRecipeImage iso cmdline) := by
  unfold bootIsoRecipe isoRecipeImage
  cases fingerprint iso.existsStr with
  | none => exact ctx.opensTo_fail .unsupported
  | some recipe =>
    dsimp only [Option.bind_eq_bind, Option.bind_some]
    cases resolveRecipe iso recipe with
    | none => exact ctx.opensTo_fail .unsupported
    | some resolved =>
      obtain ⟨kernelPath, initrdPaths⟩ := resolved
      refine OpensTo.bind
        (opens_record ⟨mem_of_getElem? (i := 3) rfl, rfl, rfl⟩) ?_
      exact ctx.isoBootResolved_opensTo iso labelForLog kernelPath initrdPaths _

lemma bootIso_opensTo (fromUtf8Lossy : Bytes → Text) (volumes : List Volume)
    (holdingIndex : Nat) (isoPath : Text) :
    ctx.OpensTo True (ctx.bootIso fromUtf8Lossy volumes holdingIndex isoPath)
      (ctx.isoFileImage fromUtf8Lossy volumes holdingIndex isoPath) := by
  unfold bootIso isoFileImage
  cases volumes[holdingIndex]? with
  | none => exact ctx.opensTo_fail .aborted
  | some holding =>
    dsimp only [Option.bind_eq_bind, Option.bind_some]
    cases PathBuf.fromStr isoPath with
    | error e => exact ctx.opensTo_fail .invalidParameter
    | ok path =>
      refine ctx.opensTo_orStatus _ fun backend _ => ?_
      refine OpensTo.bind
        (opens_record ⟨mem_of_getElem? (i := 1) rfl, rfl, rfl⟩) ?_
      refine OpensTo.bind (opens_emit trivial) ?_
      change ctx.OpensTo True
        (match loopbackEntry fromUtf8Lossy (isoVolume backend) isoPath with
          | some entry => _
          | none => _) _
      cases loopbackEntry fromUtf8Lossy (isoVolume backend) isoPath with
      | some entry => exact ctx.isoBootResolved_opensTo _ _ _ _ _
      | none => exact ctx.bootIsoRecipe_opensTo _ _ _ _

lemma bootIsoOptical_opensTo (handle : Nat) (label : Text) :
    ctx.OpensTo True (ctx.bootIsoOptical handle label)
      (ctx.isoOpticalImage handle label) := by
  refine ctx.opensTo_orStatus _ fun backend _ => ?_
  refine OpensTo.bind
    (opens_record ⟨mem_of_getElem? (i := 2) rfl, rfl, rfl⟩) ?_
  exact ctx.bootIsoRecipe_opensTo _ _ _ _

/-- Every attempt but a chainload comes down to the shared steps on the image of the entry. -/
theorem bootEntry_opensTo (fromUtf8Lossy : Bytes → Text) (volumes : List Volume)
    (entry : BootEntry) (hkind : ∀ path, entry.kind ≠ .chainload path) :
    ctx.OpensTo (ctx.InitrdsReadable volumes entry.kind)
      (ctx.bootEntry fromUtf8Lossy volumes entry)
      (ctx.imageFor fromUtf8Lossy volumes entry) := by
  unfold bootEntry imageFor
  cases volumes with
  | nil => exact ctx.opensTo_fail .aborted
  | cons esp extras =>
    dsimp only
    split
    · next path h => exact absurd h (hkind path)
    · next h => rw [h]; exact ctx.bootUki_opensTo esp _ _
    · next h => rw [h]; exact ctx.bootLinux_opensTo _ _ _ _
    · next h => rw [h]; exact ctx.bootIso_opensTo _ _ _ _
    · next h => rw [h]; exact ctx.bootIsoOptical_opensTo _ _

end BootContext

end LamBoot
