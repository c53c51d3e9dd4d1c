import LamBoot.Boot.Attempt
import LamBoot.Boot.Iso
import LamBoot.Boot.Types

/-!
# Boot flows

`boot_entry` of `boot.rs` and the flow of each kind of entry. Kernels, UKIs and ISO kernels share
the steps from measurement to start (`verifyAndStart`).
-/

namespace LamBoot

open Text Traced

/-- What the boot flows are given besides the entry. -/
structure BootContext where
  platform : Platform
  memory : ImageMemory
  lower : Lowercase
  nativePe : LoaderNativePeMode
  conoutFatCoupling : Bool
  sbState : SecureBootState

namespace BootContext

variable (ctx : BootContext)

/-! ### The shared steps -/

/-- An image that has been read: its bytes, how it is logged, its command line, and the event of
the fallback to the firmware in the flows that have one. -/
structure Image where
  bytes : Bytes
  path : Text
  options : Text
  backendTag : BackendTag
  fallbackEvent : Option Text

def startVerified (img : Image) (verified : VerifiedBytes) : Attempt Status :=
  let firmware :=
    firmwareLoadAndStart ctx.platform ctx.memory img.bytes img.options ctx.nativePe img.path
  match chooseLoadPath ctx.nativePe verified.sbState with
  | .native =>
    let native :=
      nativeLoadAndStart ctx.platform ctx.memory verified img.options img.backendTag img.path
        ctx.conoutFatCoupling
    match img.fallbackEvent with
    | none => native
    | some event =>
      -- any error of the native route is taken for a loader error
      native.recover fun
        | .error _ => some do
          record
            { event, path := img.path, note := "reason=native_pe_load_error route=firmware" }
          firmware
        | .handedOver => none
  | .firmware => firmware

def verifyAndStart (img : Image) (stageInitrd : Attempt Unit) : Attempt Status := do
  measureKernelLogged ctx.platform img.bytes img.path
  if img.options ≠ [] then measureCmdlineLogged ctx.platform img.options img.path
  match ← verifyKernelBytes ctx.platform img.bytes img.path ctx.sbState with
  | none => fail .securityViolation
  | some verified => do
    stageInitrd
    ctx.startVerified img verified

def registerInitrd (data : Bytes) : Attempt Unit :=
  emit (.registerInitrd data (ctx.platform.registerInitrd data).isOk)

/-! ### UKIs and chainloaded images -/

def bootUki (esp : Volume) (path options : Text) : Attempt Status := do
  emit (.read (.volume 0) path)
  let bytes ← orStatus (esp.readStr path)
  ctx.verifyAndStart
    { bytes, path, options, backendTag := esp.backendTag, fallbackEvent := none } (pure ())

def chainloadEfi (esp : Volume) (path : Text) : Attempt Status := do
  emit (.read (.volume 0) path)
  let bytes ← orStatus (esp.readStr path)
  measureLogged ctx.platform 4 bytes "chainload_measured" "chainload_measurement_skipped" path
  let image := ctx.memory.atLoadImage bytes
  loadFromBuffer ctx.platform image
  record
    { event := "image_chainloaded", path, sha256Hex := hexEncode (ctx.platform.sha256 bytes),
      verifiedVia := vFirmwareLoadimage, status := "SUCCESS" }
  flushUnless ctx.conoutFatCoupling
  startLoaded ctx.platform image

/-! ### Kernels with an initrd -/

/-- The path under which a file exists on a volume: as written, or below `\boot`. -/
def existsWithBootFallback (v : Volume) (path : Text) : Option Text :=
  if v.existsStr path then some path
  else
    let lowered := ctx.lower.apply path
    if "\\boot\\".toList.isPrefixOf lowered ∨ "/boot/".toList.isPrefixOf lowered then none
    else
      let prefixed :=
        if path.head? = some '\\' ∨ path.head? = some '/' then "\\boot" ++ path
        else "\\boot\\" ++ path
      if v.existsStr prefixed then some prefixed else none

/-- The first volume that has a file, from the given index on, with the path it has there. -/
def findVolume (path : Text) : List Volume → Nat → Option (Nat × Volume × Text)
  | [], _ => none
  | v :: vs, i =>
    match ctx.existsWithBootFallback v path with
    | some resolved => some (i, v, resolved)
    | none => findVolume path vs (i + 1)

def kernelLoadPhase (path note : Text) : Attempt Unit :=
  record { event := "kernel_load_phase", path, note }

def readKernel (volumes : List Volume) (kernelPath : Text) : Attempt (Bytes × BackendTag) :=
  match ctx.findVolume kernelPath volumes 0 with
  | none => do
    kernelLoadPhase kernelPath "phase=resolve_failed"
    flushUnless ctx.conoutFatCoupling
    fail .notFound
  | some (i, v, resolved) => do
    kernelLoadPhase resolved
      ("phase=read_bytes_start volume_index=" ++ decimal i ++ " backend=" ++
        v.backendTag)
    emit (.read (.volume i) resolved)
    let bytes ← orStatus (v.readStr resolved)
    kernelLoadPhase resolved ("phase=read_bytes_done size=" ++ decimal bytes.length)
    pure (bytes, v.backendTag)

def readInitrds (volumes : List Volume) : List Text → Attempt Bytes
  | [] => pure []
  | path :: paths =>
    match ctx.findVolume path volumes 0 with
    | none => readInitrds volumes paths
    | some (i, v, resolved) => do
      emit (.read (.volume i) resolved)
      let data ← orStatus (v.readStr resolved)
      let rest ← readInitrds volumes paths
      pure (data ++ rest)

def bootLinux (volumes : List Volume) (kernelPath : Text) (initrdPaths : List Text)
    (options : Text) : Attempt Status := do
  kernelLoadPhase kernelPath "phase=resolve_volume"
  flushUnless ctx.conoutFatCoupling
  let (bytes, backendTag) ← ctx.readKernel volumes kernelPath
  kernelLoadPhase kernelPath
    ("phase=bytes_acquired total_size=" ++ decimal bytes.length ++ " backend=" ++
      backendTag)
  flushUnless ctx.conoutFatCoupling
  ctx.verifyAndStart
    { bytes, path := kernelPath, options, backendTag,
      fallbackEvent := some "kernel_native_load_fallback" }
    (if initrdPaths = [] then pure ()
    else do
      let combined ← ctx.readInitrds volumes initrdPaths
      ctx.registerInitrd combined)

/-! ### ISO kernels -/

def readIsoInitrds (iso : Volume) : List Text → Attempt Bytes
  | [] => pure []
  | path :: paths => do
    emit (.read .iso path)
    let rest ← readIsoInitrds iso paths
    match iso.readStr path with
    | .ok data => pure (data ++ rest)
    | .error _ => pure rest

def isoBootResolved (iso : Volume) (labelForLog kernelPath : Text) (initrdPaths : List Text)
    (options : Text) : Attempt Status := do
  emit (.read .iso kernelPath)
  let kernel ← orStatus (iso.readStr kernelPath)
  let initrd ← readIsoInitrds iso initrdPaths
  record
    { event := "iso_path_a_resolved",
      note := "kernel=" ++ kernelPath ++ " kbytes=" ++ decimal kernel.length ++
        " ibytes=" ++ decimal initrd.length ++ " label=" ++ labelForLog }
  ctx.verifyAndStart
    { bytes := kernel, path := kernelPath, options, backendTag := iso.backendTag,
      fallbackEvent := some "iso_native_load_fallback" }
    (if initrd = [] then pure () else ctx.registerInitrd initrd)

def bootIsoRecipe (iso : Volume) (labelForLog : Text) (cmdline : DistroRecipe → Text)
    (source : Text) : Attempt Status :=
  match fingerprint iso.existsStr with
  | none => fail .unsupported
  | some recipe =>
    match resolveRecipe iso recipe with
    | none => fail .unsupported
    | some (kernelPath, initrdPaths) => do
      record
        { event := "iso_path_a2_distro",
          note := "family=" ++ recipe.family ++ " source=" ++ source }
      ctx.isoBootResolved iso labelForLog kernelPath initrdPaths (cmdline recipe)

def isoVolume (backend : Volume) : Volume :=
  { backend with label := none }

/-- Boot from an ISO file: the distribution's own `loopback.cfg` first, then the table.
`fromUtf8Lossy` is `String::from_utf8_lossy`. -/
def bootIso (fromUtf8Lossy : Bytes → Text) (volumes : List Volume) (holdingIndex : Nat)
    (isoPath : Text) : Attempt Status := do
  match volumes[holdingIndex]? with
  | none => fail .aborted
  | some holding =>
    match PathBuf.fromStr isoPath with
    | .error _ => fail .invalidParameter
    | .ok path => do
      let backend ← orStatus (ctx.platform.mountIso holding path)
      let iso := isoVolume backend
      record
        { event := "iso_mounted",
          note := "iso_path=" ++ isoPath ++ " backend=" ++ iso.backendTag ++
            " holding_index=" ++ decimal holdingIndex }
      emit (.read .iso "/boot/grub/loopback.cfg")
      let entry : Option LoopbackEntry := do
        let bytes ← (iso.readStr "/boot/grub/loopback.cfg").toOption
        parseFirstMenuentry (fromUtf8Lossy bytes) isoPath
      match entry with
      | some entry => ctx.isoBootResolved iso isoPath entry.kernel [entry.initrd] entry.options
      | none =>
        ctx.bootIsoRecipe iso isoPath
          (fun recipe => renderCmdline recipe.fileCmdline isoPath (iso.label.getD []))
          ("file iso=" ++ isoPath)

def bootIsoOptical (handle : Nat) (label : Text) : Attempt Status := do
  let backend ← orStatus (ctx.platform.mountOptical handle)
  let iso := isoVolume backend
  record
    { event := "iso_optical_mounted",
      note := "label=" ++ label ++ " backend=" ++ iso.backendTag }
  ctx.bootIsoRecipe iso label (fun recipe => renderCmdline recipe.mediaCmdline [] label)
    ("optical label=" ++ label)

/-! ### Dispatch -/

def bootEntry (fromUtf8Lossy : Bytes → Text) (volumes : List Volume) (entry : BootEntry) :
    Attempt Status :=
  match volumes with
  | [] => fail .aborted
  | esp :: _ =>
    match entry.kind with
    | .chainload path => ctx.chainloadEfi esp path
    | .uki path options => ctx.bootUki esp path options
    | .linuxLegacy kernelPath initrdPaths options =>
      ctx.bootLinux volumes kernelPath initrdPaths options
    | .iso (.file isoPath) => ctx.bootIso fromUtf8Lossy volumes entry.sourceVolumeIndex isoPath
    | .iso (.optical handle label) => ctx.bootIsoOptical handle label

end BootContext

/-! ### A machine that accepts everything -/

/-- Firmware that accepts every image; what is started returns with `returned`. -/
def Platform.accepting (shimLockPresent : Bool) (returned : Option Status) : Platform where
  sha256 image := image
  shimLockPresent
  shimLockHandle := .ok ()
  shimLockOpen := .ok ()
  shimVerify _ := .ok ()
  hashLogExtend _ _ := true
  checkPe _ := .ok ()
  placePe _ := .ok ()
  loadImage _ := .ok ()
  openLoadedImage := .ok ()
  startNative := returned
  startImage := returned
  registerInitrd _ := .ok ()
  mountIso _ _ := .error .notFound
  mountOptical _ := .error .notFound

def BootContext.accepting (nativePe : LoaderNativePeMode) (sbState : SecureBootState)
    (shimLockPresent : Bool) (memory : ImageMemory) (returned : Option Status) : BootContext where
  platform := .accepting shimLockPresent returned
  memory
  lower := .asciiOnly
  nativePe
  conoutFatCoupling := false
  sbState

def Volume.uniform (contents : Bytes) : Volume where
  backendTag := "fat"
  read _ := .ok contents
  fileExists _ := .ok true
  readDir _ := .ok []

def ukiEntry : BootEntry where
  id := "uki"
  name := "uki"
  kind := .uki "\\EFI\\Linux\\a.efi" []
  icon := .linux

def kernelEntry : BootEntry where
  id := "kernel"
  name := "kernel"
  kind := .linuxLegacy "\\vmlinuz" [] []
  icon := .linux

end LamBoot
