import LamBoot.Fs.Volume
import LamBoot.Library.Traced
import LamBoot.Policy.Basic
import LamBoot.TrustEvent

/-!
# Verifying and loading an image

The steps of `boot.rs` that measure an image, verify it, choose a route and start it. The trace of
an attempt holds the events it records and each call by which firmware verifies, loads or starts an
image. A `Platform` gives what the firmware answers, and `ImageMemory` what the loaders find in
memory.
-/

namespace LamBoot

open Text Traced

/-! ### The platform -/

/-- Secure Boot state. -/
inductive SecureBootState where
  | disabled
  | activeWithShim
  | activeDirect
deriving DecidableEq, Repr

/-- An error of the native loader, as it is logged. -/
structure PeLoadError where
  logToken : Text
  debug : Text

/-- What the firmware answers during one boot attempt. -/
structure Platform where
  sha256 : Bytes → Bytes
  /-- Whether shim's protocol is installed when the attempt asks for it again. -/
  shimLockPresent : Bool
  /-- Whether it is found once more, and opened, for the verification. -/
  shimLockHandle : Except Status Unit
  shimLockOpen : Except Status Unit
  /-- The answer of `ShimLock::Verify`. -/
  shimVerify : Bytes → Except Status Unit
  /-- Whether a register is extended with a measurement. -/
  hashLogExtend : Nat → Bytes → Bool
  /-- `parse_headers` and `validate_headers`, which `load_pe` runs before it takes the digest. -/
  checkPe : Bytes → Except PeLoadError Unit
  /-- What it does afterwards: allocation, copying, relocation and protocol installation. -/
  placePe : Bytes → Except PeLoadError Unit
  /-- `BS->LoadImage`, with the security override in place. -/
  loadImage : Bytes → Except Status Unit
  openLoadedImage : Except Status Unit
  /-- What the image returns with, if it ever returns, on either route. -/
  startNative : Option Status
  startImage : Option Status
  registerInitrd : Bytes → Except Status Unit
  mountIso : Volume → PathBuf → Except FsError Volume
  mountOptical : Nat → Except FsError Volume

def Platform.loadPe (p : Platform) (image : Bytes) : Except PeLoadError Unit := do
  p.checkPe image
  p.placePe image

/-- The image as the two loaders find it in memory, given the bytes that were verified. -/
structure ImageMemory where
  atLoadPe : Bytes → Bytes
  atLoadImage : Bytes → Bytes

def ImageMemory.stable : ImageMemory :=
  ⟨id, id⟩

/-! ### Attempts -/

/-- Where a file is read from. -/
inductive FileSource where
  | volume (index : Nat)
  | iso
deriving DecidableEq, Repr

/-- What can be observed of a boot attempt. -/
inductive Effect where
  | record (event : TrustEvent)
  | flush
  | read (source : FileSource) (path : Text)
  | extend (pcr : Nat) (data : Bytes) (extended : Bool)
  | shimVerify (image : Bytes) (accepted : Bool)
  | loadPe (image : Bytes) (loaded : Bool)
  | loadImage (image : Bytes) (loaded : Bool)
  | registerInitrd (data : Bytes) (registered : Bool)
  | startNative (image : Bytes) (returned : Option Status)
  | startImage (image : Bytes) (returned : Option Status)
deriving DecidableEq, Repr

/-- The ways a boot attempt ends without a value: with an error, or because the image it started
has taken over the machine. -/
inductive Exit where
  | error (status : Status)
  | handedOver
deriving DecidableEq, Repr

abbrev Attempt := Traced Effect Exit

def record (event : TrustEvent) : Attempt Unit :=
  emit (.record event)

def fail {α : Type} (status : Status) : Attempt α :=
  stop (.error status)

/-- `?` on a filesystem error. -/
def orStatus {α : Type} (r : Except FsError α) : Attempt α :=
  ofExcept (r.mapError fun e => .error e.toUefiStatus)

def flushUnless (conoutFatCoupling : Bool) : Attempt Unit :=
  if conoutFatCoupling then pure () else emit .flush

def awaitReturn (returned : Option Status) : Attempt Status :=
  match returned with
  | some status => pure status
  | none => stop .handedOver

section

variable (p : Platform)

/-! ### Measurement -/

def measureLogged (pcr : Nat) (data : Bytes) (measured skipped : Text) (path : Text) :
    Attempt Unit := do
  let extended := p.hashLogExtend pcr data
  emit (.extend pcr data extended)
  let note := "pcr=" ++ decimal pcr
  if extended then record { event := measured, path, note }
  else
    record { event := skipped, path, note := note ++ " reason=no_tpm_or_tcg2_error" }

def measureKernelLogged (data : Bytes) (path : Text) : Attempt Unit :=
  measureLogged p 4 data "kernel_measured" "kernel_measurement_skipped" path

def measureCmdlineLogged (options path : Text) : Attempt Unit :=
  measureLogged p 12 ((utf16 options).flatMap Bytes.le16) "cmdline_measured"
    "cmdline_measurement_skipped" path

/-! ### Verification -/

/-- Trust-verified bytes with their digest, how they were verified, and the posture under which
they were. -/
structure VerifiedBytes where
  bytes : Bytes
  sha256 : Bytes
  verifiedVia : Text
  sbState : SecureBootState

def verifyImage (image : Bytes) (state : SecureBootState) : Attempt (Except Status Unit) :=
  match state with
  | .disabled | .activeDirect => pure (.ok ())
  | .activeWithShim =>
    match p.shimLockHandle with
    | .error e => pure (.error e)
    | .ok () =>
      match p.shimLockOpen with
      | .error e => pure (.error e)
      | .ok () => do
        let answer := p.shimVerify image
        emit (.shimVerify image answer.isOk)
        pure answer

/-- The posture an image is verified under: shim may have vanished since it was detected. -/
def postureAtVerify (sbState : SecureBootState) : SecureBootState :=
  if sbState = .activeWithShim ∧ p.shimLockPresent = false then .activeDirect else sbState

/-- The verdict on an image: the `verified_via` token, the status and whether it is accepted. -/
def verdict (image : Bytes) (posture : SecureBootState) : Attempt (Text × Text × Bool) :=
  match posture with
  | .disabled => pure (vDegradedTrustSbOff, "SKIPPED", true)
  | .activeDirect => pure (vDegradedTrustSbDirect, "DEFERRED", true)
  | .activeWithShim => do
    match ← verifyImage p image posture with
    | .ok () => pure (vShimMok, "SUCCESS", true)
    | .error _ => pure (vShimRejected, "REJECTED", false)

def verifyKernelBytes (image : Bytes) (pathForLog : Text) (sbState : SecureBootState) :
    Attempt (Option VerifiedBytes) := do
  let posture := postureAtVerify p sbState
  let (verifiedVia, status, accepted) ← verdict p image posture
  record
    { event := "image_verified", path := pathForLog, sha256Hex := hexEncode (p.sha256 image),
      verifiedVia, status := debugStr status }
  if accepted then
    pure (some { bytes := image, sha256 := p.sha256 image, verifiedVia, sbState := posture })
  else pure none

/-! ### Routes -/

inductive LoadPath where
  | native
  | firmware
deriving DecidableEq, Repr

def decideLoadRoute (mode : LoaderNativePeMode) (posture : SecureBootState) : LoadPath :=
  match mode with
  | .never => .firmware
  | .always => .native
  | .auto => if posture = .activeDirect then .firmware else .native

/-- The adapter in `boot.rs`, whose enumerations mirror those of the route decision. -/
def chooseLoadPath (mode : LoaderNativePeMode) (sbState : SecureBootState) : LoadPath :=
  decideLoadRoute mode sbState

variable (mem : ImageMemory)

/-- Native load path: `pe_loader::load_pe` and `pe_loader::start_image`. -/
def nativeLoadAndStart (verified : VerifiedBytes) (options : Text) (backendTag : BackendTag)
    (pathForLog : Text) (conoutFatCoupling : Bool) : Attempt Status := do
  if options ≠ [] ∧ cstring16 options = none then fail .invalidParameter
  let image := mem.atLoadPe verified.bytes
  emit (.loadPe image (p.loadPe image).isOk)
  match p.loadPe image with
  | .error e =>
    record
      { event := "image_load_failed", path := pathForLog, verifiedVia := vNativePeLoader,
        note := "backend=" ++ backendTag ++ " size=" ++
          decimal verified.bytes.length ++ " token=" ++ e.logToken ++
          " debug=" ++ e.debug }
    fail .loadError
  | .ok () =>
    -- fail closed where the bytes that were loaded are not the bytes that were verified
    if p.sha256 image ≠ verified.sha256 then
      record
        { event := "image_load_failed", path := pathForLog, verifiedVia := vNativePeLoader,
          note := "reason=sds4_6.4_verify_load_sha256_mismatch" }
      flushUnless conoutFatCoupling
      fail .securityViolation
    else
      record
        { event := "image_loaded_native", path := pathForLog,
          sha256Hex := hexEncode (p.sha256 image), verifiedVia := verified.verifiedVia,
          status := "SUCCESS",
          note := "backend=" ++ backendTag ++ " loader=" ++ vNativePeLoader }
      flushUnless conoutFatCoupling
      emit (.startNative image p.startNative)
      awaitReturn p.startNative

/-- `BS->LoadImage` on the image in memory. -/
def loadFromBuffer (image : Bytes) : Attempt Unit := do
  emit (.loadImage image (p.loadImage image).isOk)
  ofExcept ((p.loadImage image).mapError .error)

/-- `BS->StartImage`, whose status becomes an error unless it is success. -/
def startLoaded (image : Bytes) : Attempt Status := do
  emit (.startImage image p.startImage)
  let status ← awaitReturn p.startImage
  ofExcept (status.toResult.mapError .error)
  pure .success

def setLoadOptions (options : Text) : Attempt Unit :=
  if cstring16 options = none then fail .invalidParameter
  else ofExcept (p.openLoadedImage.mapError .error)

def firmwareLoadAndStart (bytes : Bytes) (options : Text) (mode : LoaderNativePeMode)
    (pathForLog : Text) : Attempt Status := do
  record
    { event := "legacy_loadimage_used", path := pathForLog, verifiedVia := vFirmwareLoadimage,
      note := "size=" ++ decimal bytes.length ++ " policy=" ++ mode.asLogToken }
  let image := mem.atLoadImage bytes
  loadFromBuffer p image
  if options ≠ [] then setLoadOptions p options
  record
    { event := "image_loaded_firmware", path := pathForLog, verifiedVia := vFirmwareLoadimage,
      status := "SUCCESS" }
  emit .flush
  startLoaded p image

end

end LamBoot
