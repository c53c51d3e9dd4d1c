import LamBoot.Boot.Routes

/-!
# The trust posture of the boot report

Two fields of `boot.json`, which is written before the image is read, say how it will be verified
and loaded. They are computed from the Secure Boot state, the policy and the kind of the entry, by
the mappers of `trust_log_pure.rs`; the attempt depends on more.
-/

namespace LamBoot

open Text Traced

/-- Secure Boot posture as seen by the summary report. -/
inductive ReportSbState where
  | off
  | shim
  | direct
deriving DecidableEq, Repr

/-- The posture that `run_bootloader` hands to the report. -/
def reportSb : SecureBootState → ReportSbState
  | .disabled => .off
  | .activeWithShim => .shim
  | .activeDirect => .direct

def reportVerifiedVia : ReportSbState → Text
  | .off => vDegradedTrustSbOff
  | .direct => vDegradedTrustSbDirect
  | .shim => vShimMok

def reportLoader (nativePeNever isChainload : Bool) : Text :=
  if isChainload || nativePeNever then vFirmwareLoadimage else vNativePeLoader

def EntryKind.isChainload : EntryKind → Bool
  | .chainload _ => true
  | .uki _ _ | .linuxLegacy _ _ _ | .iso _ => false

/-- The two fields of `boot.json`. -/
structure ReportedTrust where
  verifiedVia : Text
  loader : Text
deriving DecidableEq, Repr

namespace BootContext

variable (ctx : BootContext)

/-- The fields that `write_boot_report` writes for an entry. -/
def reportedTrust (entry : BootEntry) : ReportedTrust where
  verifiedVia :=
    if entry.kind.isChainload then [] else reportVerifiedVia (reportSb ctx.sbState)
  loader := reportLoader (ctx.nativePe = .never) entry.kind.isChainload

/-- An attempt does what was reported: what it starts it starts by that loader, and what it records
as verified has that token, of which there is none for a chainload. -/
structure AsReported (reported : ReportedTrust) (entry : BootEntry) (attempt : Attempt Status) :
    Prop where
  native : ∀ image returned, .startNative image returned ∈ attempt.trace →
    reported.loader = vNativePeLoader
  firmware : ∀ image returned, .startImage image returned ∈ attempt.trace →
    reported.loader = vFirmwareLoadimage
  verified : ∀ ev, .record ev ∈ attempt.trace → ev.event = "image_verified".toList →
    ev.verifiedVia = reported.verifiedVia
  chainload : ∀ path, entry.kind = .chainload path → reported.verifiedVia = []

variable {fromUtf8Lossy : Bytes → Text} {volumes : List Volume} {entry : BootEntry}

lemma isChainload_eq_false (hkind : ∀ path, entry.kind ≠ .chainload path) :
    entry.kind.isChainload = false := by
  cases h : entry.kind with
  | chainload path => exact absurd h (hkind path)
  | uki | linuxLegacy | iso => rfl

lemma loader_eq_firmware_iff (hkind : ∀ path, entry.kind ≠ .chainload path) :
    (ctx.reportedTrust entry).loader = vFirmwareLoadimage ↔ ctx.nativePe = .never := by
  rw [reportedTrust, isChainload_eq_false hkind, reportLoader]
  by_cases h : ctx.nativePe = .never
  · simp [h]
  · simp [h]
    decide

lemma loader_eq_native_iff (hkind : ∀ path, entry.kind ≠ .chainload path) :
    (ctx.reportedTrust entry).loader = vNativePeLoader ↔ ctx.nativePe ≠ .never := by
  rw [reportedTrust, isChainload_eq_false hkind, reportLoader]
  by_cases h : ctx.nativePe = .never
  · simp [h]
    decide
  · simp [h]

lemma via_eq_reported_iff (hkind : ∀ path, entry.kind ≠ .chainload path) (image : Bytes) :
    ctx.via image = (ctx.reportedTrust entry).verifiedVia ↔
      ctx.posture = ctx.sbState ∧ ctx.Accepts image := by
  have hposture : ctx.posture = ctx.sbState ∨
      ctx.sbState = .activeWithShim ∧ ctx.posture = .activeDirect := by
    unfold posture postureAtVerify
    split_ifs with h
    · exact .inr ⟨h.1, rfl⟩
    · exact .inl rfl
  rw [reportedTrust, isChainload_eq_false hkind, via, verdictOf, Accepts]
  rcases hposture with h | ⟨hs, hp⟩
  · rw [h]
    cases ctx.sbState with
    | disabled => simp [reportSb, reportVerifiedVia]
    | activeDirect => simp [reportSb, reportVerifiedVia]
    | activeWithShim =>
      by_cases hshim : ctx.ShimAccepts image
      · simp [reportSb, reportVerifiedVia, hshim]
      · simp [reportSb, reportVerifiedVia, hshim]
        decide
  · rw [hp, hs]
    simp [reportSb, reportVerifiedVia]
    decide

lemma asReported_of_chainload {path : Text} (hpath : entry.kind = .chainload path) :
    AsReported (ctx.reportedTrust entry) entry
      (ctx.bootEntry fromUtf8Lossy volumes entry) := by
  have hstart : ∀ image returned,
      .startNative image returned ∉ (ctx.bootEntry fromUtf8Lossy volumes entry).trace := by
    intro image returned hmem
    exact not_chainload_of_startNative hmem path hpath
  have hnone : ctx.imageFor fromUtf8Lossy volumes entry = none := by
    unfold imageFor
    rw [hpath]
    cases volumes <;> rfl
  refine ⟨fun image returned hmem => absurd hmem (hstart image returned), fun _ _ _ => ?_,
    fun ev hmem hevent => ?_, fun _ _ => ?_⟩
  · rw [reportedTrust, hpath]
    rfl
  · obtain ⟨img, himg, -⟩ := ctx.verification_of_mem hmem hevent
    rw [hnone] at himg
    cases himg
  · rw [reportedTrust, hpath]
    rfl

/-- An attempt does what was reported exactly where shim has not vanished and does not refuse its
image, and, unless the policy is never to load natively, the firmware does not start it. -/
theorem asReported_iff (fromUtf8Lossy : Bytes → Text) (volumes : List Volume)
    (entry : BootEntry) :
    AsReported (ctx.reportedTrust entry) entry
        (ctx.bootEntry fromUtf8Lossy volumes entry) ↔
      ∀ img, ctx.imageFor fromUtf8Lossy volumes entry = some img →
        ctx.posture = ctx.sbState ∧ ctx.Accepts img.bytes ∧
          (ctx.nativePe = .never ∨ ¬ (ctx.InitrdsReadable volumes entry.kind ∧
            ctx.AsksFirmware img ∧ ctx.LoadsImage img)) := by
  constructor
  · intro h img himg
    have hkind := ctx.not_chainload_of_imageFor himg
    obtain ⟨hposture, haccepts⟩ := (ctx.via_eq_reported_iff hkind img.bytes).mp
      (h.verified _ (ctx.verification_mem himg) rfl)
    refine ⟨hposture, haccepts, ?_⟩
    by_contra hnot
    obtain ⟨hnever, hstarts⟩ := not_or.mp hnot
    obtain ⟨hinitrds, hasks, hloads⟩ := not_not.mp hstarts
    obtain ⟨image, returned, hmem⟩ := (ctx.startImage_mem_iff hkind).mpr
      ⟨img, ⟨himg, haccepts, hinitrds⟩, hasks, hloads⟩
    exact hnever ((ctx.loader_eq_firmware_iff hkind).mp (h.firmware image returned hmem))
  · intro h
    by_cases hkind : ∃ path, entry.kind = .chainload path
    · obtain ⟨path, hpath⟩ := hkind
      exact ctx.asReported_of_chainload hpath
    · push Not at hkind
      refine ⟨fun image returned hmem => ?_, fun image returned hmem => ?_,
        fun ev hmem hevent => ?_, fun path hpath => absurd hpath (hkind path)⟩
      · obtain ⟨img, hready, hasks⟩ := ctx.not_asksFirmware_of_startNative hkind hmem
        refine (ctx.loader_eq_native_iff hkind).mpr fun hnever => hasks (.inl ?_)
        rw [hnever]
        rfl
      · obtain ⟨img, hready, hasks, hloads⟩ := (ctx.startImage_mem_iff hkind).mp
          ⟨image, returned, hmem⟩
        obtain ⟨-, -, hnever⟩ := h img hready.image
        exact (ctx.loader_eq_firmware_iff hkind).mpr
          (hnever.resolve_right fun hnot => hnot ⟨hready.initrds, hasks, hloads⟩)
      · obtain ⟨img, himg, rfl⟩ := ctx.verification_of_mem hmem hevent
        obtain ⟨hposture, haccepts, -⟩ := h img himg
        exact (ctx.via_eq_reported_iff hkind img.bytes).mpr ⟨hposture, haccepts⟩

/-- With Secure Boot and no shim, the default policy reports the native loader for a UKI, and the
firmware starts it. -/
theorem uki_not_as_reported :
    let ctx := BootContext.accepting .auto .activeDirect true .stable none
    (ctx.reportedTrust ukiEntry).loader = vNativePeLoader ∧
      .startImage [1] none ∈ (ctx.bootEntry (fun _ => []) [.uniform [1]] ukiEntry).trace ∧
      ∀ image returned, .startNative image returned ∉
        (ctx.bootEntry (fun _ => []) [.uniform [1]] ukiEntry).trace := by
  intro ctx
  refine ⟨rfl, by decide, fun image returned hmem => ?_⟩
  have hnone : (ctx.bootEntry (fun _ => []) [.uniform [1]] ukiEntry).trace.any
      (fun e => match e with | .startNative _ _ => true | _ => false) = false := by
    decide
  rw [List.any_eq_false] at hnone
  exact hnone _ hmem rfl

end BootContext

end LamBoot
