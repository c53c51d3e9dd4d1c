import LamBoot.Boot.Routes

/-!
# Trust along an attempt

What a boot attempt must have done before it records that an image was loaded natively, and before
it starts one. What is done with an image that is ready comes after the history in which it was
verified (`Ready.verified_before`).
-/

namespace LamBoot

open Text Traced

lemma subset_of_append_eq {α : Type} {past t pre post : List α} {e : α}
    (h : past ++ t = pre ++ e :: post) (he : e ∉ past) : past ⊆ pre := by
  rcases List.append_eq_append_iff.mp h with ⟨q, rfl, -⟩ | ⟨q, rfl, hq⟩
  · exact List.subset_append_left _ _
  · cases q with
    | nil => simp
    | cons x q =>
      obtain rfl : e = x := (List.cons.inj hq).1
      simp at he

namespace BootContext

variable {ctx : BootContext} {fromUtf8Lossy : Bytes → Text} {volumes : List Volume}
  {entry : BootEntry} {img : Image}

lemma Ready.verified_before (h : ctx.Ready fromUtf8Lossy volumes entry img)
    {pre post : List Effect} {e : Effect}
    (htrace : (ctx.bootEntry fromUtf8Lossy volumes entry).trace = pre ++ e :: post)
    (he : ¬ e.BeforeLoad) : ∃ past, ctx.Before img past ∧ past ⊆ pre := by
  obtain ⟨past, hpast, heq⟩ := ctx.bootEntry_of_image_ready h
  rw [heq, trace_after] at htrace
  exact ⟨past, hpast, subset_of_append_eq htrace fun hmem => he (hpast.beforeLoad hmem)⟩

variable (ctx)

/-! ### Native starts are verified -/

/-- With Secure Boot active, shim has accepted every image that is started natively, unless the
operator asked for the native loader with no shim to ask. The bytes that run are those shim saw, as
memory held them at the load. -/
theorem startNative_verified (fromUtf8Lossy : Bytes → Text) (volumes : List Volume)
    (entry : BootEntry) (hsb : ctx.sbState ≠ .disabled) (pre post : List Effect) (image : Bytes)
    (returned : Option Status)
    (h : (ctx.bootEntry fromUtf8Lossy volumes entry).trace =
      pre ++ .startNative image returned :: post) :
    (∃ verified, .shimVerify verified true ∈ pre ∧ image = ctx.memory.atLoadPe verified ∧
      ctx.platform.sha256 image = ctx.platform.sha256 verified) ∨
    (ctx.nativePe = .always ∧ postureAtVerify ctx.platform ctx.sbState = .activeDirect) := by
  have hmem : .startNative image returned ∈ (ctx.bootEntry fromUtf8Lossy volumes entry).trace := by
    simp [h]
  obtain ⟨img, hready, ⟨hasks, -, hm, heq⟩ | ⟨-, ⟨_, heq⟩ | ⟨-, heq | heq⟩⟩⟩ :=
    ctx.start_of_mem (not_chainload_of_startNative hmem) hmem id nofun rfl nofun nofun
  · obtain ⟨rfl, -⟩ := Effect.startNative.inj heq
    obtain ⟨hroute, -⟩ := ctx.startVerified_of_not_asksFirmware (ctx.via img.bytes) hasks
    obtain ⟨past, hpast, hsub⟩ := hready.verified_before h fun hb => hb.not_starts trivial
    cases hp : ctx.posture with
    | activeWithShim =>
      exact .inl ⟨img.bytes, hsub (hpast.asked hp hready.accepted), rfl, not_not.mp hm⟩
    | activeDirect =>
      refine .inr ⟨?_, hp⟩
      rw [hp] at hroute
      cases hmode : ctx.nativePe with
      | always => rfl
      | auto => exact absurd hroute (by rw [hmode]; decide)
      | never => exact absurd hroute (by rw [hmode]; decide)
    | disabled =>
      -- the posture is off only where Secure Boot was found off
      refine absurd ?_ hsb
      unfold posture postureAtVerify at hp
      split at hp
      · exact absurd hp (by decide)
      · exact hp
  · cases heq
  · cases heq
  · cases heq

end BootContext

def ukiAttempt (nativePe : LoaderNativePeMode) (sbState : SecureBootState)
    (shimLockPresent : Bool) : Attempt Status :=
  (BootContext.accepting nativePe sbState shimLockPresent .stable none).bootEntry (fun _ => [])
    [.uniform [1]] ukiEntry

theorem startNative_verified_uki :
    ∃ pre, (ukiAttempt .auto .activeWithShim true).trace = pre ++ [.startNative [1] none] ∧
      ((∃ verified, .shimVerify verified true ∈ pre ∧ [1] = ImageMemory.stable.atLoadPe verified ∧
        (Platform.accepting true none).sha256 [1] =
          (Platform.accepting true none).sha256 verified) ∨
      (LoaderNativePeMode.auto = .always ∧
        postureAtVerify (.accepting true none) .activeWithShim = .activeDirect)) := by
  have htrace : (ukiAttempt .auto .activeWithShim true).trace =
      (ukiAttempt .auto .activeWithShim true).trace.take 8 ++ [.startNative [1] none] := by
    decide +kernel
  exact ⟨_, htrace, BootContext.startNative_verified _ _ _ _ (by decide) _ [] [1] none htrace⟩

/-- With `always`, an image shim never saw is started under Secure Boot, whether shim was absent
from the start or has vanished since. -/
theorem startNative_unverified :
    (.startNative [1] none ∈ (ukiAttempt .always .activeDirect false).trace ∧
      .shimVerify [1] true ∉ (ukiAttempt .always .activeDirect false).trace) ∧
    .startNative [1] none ∈ (ukiAttempt .always .activeWithShim false).trace ∧
      .shimVerify [1] true ∉ (ukiAttempt .always .activeWithShim false).trace := by
  decide +kernel

/-! ### The trust log -/

namespace BootContext

variable (ctx : BootContext)

/-- Along every attempt, a native load is recorded only after the verification of the same image
under the same token, and after a rejection nothing is recorded as loaded and nothing is started. -/
theorem imageVerified_precedes (fromUtf8Lossy : Bytes → Text) (volumes : List Volume)
    (entry : BootEntry) :
    (∀ pre e post, (ctx.bootEntry fromUtf8Lossy volumes entry).trace = pre ++ .record e :: post →
      e.event = "image_loaded_native".toList →
      ∃ v, .record v ∈ pre ∧ v.event = "image_verified".toList ∧ v.path = e.path ∧
        v.sha256Hex = e.sha256Hex ∧ v.verifiedVia = e.verifiedVia ∧
        v.status ≠ debugStr "REJECTED") ∧
    ∀ pre v post, (ctx.bootEntry fromUtf8Lossy volumes entry).trace = pre ++ .record v :: post →
      v.event = "image_verified".toList → v.status = debugStr "REJECTED" →
      ∀ e ∈ post, ¬ e.Starts ∧ ∀ r, e = .record r →
        r.event ≠ "image_loaded_native".toList ∧ r.event ≠ "image_loaded_firmware".toList := by
  constructor
  · intro pre e post htrace hevent
    have hmem : .record e ∈ (ctx.bootEntry fromUtf8Lossy volumes entry).trace := by simp [htrace]
    rcases ctx.record_form hmem with
      h | ⟨img, -, rfl⟩ | ⟨img, hready, rfl | ⟨hm, rfl⟩⟩
    · exact absurd hevent h.2.1
    · exact absurd (show "image_verified".toList = _ from hevent) (by decide)
    · exact absurd (show "image_loaded_firmware".toList = _ from hevent) (by decide)
    · have hload :
          ¬ (Effect.record (ctx.loadedNativeEvent img (ctx.via img.bytes))).BeforeLoad := by
        rintro (h | ⟨_, _, h⟩ | ⟨v, h, hv⟩)
        · exact h.2.1 rfl
        · cases h
        · rw [← Effect.record.inj h] at hv
          exact absurd (show "image_loaded_native".toList = _ from hv) (by decide)
      obtain ⟨past, hpast, hsub⟩ := hready.verified_before htrace hload
      exact ⟨_, hsub hpast.recorded, rfl, rfl, congrArg hexEncode (not_not.mp hm).symm, rfl,
        ctx.status_of_accepts hready.accepted⟩
  · intro pre v post htrace hevent hstatus e he
    have hv : .record v ∈ (ctx.bootEntry fromUtf8Lossy volumes entry).trace := by simp [htrace]
    obtain ⟨img, himage, rfl⟩ := ctx.verification_of_mem hv hevent
    -- the image that was refused is the only one that could be ready
    have hnot : ∀ img', ¬ ctx.Ready fromUtf8Lossy volumes entry img' := by
      intro img' hready
      obtain rfl : img = img' := Option.some.inj (himage.symm.trans hready.image)
      exact ctx.status_of_accepts hready.accepted hstatus
    have hmem : e ∈ (ctx.bootEntry fromUtf8Lossy volumes entry).trace := by simp [htrace, he]
    constructor
    · intro hstarts
      obtain ⟨s, hs⟩ := ctx.bootEntry_of_not_ready (ctx.not_chainload_of_imageFor himage)
        fun ⟨img', hready⟩ => hnot img' hready
      exact (hs.forall_mem rfl e hmem).not_starts hstarts
    · rintro r rfl
      rcases ctx.record_form hmem with h | ⟨img', -, rfl⟩ | ⟨img', hready, -⟩
      · exact h.2
      · change "image_verified".toList ≠ _ ∧ "image_verified".toList ≠ _
        decide
      · exact absurd hready (hnot img')

end BootContext

end LamBoot
