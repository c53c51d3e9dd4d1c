import LamBoot.Boot.Routes
import LamBoot.Inspect.Diagnose
import LamBoot.Inspect.RoundTrip

/-!
# The inspector's verdict on a verification

The status of an `image_verified` event is written by the Debug formatter, with quotes, and the
token of a refusal is one that the inspector does not know.
-/

namespace LamBoot.Inspect

open Text Python Traced

/-- The inspector says what the boot loader decided: an accepted image is no failure, and a refused
one is found as an error wherever its verification counts. -/
def VerdictAgrees (py : Python) (accepted : Prop) (ev : TrustEvent) : Prop :=
  ∀ seq line e, parseLine py (eventObject seq ev) line = .ok e →
    (accepted → e.isFailure = false) ∧
    (¬ accepted → e.isFailure = true ∧
      ∀ r : ParseResult, r.findVerifiedLoad = some e →
        ∃ f ∈ evaluate py r, f.id = "trust.shim_rejected" ∧ f.severity = .error)

lemma isFailure_of_debugStr {e : ParsedEvent} {status : Text} (h : e.status = debugStr status) :
    e.isFailure = true := by
  have hquoted : e.status.head? = some '"' := by
    rw [h]
    rfl
  have hne : e.status ≠ [] ∧ e.status ∉ (["SUCCESS", "Success", ""] : List Text) := by
    constructor
    · intro hnil
      rw [hnil] at hquoted
      cases hquoted
    · intro hmem
      have hhead : ∀ s ∈ (["SUCCESS", "Success", ""] : List Text), s.head? ≠ some '"' := by decide
      exact hhead _ hmem hquoted
  rw [ParsedEvent.isFailure, ParsedEvent.isSuccess]
  split_ifs <;> rfl

lemma ruleTrustToken_of_shimRejected {r : ParseResult} {e : ParsedEvent}
    (h : r.findVerifiedLoad = some e) (hvia : e.verifiedVia = vShimRejected) :
    ruleTrustToken r = [] := by
  unfold ruleTrustToken
  rw [h]
  dsimp only
  rw [hvia, if_neg (by decide), if_neg (by decide), if_neg (by decide), if_neg (by decide)]

section Attempts

variable (py : Python) (ctx : BootContext) (fromUtf8Lossy : Bytes → Text) (volumes : List Volume)
  (entry : BootEntry)

lemma not_verdictAgrees (img : BootContext.Image) :
    ¬ VerdictAgrees py (ctx.Accepts img.bytes) (ctx.verification img) := by
  intro h
  obtain ⟨haccepted, hrefused⟩ := h 0 1 _ (parseLine_eventObject py 0 1 _)
  by_cases haccepts : ctx.Accepts img.bytes
  · have hfailure : (parsedEvent 0 1 (ctx.verification img)).isFailure = true :=
      isFailure_of_debugStr rfl
    rw [haccepted haccepts] at hfailure
    cases hfailure
  · -- The log that has the refusal as its only line.
    let e := parsedEvent 0 1 (ctx.verification img)
    have hvia : e.verifiedVia = vShimRejected := ctx.via_of_not_accepts haccepts
    have hverified : (⟨[e], [], [], none⟩ : ParseResult).findVerifiedLoad = some e := rfl
    obtain ⟨f, hf, hid, -⟩ := (hrefused haccepts).2 _ hverified
    have hmem := mem_ruleTrustToken_of_mem_evaluate hf (hid ▸ List.mem_of_getElem? (i := 2) rfl)
    rw [ruleTrustToken_of_shimRejected hverified hvia] at hmem
    cases hmem

/-- The inspector agrees with the boot loader about an attempt exactly where there is nothing to
verify: the entry is chainloaded, or no image can be read for it. -/
theorem verdict_agrees_iff :
    (∀ ev, .record ev ∈ (ctx.bootEntry fromUtf8Lossy volumes entry).trace →
      ev.event = imageVerified →
      ∃ img, ctx.imageFor fromUtf8Lossy volumes entry = some img ∧
        VerdictAgrees py (ctx.Accepts img.bytes) ev) ↔
      ctx.imageFor fromUtf8Lossy volumes entry = none := by
  constructor
  · intro h
    by_contra hne
    obtain ⟨img, himg⟩ := Option.ne_none_iff_exists'.mp hne
    obtain ⟨img', himg', hagrees⟩ := h _ (ctx.verification_mem himg) rfl
    obtain rfl : img = img' := Option.some.inj (himg.symm.trans himg')
    exact not_verdictAgrees py ctx img hagrees
  · intro h ev hmem hevent
    obtain ⟨img, himg, -⟩ := ctx.verification_of_mem hmem hevent
    rw [h] at himg
    cases himg

end Attempts

/-- Without Secure Boot a UKI is accepted and started, and the inspector takes the record of its
verification for a failure. -/
theorem accepted_uki_taken_for_failure :
    let ctx := BootContext.accepting .auto .disabled true .stable none
    let img : BootContext.Image := ⟨[1], "\\EFI\\Linux\\a.efi", [], "fat", none⟩
    let ev := ctx.verifiedEvent img vDegradedTrustSbOff "SKIPPED"
    .record ev ∈ (ctx.bootEntry (fun _ => []) [.uniform [1]] ukiEntry).trace ∧
      ctx.imageFor (fun _ => []) [.uniform [1]] ukiEntry = some img ∧
      ctx.Accepts img.bytes ∧
      .startNative [1] none ∈ (ctx.bootEntry (fun _ => []) [.uniform [1]] ukiEntry).trace ∧
      ((parseLine .minimal (eventObject 0 ev) 1).toOption.map ParsedEvent.isFailure) =
        some true := by
  intro ctx img ev
  have haccepts : ctx.Accepts img.bytes := by
    intro hshim
    cases hshim
  refine ⟨by decide, rfl, haccepts, by decide, ?_⟩
  rw [parseLine_eventObject]
  rfl

end LamBoot.Inspect
