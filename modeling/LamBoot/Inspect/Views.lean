import LamBoot.Inspect.Diagnose

/-!
# What the conclusions depend on

The inspector looks at the last event of two names, at the first of three, and at all events of some
others. Nothing else of a log, and no place in the file, decides what it concludes.
-/

namespace LamBoot.Inspect

open List Text Python

/-- What the inspector concludes about a boot. The digest of the file is no conclusion of its
events. -/
structure Conclusions where
  verified : Option ParsedEvent
  loaded : Option ParsedEvent
  digestsMatch : Option Bool
  findings : List Finding
  attestation : Attestation

def conclusions (py : Python) (r : ParseResult) : Conclusions where
  verified := r.findVerifiedLoad.map ParsedEvent.unplaced
  loaded := r.findLoadedNative.map ParsedEvent.unplaced
  digestsMatch := sha256VerifyVsLoadMatch r
  findings := evaluate py r
  attestation := { attestation py r with sourceSha256 := none }

def lastNames : List Text :=
  ["image_verified", "image_loaded_native"]

def ParseResult.startNote (r : ParseResult) : Text :=
  ((r.first "boot_start").map ParsedEvent.note).getD []

/-- Two logs that agree in all that is looked at. -/
structure SameViews (py : Python) (r r' : ParseResult) : Prop where
  last : ∀ name ∈ lastNames, (r.byEvent name).getLast?.map ParsedEvent.unplaced =
    (r'.byEvent name).getLast?.map ParsedEvent.unplaced
  start : r.startNote = r'.startNote
  preflight : rulePreflight r = rulePreflight r'
  noEntries : ruleNoEntries py r = ruleNoEntries py r'
  fallback : ruleFirmwareFallback r = ruleFirmwareFallback r'
  skipped : ruleMeasuredSkipped r = ruleMeasuredSkipped r'
  failures : ruleExplicitFailures r = ruleExplicitFailures r'
  measured : measurements py r = measurements py r'

section Congruence

variable {α : Type} {py : Python} {r r' : ParseResult}

lemma exists_of_map_unplaced {o o' : Option ParsedEvent}
    (h : o.map ParsedEvent.unplaced = o'.map ParsedEvent.unplaced) :
    (o = none ∧ o' = none) ∨ ∃ e k, o = some e ∧ o' = some { e with sourceLine := k } := by
  cases o with
  | none =>
    cases o' with
    | none => exact .inl ⟨rfl, rfl⟩
    | some e' => cases h
  | some e =>
    cases o' with
    | none => cases h
    | some e' =>
      refine .inr ⟨e, e'.sourceLine, rfl, ?_⟩
      cases e
      cases e'
      simp only [Option.map_some, ParsedEvent.unplaced, Option.some.injEq,
        ParsedEvent.mk.injEq] at h
      obtain ⟨rfl, rfl, rfl, rfl, rfl, rfl, rfl, rfl, rfl, rfl, -⟩ := h
      rfl

lemma map_eq_of_unplaced {l l' : List ParsedEvent} {f : ParsedEvent → α}
    (hf : ∀ e, f e.unplaced = f e)
    (h : l.map ParsedEvent.unplaced = l'.map ParsedEvent.unplaced) : l.map f = l'.map f := by
  have hmap : ∀ l : List ParsedEvent, (l.map ParsedEvent.unplaced).map f = l.map f := by
    intro l
    rw [map_map]
    exact map_congr_left fun e _ => hf e
  rw [← hmap l, h, hmap l']

namespace SameViews

lemma ruleTrustToken_eq (h : SameViews py r r') : ruleTrustToken r = ruleTrustToken r' := by
  unfold ruleTrustToken ParseResult.findVerifiedLoad
  rcases exists_of_map_unplaced (h.last imageVerified (by decide)) with ⟨h₁, h₂⟩ | ⟨e, k, h₁, h₂⟩
  · rw [h₁, h₂]
  · rw [h₁, h₂]

lemma digestsMatch_eq (h : SameViews py r r') :
    sha256VerifyVsLoadMatch r = sha256VerifyVsLoadMatch r' := by
  unfold sha256VerifyVsLoadMatch ParseResult.findVerifiedLoad ParseResult.findLoadedNative
  rcases exists_of_map_unplaced (h.last imageVerified (by decide)) with ⟨h₁, h₂⟩ | ⟨e, k, h₁, h₂⟩
  · rw [h₁, h₂]
  · rcases exists_of_map_unplaced (h.last "image_loaded_native" (by decide)) with
      ⟨h₃, h₄⟩ | ⟨e', k', h₃, h₄⟩
    · rw [h₁, h₂, h₃, h₄]
    · rw [h₁, h₂, h₃, h₄]

lemma ruleCrashloop_eq (h : SameViews py r r') : ruleCrashloop py r = ruleCrashloop py r' := by
  -- No number is found in a note that is empty, so it does not matter whether there is a start.
  have hnil : ∀ r : ParseResult, r.startNote = [] → ruleCrashloop py r = [] := by
    intro r hr
    unfold ruleCrashloop
    unfold ParseResult.startNote at hr
    cases hfirst : r.first "boot_start" with
    | none => rfl
    | some e =>
      rw [hfirst] at hr
      change e.note = [] at hr
      simp only [hr, searchNumber]
  have hstart := h.start
  unfold ParseResult.startNote at hstart
  cases h₁ : r.first "boot_start" with
  | none =>
    have hr : r.startNote = [] := by rw [ParseResult.startNote, h₁]; rfl
    rw [hnil r hr, hnil r' (h.start ▸ hr)]
  | some e =>
    cases h₂ : r'.first "boot_start" with
    | none =>
      have hr' : r'.startNote = [] := by rw [ParseResult.startNote, h₂]; rfl
      rw [hnil r' hr', hnil r (h.start.trans hr')]
    | some e' =>
      rw [h₁, h₂] at hstart
      have hnote : e.note = e'.note := hstart
      unfold ruleCrashloop
      simp only [h₁, h₂, hnote]

lemma ruleKernelMismatch_eq (h : SameViews py r r') :
    ruleKernelMismatch r = ruleKernelMismatch r' := by
  have hdigest : ∀ name ∈ lastNames,
      ((r.byEvent name).getLast?.map fun e => Json.str e.sha256) =
        (r'.byEvent name).getLast?.map fun e => Json.str e.sha256 := by
    intro name hname
    rcases exists_of_map_unplaced (h.last name hname) with ⟨h₁, h₂⟩ | ⟨e, k, h₁, h₂⟩
    · rw [h₁, h₂]
    · rw [h₁, h₂]
      rfl
  unfold ruleKernelMismatch
  rw [h.digestsMatch_eq]
  simp only [ParseResult.findVerifiedLoad, ParseResult.findLoadedNative,
    hdigest imageVerified (by decide), hdigest "image_loaded_native" (by decide)]

lemma evaluate_eq (h : SameViews py r r') : evaluate py r = evaluate py r' := by
  rw [evaluate, evaluate, h.ruleTrustToken_eq, h.preflight, h.ruleCrashloop_eq, h.noEntries,
    h.fallback, h.skipped, h.ruleKernelMismatch_eq, h.failures]

lemma conclusions_eq (h : SameViews py r r') : conclusions py r = conclusions py r' := by
  have hverified := h.last imageVerified (by decide)
  have hloaded := h.last "image_loaded_native" (by decide)
  have hor : (r.findLoadedNative.or r.findVerifiedLoad).map ParsedEvent.unplaced =
      (r'.findLoadedNative.or r'.findVerifiedLoad).map ParsedEvent.unplaced := by
    rw [Option.map_or, Option.map_or]
    exact congrArg₂ Option.or hloaded hverified
  have hattestation :
      attestation py r = { attestation py r' with sourceSha256 := r.sourceSha256 } := by
    have hstart := h.start
    unfold ParseResult.startNote at hstart
    unfold attestation
    rw [h.measured, hstart]
    rcases exists_of_map_unplaced hor with ⟨h₁, h₂⟩ | ⟨e, k, h₁, h₂⟩
    · rw [h₁, h₂]
    · rw [h₁, h₂]
      rfl
  unfold conclusions
  rw [h.digestsMatch_eq, h.evaluate_eq, hattestation]
  exact congrArg₂ (fun v l => Conclusions.mk v l _ _ _) hverified hloaded

end SameViews

/-! ### What the conclusions tell -/

def plainRules (py : Python) (r : ParseResult) : List (Text × List Finding) :=
  [("boot.preflight_issue", rulePreflight r), ("boot.crashloop", ruleCrashloop py r),
    ("boot.no_entries", ruleNoEntries py r), ("boot.firmware_fallback", ruleFirmwareFallback r),
    ("trust.measured_skipped", ruleMeasuredSkipped r),
    ("audit.kernel_mismatch", ruleKernelMismatch r), ("boot.event_failed", ruleExplicitFailures r)]

lemma evaluate_eq_append (py : Python) (r : ParseResult) :
    evaluate py r = ruleTrustToken r ++ (plainRules py r).flatMap Prod.snd := by
  simp [evaluate, plainRules]

lemma id_of_mem_plainRules {rule : Text × List Finding} (h : rule ∈ plainRules py r) {f : Finding}
    (hf : f ∈ rule.2) : f.id = rule.1 := by
  simp only [plainRules, mem_cons, not_mem_nil, or_false] at h
  rcases h with rfl | rfl | rfl | rfl | rfl | rfl | rfl
  · exact id_of_mem_rulePreflight hf
  · exact id_of_mem_ruleCrashloop hf
  · exact id_of_mem_ruleNoEntries hf
  · exact id_of_mem_ruleFirmwareFallback hf
  · exact id_of_mem_ruleMeasuredSkipped hf
  · exact id_of_mem_ruleKernelMismatch hf
  · exact id_of_mem_ruleExplicitFailures hf

lemma filter_evaluate {id : Text} (hid : id ∉ trustIds) :
    (evaluate py r).filter (·.id = id) =
      ((plainRules py r).filter (·.1 = id)).flatMap Prod.snd := by
  have htrust : (ruleTrustToken r).filter (·.id = id) = [] := by
    refine filter_eq_nil_iff.mpr fun f hf heq => hid ?_
    rw [← of_decide_eq_true heq]
    exact id_of_mem_ruleTrustToken hf
  have hrules : ∀ rules : List (Text × List Finding),
      (∀ rule ∈ rules, ∀ f ∈ rule.2, f.id = rule.1) →
        (rules.flatMap Prod.snd).filter (·.id = id) =
          (rules.filter (·.1 = id)).flatMap Prod.snd := by
    intro rules h
    induction rules with
    | nil => rfl
    | cons rule rules ih =>
      have hrule := h rule mem_cons_self
      rw [flatMap_cons, filter_append,
        ih fun rule' hmem => h rule' (mem_cons_of_mem rule hmem), filter_cons]
      by_cases heq : rule.1 = id
      · rw [filter_eq_self.mpr fun f hf => by simp [hrule f hf, heq], if_pos (by simpa)]
        rfl
      · rw [filter_eq_nil_iff.mpr fun f hf => by simp [hrule f hf, heq], if_neg (by simpa)]
        rfl
  rw [evaluate_eq_append, filter_append, htrust, nil_append,
    hrules _ fun rule hrule f hf => id_of_mem_plainRules hrule hf]

lemma rule_eq_of_evaluate_eq (h : evaluate py r = evaluate py r') (id : Text)
    {findings findings' : List Finding} (hid : id ∉ trustIds)
    (hrule : (plainRules py r).filter (·.1 = id) = [(id, findings)])
    (hrule' : (plainRules py r').filter (·.1 = id) = [(id, findings')]) :
    findings = findings' := by
  have hfilter := congrArg (List.filter (·.id = id)) h
  rwa [filter_evaluate hid, filter_evaluate hid, hrule, hrule', flatMap_singleton,
    flatMap_singleton] at hfilter

lemma conclusions_eq_iff : conclusions py r = conclusions py r' ↔ SameViews py r r' := by
  refine ⟨fun h => ?_, SameViews.conclusions_eq⟩
  have hfindings : evaluate py r = evaluate py r' := congrArg Conclusions.findings h
  have hattestation := congrArg Conclusions.attestation h
  refine ⟨fun name hname => ?_, congrArg Attestation.boot hattestation,
    rule_eq_of_evaluate_eq hfindings "boot.preflight_issue" (by decide) rfl rfl,
    rule_eq_of_evaluate_eq hfindings "boot.no_entries" (by decide) rfl rfl,
    rule_eq_of_evaluate_eq hfindings "boot.firmware_fallback" (by decide) rfl rfl,
    rule_eq_of_evaluate_eq hfindings "trust.measured_skipped" (by decide) rfl rfl,
    rule_eq_of_evaluate_eq hfindings "boot.event_failed" (by decide) rfl rfl,
    congrArg Attestation.measurements hattestation⟩
  simp only [lastNames, mem_cons, not_mem_nil, or_false] at hname
  rcases hname with rfl | rfl
  · exact congrArg Conclusions.verified h
  · exact congrArg Conclusions.loaded h

end Congruence

end LamBoot.Inspect
