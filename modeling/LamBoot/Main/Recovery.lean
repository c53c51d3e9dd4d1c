import LamBoot.Main.Loop
import LamBoot.Menu.Timeout
import LamBoot.Policy.Toml

/-!
# Recovery from a crash loop

What a machine that nobody attends comes to after boots that fail one after another. The threshold
is taken from a file on the ESP, but not above a ceiling, and the counter lags at most one boot
behind the failures.
-/

namespace LamBoot

open List Text Option

/-! ### A crash loop is noticed -/

/-- The policy a boot runs under: the defaults, where the file cannot be read. -/
def policyInForce (lower : Lowercase) (esp : Volume) : Policy :=
  match loadPolicy lower esp with
  | .ok (policy, _) => policy
  | .error _ => {}

lemma crashThreshold_applyPolicyFloor (policy : Policy) :
    (applyPolicyFloor policy).1.crashThreshold ≤ maxCrashThreshold := by
  simp only [applyPolicyFloor]
  split_ifs with hcrash
  · exact UInt8.le_refl _
  · exact UInt8.not_lt.mp hcrash

lemma crashThreshold_policyInForce (lower : Lowercase) (esp : Volume) :
    (policyInForce lower esp).crashThreshold ≤ maxCrashThreshold := by
  unfold policyInForce
  split
  · next policy clamps h =>
    unfold loadPolicy at h
    cases hread : (esp.readToStringStr "/EFI/LamBoot/policy.toml").mapError
        FsError.toUefiStatus with
    | error e =>
      rw [hread] at h
      cases h
    | ok content =>
      rw [hread] at h
      cases h
      exact crashThreshold_applyPolicyFloor _
  · decide

/-- The counter that the next boot will write is at most one behind the failures. -/
structure Behind (nv : Nvram) (t : Tally) : Prop where
  known : getVmgenid nv = t.known
  counter : min 255 t.failures ≤ (nextCounter nv).toNat + 1

section Counter

variable {nv : Nvram} {t : Tally}

lemma Behind.assess (h : Behind nv t) (b : Boot) :
    min 255 (t.before b) ≤ (getCrashCounter (b.assess nv).2).toNat + 1 := by
  rw [getCrashCounter_assess]
  cases hc : b.changed t.known with
  | true => simp [Tally.before, hc]
  | false =>
    rw [Boot.assess_of_unchanged (h.known ▸ hc), Tally.before, hc]
    exact h.counter

lemma Behind.step (h : Behind nv t) (b : Boot) : Behind (b.leaves nv) (t.after b) := by
  cases hc : b.changed t.known with
  | true =>
    -- a new generation starts from zero, and the boot itself is one failure at most
    obtain ⟨genid, hg, ha⟩ := Boot.assess_of_changed (h.known ▸ hc)
    cases hm : b.marked <;>
      exact ⟨by simp [Boot.leaves, hm, ha, Tally.after, hc, hg],
        by simp [Tally.after, hm, Tally.before, hc]⟩
  | false =>
    have ha := Boot.assess_of_unchanged (h.known ▸ hc)
    cases hm : b.marked with
    | true =>
      exact ⟨by simp [Boot.leaves, hm, ha, Tally.after, hc, h.known], by simp [Tally.after, hm]⟩
    | false =>
      refine ⟨by simp [Boot.leaves, hm, ha, Tally.after, hc, h.known], ?_⟩
      have hcounter := h.counter
      have hnext : (nextCounter (b.leaves nv)).toNat = min 255 ((nextCounter nv).toNat + 1) := by
        have hle := (nextCounter nv).toNat_lt
        have hadd : (saturatingAdd (nextCounter nv) 1).toNat =
            min 255 ((nextCounter nv).toNat + 1) := toNat_saturatingAdd_one (by omega)
        simpa [Boot.leaves, hm, ha, nextCounter] using hadd
      rw [hnext]
      simp only [Tally.after, hm, Tally.before, hc, Bool.false_eq_true, if_false]
      omega

lemma Behind.forall₂ (h : Behind nv t) (history : List Boot) :
    Forall₂ (fun a n => min 255 n ≤ (getCrashCounter a.2).toNat + 1) (assessments nv history)
      (consecutiveFailures t history) := by
  induction history generalizing nv t with
  | nil => exact .nil
  | cons b bs ih => exact .cons (h.assess b) (ih (h.step b))

end Counter

/-- Whatever the policy file holds, and whichever generation ids are seen, a boot after more than
ten failures in a row is known to be in a crash loop. -/
theorem crashLoop_of_failures (lower : Lowercase) (esp : Volume) (history : List Boot) :
    Forall₂ (fun a n => maxCrashThreshold.toNat < n →
        isCrashLoop (policyInForce lower esp).crashThreshold a.2 = true)
      (assessments .blank history) (consecutiveFailures {} history) := by
  have hblank : Behind .blank {} := ⟨rfl, Nat.zero_le _⟩
  refine (hblank.forall₂ history).imp fun a n hcounter hn => ?_
  have hceiling := UInt8.le_iff_toNat_le.mp (crashThreshold_policyInForce lower esp)
  have hten : maxCrashThreshold.toNat = 10 := rfl
  rw [isCrashLoop, decide_eq_true_iff, UInt8.le_iff_toNat_le]
  omega

/-! ### What is booted then -/

open Menu

/-- Nobody touches the keyboard or the mouse: the menu that is shown starts what it starts when the
time is up. -/
def World.LeftAlone (w : World) (lower : Lowercase) (entries : List BootEntry) : Prop :=
  (∃ width height, ∀ policy i,
    AutoBoots (GuiState.turn lower entries policy) (.new width height) i →
      w.menu policy = .ok (entries.get i)) ∨
  ∀ policy i, AutoBoots (TextState.turn lower entries policy) {} i →
    w.menu policy = .ok (entries.get i)

section Recovery

variable {lower : Lowercase} {entries : List BootEntry} {entry : BootEntry}

lemma selectDefaultEntry_recoveryPolicy (lower : Lowercase) (policy : Policy)
    {eligible : List (Fin entries.length)} {i : Fin entries.length} (hi : i ∈ eligible) :
    ∃ j, selectDefaultEntry lower entries eligible (recoveryPolicy policy (entries.get i)) =
        some j ∧ (entries.get j).id = (entries.get i).id := by
  have hnot : ∀ k ∈ eligible,
      ¬ MatchesPattern lower entries (recoveryPolicy policy (entries.get i)) k := by
    rintro _ - ⟨_, hpattern, -⟩
    cases hpattern
  obtain ⟨j, hj, hfirst⟩ := selectDefaultEntry_of_isDefaultEntry hnot ⟨i, hi, rfl⟩
  exact ⟨j, hj, (some.inj hfirst.prop).symm⟩

lemma World.LeftAlone.menu_recoveryPolicy {w : World} (hw : w.LeftAlone lower entries)
    (policy : Policy) (hmem : entry ∈ entries) (hicon : entry.icon ≠ .tools) :
    ∃ i : Fin entries.length, w.menu (recoveryPolicy policy entry) = .ok (entries.get i) ∧
      (entries.get i).id = entry.id := by
  obtain ⟨k, rfl⟩ : ∃ k : Fin entries.length, entries.get k = entry := by
    obtain ⟨n, hn, hentry⟩ := getElem_of_mem hmem
    exact ⟨⟨n, hn⟩, hentry⟩
  have hboot : bootIndices entries ≠ [] := bootIndices_ne_nil_iff.mpr ⟨_, hmem, hicon⟩
  have htime : (recoveryPolicy policy (entries.get k)).defaultTimeoutMs = 8000 := rfl
  have htimeout : (recoveryPolicy policy (entries.get k)).defaultTimeoutMs ≠ 0 := htime ▸ by decide
  rcases hw with ⟨width, height, hgui⟩ | htext
  · obtain ⟨i, hi, hid⟩ :=
      selectDefaultEntry_recoveryPolicy lower policy (mem_bootIndices.mpr hicon)
    have hauto : GuiState.autoEntry lower entries (recoveryPolicy policy (entries.get k)) =
        some i := by
      rw [GuiState.autoEntry, hi]
      rfl
    refine ⟨i, hgui _ i ?_, hid⟩
    exact (gui_countsFrames hboot htimeout hauto).autoBoots ⟨rfl, rfl⟩ rfl
      (exists_frames_sixteen_iff.mpr (htime ▸ by decide))
  · obtain ⟨i, hi, hid⟩ := selectDefaultEntry_recoveryPolicy lower policy (mem_finRange k)
    have hauto : TextState.autoIndex lower entries (recoveryPolicy policy (entries.get k)) {} =
        i := by
      rw [TextState.autoIndex, hi]
    refine ⟨i, htext _ i ?_, hid⟩
    exact (text_countsFrames hboot htimeout hauto).autoBoots ⟨rfl, rfl⟩ rfl
      (exists_frames_hundred (htime ▸ by decide))

lemma mem_of_selectCrashRecoveryEntry (h : selectCrashRecoveryEntry entries = some entry) :
    entry ∈ entries ∧ entry.icon ≠ .tools := by
  rcases or_eq_some_iff.mp h with h | ⟨-, h⟩
  · have hprop := find?_some h
    simp only [decide_eq_true_eq] at hprop
    exact ⟨mem_of_find?_eq_some h, hprop.1⟩
  · exact ⟨mem_of_find?_eq_some h, by simpa using find?_some h⟩

end Recovery

namespace LoopConfig

def recoverable : LoopConfig :=
  { LoopConfig.default with
    entries := [toolEntry, { entryWithIcon "broken" .linux with preflight := some .error },
      entryWithIcon "linux" .linux] }

end LoopConfig

end LamBoot
