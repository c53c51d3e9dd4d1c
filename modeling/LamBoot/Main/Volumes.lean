import LamBoot.Main.Loop

/-!
# Volumes along the menu loop

Entries name the volume they were found on by its index. After a tool has returned, the loop takes
its volumes back with `swap_remove`, which puts the last volume in the place of the first extra
one: from then on the indices of the entries name other volumes.
-/

namespace LamBoot

open List Text Traced

/-- The volumes are in their places. -/
def LoopState.KeepsVolumes (n : Nat) (s : LoopState) : Prop :=
  ∀ i ≤ n, s.volumes[i]? = some i

lemma LoopState.keepsVolumes_discovered (n : Nat) (inCrashLoop : Bool) (nvram : Nvram) :
    (LoopState.discovered n inCrashLoop nvram).KeepsVolumes n := by
  intro i hi
  cases i with
  | zero => rfl
  | succ i =>
    change (range' 1 n)[i]? = some (i + 1)
    rw [getElem?_range' (by omega), Nat.one_mul, Nat.add_comm]

namespace LoopConfig

variable (cfg : LoopConfig) (w : World) (s : LoopState)

/-- A tool is started and returns. -/
def ToolReturns : Prop :=
  ∃ selection, cfg.selection w s = some selection ∧ selection.icon = .tools ∧
    w.writeBootReport = .ok () ∧
    (cfg.attempt w s selection).result ≠ .error .handedOver

variable {cfg w s}

lemma ToolReturns.ending (h : cfg.ToolReturns w s) :
    ∃ s', (cfg.pass w s).ending = .again s' ∧
      s'.volumes = s.esp :: (swapRemoveFirst s.esp s.extraVolumes).2 := by
  obtain ⟨selection, hsel, htool, hreport, hresult⟩ := h
  obtain ⟨before, nv, -, -, hpass⟩ := pass_of_selection hsel hreport
  have hesp : (swapRemoveFirst s.esp s.extraVolumes).1 = s.esp := by
    unfold swapRemoveFirst
    split <;> rfl
  refine ⟨⟨_, (swapRemoveFirst s.esp s.extraVolumes).2, false, nv⟩, ?_,
    congrArg (· :: (swapRemoveFirst s.esp s.extraVolumes).2) hesp⟩
  rw [hpass]
  unfold finish
  cases hr : (cfg.attempt w s selection).result with
  | ok status =>
    dsimp only
    rw [if_pos htool]
    rfl
  | error e =>
    cases e with
    | handedOver => exact absurd hr hresult
    | error status =>
      dsimp only
      rw [if_pos htool]
      rfl

lemma ending_ne_again (h : ¬ cfg.ToolReturns w s) (s' : LoopState) :
    (cfg.pass w s).ending ≠ .again s' := by
  by_cases hattempt : ∃ selection, cfg.selection w s = some selection ∧
      w.writeBootReport = .ok ()
  · obtain ⟨selection, hsel, hreport⟩ := hattempt
    obtain ⟨before, nv, -, -, hpass⟩ := pass_of_selection hsel hreport
    rw [hpass]
    unfold finish
    cases hr : (cfg.attempt w s selection).result with
    | error e =>
      cases e with
      | handedOver => exact nofun
      | error status =>
        have htool : selection.icon ≠ .tools := fun htool =>
          h ⟨selection, hsel, htool, hreport, by rw [hr]; exact nofun⟩
        dsimp only
        rw [if_neg htool]
        exact nofun
    | ok status =>
      have htool : selection.icon ≠ .tools := fun htool =>
        h ⟨selection, hsel, htool, hreport, by rw [hr]; exact nofun⟩
      dsimp only
      rw [if_neg htool]
      exact nofun
  · refine (cfg.pass_of_no_attempt w s fun selection hsel hreport => ?_).2 s'
    exact hattempt ⟨selection, hsel, hreport⟩

lemma passes_of_again {s' : LoopState} (ws : List World)
    (h : (cfg.pass w s).ending = .again s') :
    cfg.passes s (w :: ws) = (s, w) :: cfg.passes s' ws := by
  rw [passes, h]

lemma passes_of_not_toolReturns (ws : List World) (h : ¬ cfg.ToolReturns w s) :
    cfg.passes s (w :: ws) = [(s, w)] := by
  rw [passes]
  split
  · next s' hs' => exact absurd hs' (ending_ne_again h s')
  · rfl

lemma passes_singleton (w : World) (s : LoopState) : cfg.passes s [w] = [(s, w)] := by
  by_cases h : cfg.ToolReturns w s
  · obtain ⟨s', hs', -⟩ := h.ending
    rw [passes_of_again [] hs', passes]
  · exact passes_of_not_toolReturns [] h

/-! ### The positions of the volumes -/

lemma swapRemoveFirst_of_length_le_one {a : Nat} {as : List Nat} (h : as.length ≤ 1) :
    (swapRemoveFirst a as).2 = as := by
  match as, h with
  | [], _ => rfl
  | [b], _ => rfl

lemma getElem?_swapRemoveFirst {a n : Nat} (h : 2 ≤ n) :
    (a :: (swapRemoveFirst a (range' 1 n)).2)[1]? = some n := by
  have hlast : (range' 1 n).getLast? = some n := by
    rw [getLast?_range', if_neg (by omega)]
    congr 1
    omega
  unfold swapRemoveFirst
  rw [hlast]
  rfl

variable (cfg) in
lemma volumes_of_length_le_one (s : LoopState) (ws : List World)
    (h : s.extraVolumes.length ≤ 1) :
    ∀ p ∈ cfg.passes s ws, p.1.volumes = s.volumes := by
  induction ws generalizing s with
  | nil => simp [passes]
  | cons w ws ih =>
    intro p hp
    by_cases htool : cfg.ToolReturns w s
    · obtain ⟨s', hs', hvolumes⟩ := htool.ending
      rw [swapRemoveFirst_of_length_le_one h] at hvolumes
      have hextra : s'.extraVolumes = s.extraVolumes := (cons.inj hvolumes).2
      rw [passes_of_again ws hs'] at hp
      rcases mem_cons.mp hp with rfl | hp
      · rfl
      · rw [ih s' (by rw [hextra]; exact h) p hp]
        exact hvolumes
    · rw [passes_of_not_toolReturns ws htool, mem_singleton] at hp
      rw [hp]

variable (cfg) in
/-- Along every run the volumes keep their positions exactly where there is at most one beside the
ESP, or no tool returns from the first pass. -/
theorem volumes_kept_iff (n : Nat) (inCrashLoop : Bool) (nvram : Nvram) (ws : List World) :
    (∀ p ∈ cfg.passes (.discovered n inCrashLoop nvram) ws, p.1.KeepsVolumes n) ↔
      n ≤ 1 ∨ ∀ w w' rest, ws = w :: w' :: rest →
        ¬ cfg.ToolReturns w (.discovered n inCrashLoop nvram) := by
  have hinit := LoopState.keepsVolumes_discovered n inCrashLoop nvram
  constructor
  · intro hkeeps
    by_contra hn
    push Not at hn
    obtain ⟨htwo, w, w', rest, rfl, htool⟩ := hn
    obtain ⟨s', hs', hvolumes⟩ := htool.ending
    have hmem : (s', w') ∈ cfg.passes (.discovered n inCrashLoop nvram) (w :: w' :: rest) := by
      rw [passes_of_again _ hs']
      simp [passes]
    have hone : s'.volumes[1]? = some 1 := hkeeps _ hmem 1 (by omega)
    rw [hvolumes, show (LoopState.discovered n inCrashLoop nvram).extraVolumes =
      range' 1 n from rfl, getElem?_swapRemoveFirst htwo] at hone
    have := Option.some.inj hone
    omega
  · rintro (hle | hlast) p hp
    · have hvolumes := cfg.volumes_of_length_le_one (.discovered n inCrashLoop nvram) ws
        (by simpa [LoopState.discovered] using hle) p hp
      intro i hi
      rw [hvolumes]
      exact hinit i hi
    · -- the only pass finds the state of the discovery
      match ws, hlast with
      | [], _ => simp [passes] at hp
      | [w], _ =>
        rw [passes_singleton, mem_singleton] at hp
        rw [hp]
        exact hinit
      | w :: w' :: rest, hlast =>
        rw [passes_of_not_toolReturns _ (hlast w w' rest rfl), mem_singleton] at hp
        rw [hp]
        exact hinit

end LoopConfig

/-- With two volumes beside the ESP, the first pass that follows a tool finds them exchanged, and
takes the second for the first. -/
theorem volumes_exchanged :
    let passes := LoopConfig.default.passes (.discovered 2 false .blank)
      [.accepting toolEntry (some .success), .accepting kernelEntry (some .success)]
    passes.map (·.1.volumes) = [[0, 1, 2], [0, 2, 1]] ∧
      passes.map (·.1.sourceVolume 1) = [1, 2] := by
  decide +kernel

end LamBoot
