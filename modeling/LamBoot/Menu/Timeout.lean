import LamBoot.Menu.Console
import LamBoot.Menu.Gui

/-!
# The entry that is started when the time is up

The graphical menu looks for the default among the boot entries and falls back on the first of them;
the text menu looks among all entries and falls back on the first entry of the list.
-/

namespace LamBoot.Menu

open List Text

/-! ### Counting frames -/

section Frames

variable {σ : Type} {n : Nat} {turn : σ → InputEvent → Outcome σ n} {frames : σ → UInt32}
  {idle : σ → Prop} {k timeout : UInt32} {i : Fin n}

/-- A loop that counts frames while no input arrives, and starts an entry once the frames have
taken the time. -/
structure CountsFrames (turn : σ → InputEvent → Outcome σ n) (frames : σ → UInt32)
    (idle : σ → Prop) (k timeout : UInt32) (i : Fin n) : Prop where
  boot : ∀ s, idle s → timeout ≤ frames s * k → turn s .none = .boot i
  count : ∀ s, idle s → ¬ timeout ≤ frames s * k →
    ∃ s', turn s .none = .stay s' ∧ idle s' ∧ frames s' = frames s + 1

lemma CountsFrames.stay (h : CountsFrames turn frames idle k timeout i) {s : σ} (hs : idle s)
    (turns : Nat) (hwait : ∀ m < turns, ¬ timeout ≤ (frames s + UInt32.ofNat m) * k) :
    ∃ s', (∀ events, run turn s (replicate turns .none ++ events) = run turn s' events) ∧
      idle s' ∧ frames s' = frames s + UInt32.ofNat turns := by
  induction turns with
  | zero => exact ⟨s, fun events => rfl, hs, by simp⟩
  | succ turns ih =>
    obtain ⟨s', hrun, hs', hframes⟩ := ih fun m hm => hwait m (Nat.lt_succ_of_lt hm)
    obtain ⟨s'', hturn, hs'', hframes'⟩ := h.count s' hs' (by
      rw [hframes]
      exact hwait turns (Nat.lt_succ_self turns))
    refine ⟨s'', fun events => ?_, hs'', ?_⟩
    · rw [replicate_succ', append_assoc, hrun, singleton_append, run_cons_of_stay hturn]
    · rw [hframes', hframes, UInt32.add_assoc, UInt32.ofNat_add]
      rfl

lemma CountsFrames.autoBoots (h : CountsFrames turn frames idle k timeout i) {s : σ} (hs : idle s)
    (hzero : frames s = 0) (hex : ∃ m : Nat, timeout ≤ UInt32.ofNat m * k) :
    AutoBoots turn s i := by
  have hstart : ∀ m : Nat, frames s + UInt32.ofNat m = UInt32.ofNat m := by
    intro m
    rw [hzero, UInt32.zero_add]
  obtain ⟨s', hstay, hs', hframes⟩ := h.stay hs (Nat.find hex) fun m hm => by
    rw [hstart]
    exact Nat.find_min hex hm
  have hboot : turn s' .none = .boot i := by
    refine h.boot s' hs' ?_
    rw [hframes, hstart]
    exact Nat.find_spec hex
  refine ⟨Nat.find hex + 1, ?_⟩
  rw [replicate_succ', hstay]
  exact run_cons_of_boot hboot []

lemma CountsFrames.autoBoots_iff (h : CountsFrames turn frames idle k timeout i) {s : σ}
    (hs : idle s) (hzero : frames s = 0) {j : Fin n} :
    AutoBoots turn s j ↔ j = i ∧ ∃ m : Nat, timeout ≤ UInt32.ofNat m * k := by
  constructor
  · intro hj
    have hex : ∃ m : Nat, timeout ≤ UInt32.ofNat m * k := by
      by_contra hnot
      obtain ⟨turns, hrun⟩ := hj
      obtain ⟨s', hstay, -⟩ := h.stay hs turns fun m _ hm => hnot ⟨m, by
        rwa [hzero, UInt32.zero_add] at hm⟩
      have hend := hstay []
      rw [append_nil, hrun] at hend
      cases hend
    exact ⟨hj.unique (h.autoBoots hs hzero hex), hex⟩
  · rintro ⟨rfl, hex⟩
    exact h.autoBoots hs hzero hex

end Frames

lemma exists_frames_sixteen_iff {timeout : UInt32} :
    (∃ m : Nat, timeout ≤ UInt32.ofNat m * 16) ↔ timeout.toNat ≤ 2 ^ 32 - 16 := by
  constructor
  · rintro ⟨m, hm⟩
    have hle := UInt32.le_iff_toNat_le.mp hm
    rw [UInt32.toNat_mul] at hle
    have h16 : (16 : UInt32).toNat = 16 := rfl
    rw [h16] at hle
    omega
  · intro h
    refine ⟨2 ^ 28 - 1, UInt32.le_iff_toNat_le.mpr ?_⟩
    have hmax : (UInt32.ofNat (2 ^ 28 - 1) * 16).toNat = 2 ^ 32 - 16 := by decide
    rwa [hmax]

lemma exists_frames_hundred {timeout : UInt32} (h : timeout.toNat ≤ 2 ^ 32 - 4) :
    ∃ m : Nat, timeout ≤ UInt32.ofNat m * 100 := by
  refine ⟨1030792151, UInt32.le_iff_toNat_le.mpr ?_⟩
  have hmax : (UInt32.ofNat 1030792151 * 100).toNat = 2 ^ 32 - 4 := by decide
  rwa [hmax]

/-! ### The menus -/

section Menus

variable {lower : Lowercase} {entries : List BootEntry} {policy : Policy}

lemma hasBootable_iff : TextState.hasBootable entries = true ↔ bootIndices entries ≠ [] := by
  rw [bootIndices_ne_nil_iff, TextState.hasBootable, any_eq_true]
  simp

def GuiState.Idle (s : GuiState) : Prop :=
  s.userInteracted = false ∧ s.timedOut = false

lemma gui_countsFrames (hboot : bootIndices entries ≠ []) {i : Fin entries.length}
    (htimeout : policy.defaultTimeoutMs ≠ 0)
    (hi : GuiState.autoEntry lower entries policy = some i) :
    CountsFrames (GuiState.turn lower entries policy) GuiState.elapsedFrames GuiState.Idle 16
      policy.defaultTimeoutMs i := by
  have htime : GuiState.timeoutMs entries policy = policy.defaultTimeoutMs := if_neg hboot
  have hpos : policy.defaultTimeoutMs > 0 := UInt32.pos_iff_ne_zero.mpr htimeout
  constructor
  · rintro s ⟨hinput, hidle⟩ hup
    have htimed : (s.ready entries policy).timedOut = true := by
      simp [GuiState.ready_timedOut, htime, hinput, hpos, hup]
    simp only [GuiState.turn, GuiState.ready_userInteracted, hinput, htimed, hi]
    rfl
  · rintro s ⟨hinput, hidle⟩ hwait
    have htimed : (s.ready entries policy).timedOut = false := by
      simp [GuiState.ready_timedOut, htime, hinput, hidle, hwait]
    refine ⟨{ s.ready entries policy with elapsedFrames := s.elapsedFrames + 1 }, ?_,
      ⟨by simp [hinput], by simp [htimed]⟩, rfl⟩
    simp [GuiState.turn, htimed, GuiState.onEvent]

lemma text_countsFrames (hboot : bootIndices entries ≠ []) {i : Fin entries.length}
    (htimeout : policy.defaultTimeoutMs ≠ 0)
    (hi : TextState.autoIndex lower entries policy {} = i) :
    CountsFrames (TextState.turn lower entries policy) TextState.elapsedFrames
      (fun s => s.userInteracted = false ∧ s.selectedIndex = 0) 100 policy.defaultTimeoutMs i := by
  have hbootable : TextState.hasBootable entries = true := hasBootable_iff.mpr hboot
  have htime : TextState.timeoutMs entries policy = policy.defaultTimeoutMs := if_pos hbootable
  have hpos : policy.defaultTimeoutMs > 0 := UInt32.pos_iff_ne_zero.mpr htimeout
  constructor
  · rintro s ⟨hinput, hindex⟩ hup
    have hauto : s.autoIndex lower entries policy = i := by
      rw [← hi, TextState.autoIndex, TextState.autoIndex, hindex]
    have hup' : s.elapsedFrames * 100 ≥ policy.defaultTimeoutMs := hup
    simp only [TextState.turn, htime, hinput, hpos, hup', hbootable, hauto, i.isLt]
    simp
  · rintro s ⟨hinput, hindex⟩ hwait
    have hwait' : ¬ s.elapsedFrames * 100 ≥ policy.defaultTimeoutMs := hwait
    refine ⟨{ s with elapsedFrames := s.elapsedFrames + 1 }, ?_, ⟨hinput, hindex⟩, rfl⟩
    simp only [TextState.turn, htime, hwait', false_and, and_false, if_false, TextState.onEvent]

variable (lower policy) in
lemma exists_autoEntry (hboot : bootIndices entries ≠ []) :
    ∃ i, GuiState.autoEntry lower entries policy = some i := by
  obtain ⟨i, rest, hi⟩ := exists_cons_of_ne_nil hboot
  rw [← Option.isSome_iff_exists, GuiState.autoEntry, hi]
  simp

end Menus

/-! ### The default among all entries -/

section AllEntries

variable (lower : Lowercase) (entries : List BootEntry) (policy : Policy)

/-- The default among all entries is no tool: neither the first greatest match of the pattern, nor
else the first that is named, nor else the first entry. -/
structure DefaultIsNoTool : Prop where
  pattern : ∀ i, FirstIn (finRange entries.length)
    (MaximalMatch lower entries (finRange entries.length) policy) i →
      (entries.get i).icon ≠ .tools
  entry : (∀ i, ¬ MatchesPattern lower entries policy i) →
    ∀ i, FirstIn (finRange entries.length) (IsDefaultEntry entries policy) i →
      (entries.get i).icon ≠ .tools
  first : (∀ i, ¬ MatchesPattern lower entries policy i) →
    (∀ i, ¬ IsDefaultEntry entries policy i) →
      ∀ entry, entries.head? = some entry → entry.icon ≠ .tools

variable {lower entries policy} {j : Fin entries.length}

lemma firstIn_bootIndices_of_maximalMatch
    (hj : FirstIn (finRange entries.length)
      (MaximalMatch lower entries (finRange entries.length) policy) j)
    (hicon : (entries.get j).icon ≠ .tools) :
    FirstIn (bootIndices entries)
      (MaximalMatch lower entries (bootIndices entries) policy) j := by
  obtain ⟨hmatch, hmax⟩ := hj.prop
  refine hj.filter (by simpa using hicon)
    ⟨hmatch, fun k _ hk => hmax k (mem_finRange k) hk⟩ fun b hb hbboot hbmax => ?_
  -- An earlier entry that matches is below some entry, hence below this one.
  obtain ⟨hbmatch, hbmax⟩ := hbmax
  have hle : versionCompareStr (entries.get j).id (entries.get b).id ≠ .gt :=
    hbmax j (mem_bootIndices.mpr hicon) hmatch
  refine hb ⟨hbmatch, fun k hk hkmatch hgt => hle ?_⟩
  have hkj : (versionCompareStr (entries.get k).id (entries.get j).id).isLE = true :=
    Ordering.ne_gt_iff_isLE.mp (hmax k hk hkmatch)
  have hbk : versionCompareStr (entries.get b).id (entries.get k).id = .lt :=
    Std.OrientedCmp.gt_iff_lt.mp hgt
  exact Std.OrientedCmp.gt_iff_lt.mpr (Std.TransCmp.lt_of_lt_of_isLE hbk hkj)

lemma firstIn_bootIndices_of_isDefaultEntry
    (hj : FirstIn (finRange entries.length) (IsDefaultEntry entries policy) j)
    (hicon : (entries.get j).icon ≠ .tools) :
    FirstIn (bootIndices entries) (IsDefaultEntry entries policy) j :=
  hj.filter (by simpa using hicon) hj.prop fun b hb _ => hb

lemma exists_mem_bootIndices {p : Fin entries.length → Prop} (hj : p j)
    (hicon : (entries.get j).icon ≠ .tools) : ∃ i ∈ bootIndices entries, p i :=
  ⟨j, mem_bootIndices.mpr hicon, hj⟩

variable (lower policy) in
lemma autoIndex_spec (hne : entries ≠ []) :
    ∃ j : Fin entries.length, TextState.autoIndex lower entries policy {} = j ∧
      ((entries.get j).icon ≠ .tools ↔ DefaultIsNoTool lower entries policy) ∧
      ((entries.get j).icon ≠ .tools → GuiState.autoEntry lower entries policy = some j) := by
  by_cases hmatch : ∃ i ∈ finRange entries.length, MatchesPattern lower entries policy i
  · obtain ⟨j, hj, hfirst⟩ := selectDefaultEntry_of_matches hmatch
    refine ⟨j, by rw [TextState.autoIndex, hj], ⟨fun hicon => ?_, fun h => h.pattern j hfirst⟩,
      fun hicon => ?_⟩
    · obtain ⟨i, -, hi⟩ := hmatch
      exact ⟨fun k hk => hk.unique hfirst ▸ hicon, fun hnot => absurd hi (hnot i),
        fun hnot => absurd hi (hnot i)⟩
    · have hboot := firstIn_bootIndices_of_maximalMatch hfirst hicon
      obtain ⟨i, hi, hfirst'⟩ := selectDefaultEntry_of_matches
        (exists_mem_bootIndices hfirst.prop.1 hicon)
      rw [GuiState.autoEntry, hi, hfirst'.unique hboot]
      rfl
  · have hnot : ∀ i, ¬ MatchesPattern lower entries policy i := fun i hi =>
      hmatch ⟨i, mem_finRange i, hi⟩
    have hpattern : ∀ i, ¬ FirstIn (finRange entries.length)
        (MaximalMatch lower entries (finRange entries.length) policy) i := fun i hi =>
      hnot i hi.prop.1
    by_cases hdefault : ∃ i ∈ finRange entries.length, IsDefaultEntry entries policy i
    · obtain ⟨j, hj, hfirst⟩ := selectDefaultEntry_of_isDefaultEntry (fun i _ => hnot i) hdefault
      refine ⟨j, by rw [TextState.autoIndex, hj], ⟨fun hicon => ?_, fun h => h.entry hnot j hfirst⟩,
        fun hicon => ?_⟩
      · exact ⟨fun i hi => absurd hi (hpattern i), fun _ k hk => hk.unique hfirst ▸ hicon,
          fun _ hnone => absurd hfirst.prop (hnone j)⟩
      · have hboot := firstIn_bootIndices_of_isDefaultEntry hfirst hicon
        obtain ⟨i, hi, hfirst'⟩ := selectDefaultEntry_of_isDefaultEntry
          (fun i _ => hnot i) (exists_mem_bootIndices hfirst.prop hicon)
        rw [GuiState.autoEntry, hi, hfirst'.unique hboot]
        rfl
    · have hnone : ∀ i, ¬ IsDefaultEntry entries policy i := fun i hi =>
        hdefault ⟨i, mem_finRange i, hi⟩
      have hselect : ∀ eligible, selectDefaultEntry lower entries eligible policy = none :=
        fun eligible => selectDefaultEntry_eq_none (fun i _ => hnot i) fun i _ => hnone i
      obtain ⟨first, rest, rfl⟩ := exists_cons_of_ne_nil hne
      refine ⟨⟨0, Nat.succ_pos _⟩, by rw [TextState.autoIndex, hselect],
        ⟨fun hicon => ?_, fun h => h.first hnot hnone first rfl⟩, fun hicon => ?_⟩
      · refine ⟨fun i hi => absurd hi (hpattern i), fun _ k hk => absurd hk.prop (hnone k), ?_⟩
        rintro _ _ _ ⟨⟩
        exact hicon
      · have hrange : finRange (first :: rest).length =
            ⟨0, Nat.succ_pos _⟩ :: (finRange rest.length).map Fin.succ :=
          finRange_succ
        rw [GuiState.autoEntry, hselect, Option.none_or, bootIndices, hrange,
          filter_cons_of_pos (by simpa using hicon)]
        rfl

end AllEntries

/-- Both menus start the same entry when the time is up, and it is no tool. -/
def SameAutoBoot (lower : Lowercase) (entries : List BootEntry) (policy : Policy)
    (width height : Nat) : Prop :=
  ∃ i j : Fin entries.length,
    AutoBoots (GuiState.turn lower entries policy) (.new width height) i ∧
    AutoBoots (TextState.turn lower entries policy) {} j ∧
    entries.get i = entries.get j ∧ (entries.get i).icon ≠ .tools

/-- **The entry that is started when the time is up.** Both menus start the same entry, which is no
tool, exactly if the default among all entries is none and frames of 16 milliseconds can reach the
time in 32 bits. -/
theorem sameAutoBoot_iff (lower : Lowercase) (entries : List BootEntry) (policy : Policy)
    (width height : Nat) (hboot : ∃ entry ∈ entries, entry.icon ≠ .tools)
    (htimeout : policy.defaultTimeoutMs ≠ 0) :
    SameAutoBoot lower entries policy width height ↔
      DefaultIsNoTool lower entries policy ∧ policy.defaultTimeoutMs.toNat ≤ 2 ^ 32 - 16 := by
  have hne : entries ≠ [] := by
    rintro rfl
    obtain ⟨entry, hentry, -⟩ := hboot
    cases hentry
  rw [← bootIndices_ne_nil_iff] at hboot
  obtain ⟨i, hi⟩ := exists_autoEntry lower policy hboot
  obtain ⟨j, hj, htool, hsame⟩ := autoIndex_spec lower policy hne
  have hgui : ∀ k, AutoBoots (GuiState.turn lower entries policy) (.new width height) k ↔
      k = i ∧ policy.defaultTimeoutMs.toNat ≤ 2 ^ 32 - 16 := by
    intro k
    rw [← exists_frames_sixteen_iff]
    exact (gui_countsFrames hboot htimeout hi).autoBoots_iff ⟨rfl, rfl⟩ rfl
  have htext : ∀ k, AutoBoots (TextState.turn lower entries policy) {} k ↔
      k = j ∧ ∃ m : Nat, policy.defaultTimeoutMs ≤ UInt32.ofNat m * 100 := fun k =>
    (text_countsFrames hboot htimeout hj).autoBoots_iff ⟨rfl, rfl⟩ rfl
  rw [← htool]
  constructor
  · rintro ⟨i', j', hi', hj', heq, hicon⟩
    obtain ⟨rfl, htime⟩ := (hgui i').mp hi'
    obtain ⟨rfl, -⟩ := (htext j').mp hj'
    exact ⟨heq ▸ hicon, htime⟩
  · rintro ⟨hicon, htime⟩
    have hij : i = j := Option.some.inj (hi.symm.trans (hsame hicon))
    refine ⟨i, j, (hgui i).mpr ⟨rfl, htime⟩, (htext j).mpr ⟨rfl, ?_⟩, by rw [hij], ?_⟩
    · exact exists_frames_hundred (by omega)
    · exact hij ▸ hicon

def entryWithIcon (id : Text) (icon : Icon) : BootEntry where
  id := id
  name := id
  kind := .chainload []
  icon := icon

def toolLast : List BootEntry :=
  [entryWithIcon "linux" .linux, entryWithIcon "tool" .tools]

/-- With the default settings both menus start the boot entry. -/
theorem sameAutoBoot_of_tool_last : SameAutoBoot .asciiOnly toolLast {} 800 600 := by
  refine (sameAutoBoot_iff .asciiOnly toolLast {} 800 600
    ⟨_, mem_cons_self, by decide⟩ (by decide)).mpr ⟨⟨?_, ?_, ?_⟩, by decide⟩
  · rintro i hi
    obtain ⟨⟨pattern, hpattern, -⟩, -⟩ := hi.prop
    cases hpattern
  · rintro - i hi
    cases hi.prop
  · rintro - - _ ⟨⟩
    decide

def toolFirst : List BootEntry :=
  [entryWithIcon "tool" .tools, entryWithIcon "linux" .linux]

/-- With the default settings the text menu starts the tool. -/
theorem not_sameAutoBoot_of_tool_first :
    ¬ SameAutoBoot .asciiOnly toolFirst {} 800 600 := by
  rintro ⟨i, j, -, hj, heq, hicon⟩
  have htext : CountsFrames (TextState.turn .asciiOnly toolFirst {}) TextState.elapsedFrames
      (fun s => s.userInteracted = false ∧ s.selectedIndex = 0) 100 5000 ⟨0, by decide⟩ :=
    text_countsFrames (by decide) (by decide) (by decide)
  obtain ⟨rfl, -⟩ := (htext.autoBoots_iff ⟨rfl, rfl⟩ rfl).mp hj
  rw [heq] at hicon
  exact hicon rfl

end LamBoot.Menu
