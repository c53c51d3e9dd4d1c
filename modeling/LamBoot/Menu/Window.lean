import LamBoot.Menu.Gui

/-!
# What the graphical menu shows and starts

The left column shows a window of the boot entries. Moving the selection up and down moves the
window along, and the mouse reaches only what is in it.
-/

namespace LamBoot.Menu

open List Text

/-! ### The layout on a screen of ordinary size -/

/-- The screen shows both columns, and all coordinates are `i32`. -/
structure FitsScreen (width height tools : Nat) : Prop where
  wide : 62 ≤ width
  width_lt : width < 2 ^ 31
  high : 140 < height
  height_lt : height < 2 ^ 31
  tools_lt : 140 + 46 * (tools + 2) + 12 < 2 ^ 31

lemma asI32_eq {n : Int} (hlo : -2 ^ 31 ≤ n) (hhi : n < 2 ^ 31) : asI32 n = n := by
  unfold asI32
  rw [Int.bmod_def]
  omega

namespace GuiContext

variable {g : GuiContext} {boots tools : Nat}

lemma leftColW_eq (h : FitsScreen g.width g.height tools) :
    g.leftColW = (g.width - 60) * 55 / 100 := by
  obtain ⟨hwide, hwidth, -, -, -⟩ := h
  unfold leftColW subUsize
  simp only [margin, colGap]
  omega

lemma rightColX_eq (h : FitsScreen g.width g.height tools) :
    g.rightColX = 40 + (g.width - 60) * 55 / 100 := by
  unfold rightColX
  rw [leftColW_eq h]
  simp only [margin, colGap]
  omega

lemma rightColW_eq (h : FitsScreen g.width g.height tools) :
    g.rightColW = g.width - 60 - (g.width - 60) * 55 / 100 := by
  have hx := rightColX_eq h
  obtain ⟨hwide, hwidth, -, -, -⟩ := h
  unfold rightColW subUsize
  rw [hx]
  simp only [margin]
  omega

lemma row_le {vi : Nat} (h : vi < g.maxVisibleBoot) : vi = 0 ∨ vi * 66 + 66 + 190 ≤ g.height := by
  unfold maxVisibleBoot contentHeight contentBottom at h
  simp only [bootTileH, tileGap, headerH, footerH] at h
  omega

variable {x y : Int}

lemma hitLeft_spec (hs : FitsScreen g.width g.height tools) {vi : Nat}
    (h : g.hitLeft x y boots = some vi) :
    vi < min g.maxVisibleBoot boots ∧ 20 ≤ x ∧ x < 20 + g.leftColW ∧
      140 + vi * 66 ≤ y ∧ y < 140 + vi * 66 + 60 := by
  have hw := leftColW_eq hs
  have hwidth := hs.width_lt
  have hheight := hs.height_lt
  unfold hitLeft at h
  dsimp only at h
  split_ifs at h with hx
  have hmem := mem_of_find?_eq_some h
  have hrow := find?_some h
  rw [mem_range] at hmem
  have hvi := row_le (Nat.lt_of_lt_of_le hmem (Nat.min_le_left _ _))
  rw [decide_eq_true_eq] at hrow
  simp only [margin, headerH, bootTileH, tileGap, Nat.cast_ofNat] at hx hrow
  rw [asI32_eq (n := (g.leftColW : Int)) (by omega) (by omega),
    asI32_eq (by omega) (by omega)] at hx
  rw [asI32_eq (n := (vi : Int)) (by omega) (by omega),
    asI32_eq (n := (vi : Int) * (60 + 6)) (by omega) (by omega),
    asI32_eq (n := 140 + (vi : Int) * (60 + 6)) (by omega) (by omega),
    asI32_eq (by omega) (by omega)] at hrow
  omega

lemma inToolRow_iff {y : Int} {ry : Nat} (h : ry + 40 < 2 ^ 31) :
    inToolRow y ry = true ↔ ry ≤ y ∧ y < ry + 40 := by
  unfold inToolRow
  rw [decide_eq_true_eq, asI32_eq (by omega) (by omega), asI32_eq (by
    simp only [toolTileH, Nat.cast_ofNat]; omega) (by simp only [toolTileH, Nat.cast_ofNat]; omega)]
  simp only [toolTileH, Nat.cast_ofNat]

variable {i : Nat}

lemma hitRight_spec (hs : FitsScreen g.width g.height tools)
    (h : g.hitRight x y tools = some i) :
    i < tools + 2 ∧ g.rightColX ≤ x ∧ x < g.rightColX + g.rightColW ∧
      (i < tools → 140 + i * 46 ≤ y ∧ y < 140 + i * 46 + 40) := by
  have hx := rightColX_eq hs
  have hw := rightColW_eq hs
  have hwidth := hs.width_lt
  have htools := hs.tools_lt
  unfold hitRight at h
  dsimp only at h
  split_ifs at h with hcol
  rw [asI32_eq (n := (g.rightColX : Int)) (by omega) (by omega),
    asI32_eq (n := (g.rightColW : Int)) (by omega) (by omega),
    asI32_eq (by omega) (by omega)] at hcol
  rw [Option.or_eq_some_iff] at h
  rcases h with h | ⟨-, h⟩
  · have hmem := mem_range.mp (mem_of_find?_eq_some h)
    have hrow := find?_some h
    simp only [headerH, toolTileH, tileGap] at hrow
    rw [inToolRow_iff (by omega)] at hrow
    exact ⟨by omega, hcol.1, hcol.2, fun _ => by omega⟩
  · obtain ⟨j, hj, rfl⟩ := Option.map_eq_some_iff.mp h
    have hmem := mem_range.mp (mem_of_find?_eq_some hj)
    exact ⟨by omega, hcol.1, hcol.2, fun hlt => by omega⟩

/-! ### Tiles on the screen -/

/-- The pixel is filled when the rectangle is: `fill_rect` stops at the edges of the screen. -/
def Fills (g : GuiContext) (r : Rect) (x y : Int) : Prop :=
  (min r.x g.width : Nat) ≤ x ∧ x < (min ((r.x + r.w) % 2 ^ 64) g.width : Nat) ∧
    (min r.y g.height : Nat) ≤ y ∧ y < (min ((r.y + r.h) % 2 ^ 64) g.height : Nat)

lemma fills_iff {r : Rect} (hw : r.x + r.w < 2 ^ 64) (hh : r.y + r.h < 2 ^ 64) :
    g.Fills r x y ↔ (r.x ≤ x ∧ x < r.x + r.w ∧ x < g.width) ∧
      r.y ≤ y ∧ y < r.y + r.h ∧ y < g.height := by
  rw [Fills, Nat.mod_eq_of_lt hw, Nat.mod_eq_of_lt hh]
  omega

def OnScreen (g : GuiContext) (x y : Int) : Prop :=
  0 ≤ x ∧ x < g.width ∧ 0 ≤ y ∧ y < g.height

lemma mem_drawLeftColumn {r : Rect} :
    (i, r) ∈ g.drawLeftColumn boots ↔
      ∃ vi, i = g.scrollLeft + vi ∧ r = g.bootTile vi ∧ vi < g.maxVisibleBoot ∧ i < boots := by
  simp only [drawLeftColumn, mem_map, mem_range, Prod.mk.injEq]
  constructor
  · rintro ⟨vi, hvi, rfl, rfl⟩
    exact ⟨vi, rfl, rfl, by omega, by omega⟩
  · rintro ⟨vi, rfl, rfl, hvi, hlt⟩
    exact ⟨vi, by omega, rfl, rfl⟩

lemma exists_fills_bootTile (hs : FitsScreen g.width g.height tools) {vi : Nat}
    (h : vi < g.maxVisibleBoot) : ∃ x y, g.Fills (g.bootTile vi) x y := by
  have hw := leftColW_eq hs
  have hrow := row_le h
  obtain ⟨hwide, hwidth, hhigh, hheight, -⟩ := hs
  refine ⟨20, (140 + vi * 66 : Nat), (fills_iff ?_ ?_).mpr ?_⟩ <;>
    simp only [bootTile, margin, headerH, bootTileH, tileGap, hw] <;> omega

lemma exists_fills_toolTile (hs : FitsScreen g.width g.height tools)
    (h : 140 + i * 46 < g.height) : ∃ x y, g.Fills (g.toolTile i) x y := by
  have hx := rightColX_eq hs
  have hw := rightColW_eq hs
  obtain ⟨hwide, hwidth, -, hheight, -⟩ := hs
  refine ⟨g.rightColX, (140 + i * 46 : Nat), (fills_iff ?_ ?_).mpr ?_⟩ <;>
    simp only [toolTile, headerH, toolTileH, tileGap] <;> omega

/-! ### The invariant of the context -/

/-- The selection is one of its column, a selected boot entry is in the window, and the window does
not go beyond the last entry. -/
structure Inv (g : GuiContext) (boots tools : Nat) : Prop where
  valid : g.selIdx < (match g.selCol with | .left => boots | .right => tools + 2)
  window : g.selCol = .left →
    g.scrollLeft ≤ g.selIdx ∧ g.selIdx < g.scrollLeft + g.maxVisibleBoot
  scroll : g.scrollLeft + min g.maxVisibleBoot boots ≤ boots

lemma maxVisibleBoot_pos (g : GuiContext) : 0 < g.maxVisibleBoot :=
  Nat.lt_of_lt_of_le Nat.one_pos (Nat.le_max_right _ _)

lemma Inv.select (h : g.Inv boots tools) {idx : Nat}
    (hidx : idx < (match g.selCol with | .left => boots | .right => tools + 2)) :
    { g with selIdx := idx }.adjustScroll.Inv boots tools := by
  obtain ⟨-, -, hscroll⟩ := h
  have hpos := g.maxVisibleBoot_pos
  cases hcol : g.selCol with
  | left =>
    rw [hcol] at hidx
    dsimp only at hidx
    simp only [adjustScroll]
    split_ifs with hup hdown
    · refine ⟨hidx, fun _ => ⟨Nat.le_refl _, ?_⟩, ?_⟩
      · change idx < idx + g.maxVisibleBoot
        omega
      · change idx + min g.maxVisibleBoot boots ≤ boots
        change idx < g.scrollLeft at hup
        omega
    · change g.scrollLeft + g.maxVisibleBoot ≤ idx at hdown
      refine ⟨hidx, fun _ => ⟨?_, ?_⟩, ?_⟩
      · change idx + 1 - g.maxVisibleBoot ≤ idx
        omega
      · change idx < idx + 1 - g.maxVisibleBoot + g.maxVisibleBoot
        omega
      · change idx + 1 - g.maxVisibleBoot + min g.maxVisibleBoot boots ≤ boots
        omega
    · change ¬ idx < g.scrollLeft at hup
      change ¬ g.scrollLeft + g.maxVisibleBoot ≤ idx at hdown
      exact ⟨hidx, fun _ => ⟨Nat.le_of_not_lt hup, Nat.lt_of_not_le hdown⟩, hscroll⟩
  | right =>
    rw [hcol] at hidx
    simp only [adjustScroll]
    split_ifs
    · exact ⟨hidx, fun h => (nomatch h), hscroll⟩
    · exact ⟨hidx, fun h => (nomatch h), hscroll⟩
    · exact ⟨hidx, fun h => (nomatch h), hscroll⟩

lemma hitTest_left (hs : FitsScreen g.width g.height tools)
    (hscroll : g.scrollLeft + min g.maxVisibleBoot boots ≤ boots)
    (h : g.hitTest x y boots tools = some (.left, i)) :
    i < boots ∧ g.scrollLeft ≤ i ∧ i < g.scrollLeft + g.maxVisibleBoot ∧
      (g.OnScreen x y → ∃ r, (i, r) ∈ g.drawLeftColumn boots ∧ g.Fills r x y) := by
  have hw := leftColW_eq hs
  have hwidth := hs.width_lt
  have hheight := hs.height_lt
  unfold hitTest at h
  split at h
  · next vi hvi =>
    obtain ⟨hlt, hx⟩ := hitLeft_spec hs hvi
    cases h
    refine ⟨by omega, by omega, by omega, fun hpixel => ?_⟩
    have hrow := row_le (Nat.lt_of_lt_of_le hlt (Nat.min_le_left _ _))
    obtain ⟨-, hpx, -, hpy⟩ := hpixel
    refine ⟨g.bootTile vi, mem_drawLeftColumn.mpr ⟨vi, rfl, rfl, by omega, by omega⟩,
      (fills_iff ?_ ?_).mpr ?_⟩ <;>
      simp only [bootTile, margin, headerH, bootTileH, tileGap, Nat.cast_add, Nat.cast_mul,
        Nat.cast_ofNat] <;> omega
  · obtain ⟨j, -, hj⟩ := Option.map_eq_some_iff.mp h
    cases hj

lemma hitTest_right (hs : FitsScreen g.width g.height tools)
    (h : g.hitTest x y boots tools = some (.right, i)) :
    i < tools + 2 ∧ (i < tools → g.OnScreen x y → g.Fills (g.toolTile i) x y) := by
  have hx := rightColX_eq hs
  have hw := rightColW_eq hs
  have hwidth := hs.width_lt
  have hheight := hs.height_lt
  unfold hitTest at h
  split at h
  · cases h
  · obtain ⟨j, hj, heq⟩ := Option.map_eq_some_iff.mp h
    cases heq
    obtain ⟨hlt, hleft, hright, hrow⟩ := hitRight_spec hs hj
    refine ⟨hlt, fun htool hpixel => ?_⟩
    have htools := hs.tools_lt
    obtain ⟨hlo, hhi⟩ := hrow htool
    obtain ⟨-, hpx, -, hpy⟩ := hpixel
    refine (fills_iff ?_ ?_).mpr ?_ <;>
      simp only [toolTile, headerH, toolTileH, tileGap, Nat.cast_add, Nat.cast_mul,
        Nat.cast_ofNat] <;> omega

lemma Inv.hit (hs : FitsScreen g.width g.height tools) (h : g.Inv boots tools)
    {col : Column} (hhit : g.hitTest x y boots tools = some (col, i)) :
    { g with selCol := col, selIdx := i }.Inv boots tools := by
  cases col with
  | left =>
    obtain ⟨hlt, hlo, hhi, -⟩ := hitTest_left hs h.scroll hhit
    exact ⟨hlt, fun _ => ⟨hlo, hhi⟩, h.scroll⟩
  | right => exact ⟨(hitTest_right hs hhit).1, fun h => (nomatch h), h.scroll⟩

end GuiContext

/-! ### Turns -/

namespace GuiState

variable {lower : Lowercase} {entries : List BootEntry} {policy : Policy} {s : GuiState}

abbrev boots (entries : List BootEntry) : Nat := (bootIndices entries).length
abbrev tools (entries : List BootEntry) : Nat := (toolIndices entries).length

def ToolOnScreen (entries : List BootEntry) (s : GuiState) : Prop :=
  s.ctx.selCol = .right → s.ctx.selIdx < tools entries → 140 + s.ctx.selIdx * 46 < s.ctx.height

/-- The conditions on a step. The left key in the right column leads to an index in the window; the
tool that the enter key starts has a tile on the screen; and a click is on the screen. -/
def Allowed (entries : List BootEntry) (s : GuiState) : InputEvent → Prop
  | .keyPress .left =>
    s.ctx.selCol = .right →
      s.ctx.scrollLeft ≤ min s.ctx.selIdx (boots entries - 1) ∧
        min s.ctx.selIdx (boots entries - 1) < s.ctx.scrollLeft + s.ctx.maxVisibleBoot
  | .keyPress .enter => s.ToolOnScreen entries
  | .keyPress (.char c) => c = '\r' → s.ToolOnScreen entries
  | .mouseClick x y _ => s.ctx.OnScreen x y
  | _ => True

/-- The screen fits, the selection is in the window, and what is not to be painted again is on the
screen. -/
structure Sound (entries : List BootEntry) (s : GuiState) : Prop where
  fits : FitsScreen s.ctx.width s.ctx.height (tools entries)
  inv : s.ctx.Inv (boots entries) (tools entries)
  painted : s.dirty = false → s.painted = some s.ctx

lemma Sound.ready_painted (h : s.Sound entries) :
    (s.ready entries policy).painted = some (s.ready entries policy).ctx := by
  obtain ⟨timedOut, htimeout⟩ := (s.paint entries policy).checkTimeout_eq entries policy
  rw [ready, htimeout]
  change (s.paint entries policy).painted = some (s.paint entries policy).ctx
  unfold paint
  split_ifs with hdirty
  · rfl
  · simp only [not_or, Bool.not_eq_true] at hdirty
    exact h.painted hdirty.1

lemma Sound.ready (h : s.Sound entries) : (s.ready entries policy).Sound entries :=
  ⟨by simpa using h.fits, by simpa using h.inv, fun _ => h.ready_painted⟩

variable {s' : GuiState}

lemma Sound.of_dirty (h : s.Sound entries) (hdirty : s'.dirty = true)
    (hwidth : s'.ctx.width = s.ctx.width) (hheight : s'.ctx.height = s.ctx.height)
    (hinv : s'.ctx.Inv (boots entries) (tools entries)) : s'.Sound entries := by
  refine ⟨by rw [hwidth, hheight]; exact h.fits, hinv, fun hnot => ?_⟩
  rw [hdirty] at hnot
  cases hnot

lemma executeSystemAction_stay {action : Nat}
    (h : executeSystemAction entries s action = .stay s') : s' = s := by
  unfold executeSystemAction at h
  split at h
  · cases h
  · cases h
  · exact (Outcome.stay.inj h).symm

variable {idx : Nat}

lemma activate_stay {col : Column}
    (h : activate entries s col idx = .stay s') : s' = s := by
  unfold activate at h
  split at h
  · split at h
    · cases h
    · exact (Outcome.stay.inj h).symm
  · split at h
    · cases h
    · exact executeSystemAction_stay h

@[simp] lemma adjustScroll_width (g : GuiContext) : g.adjustScroll.width = g.width := by
  unfold GuiContext.adjustScroll
  split <;> split_ifs <;> rfl

@[simp] lemma adjustScroll_height (g : GuiContext) : g.adjustScroll.height = g.height := by
  unfold GuiContext.adjustScroll
  split <;> split_ifs <;> rfl

lemma Sound.onKey (h : s.Sound entries) (hboots : bootIndices entries ≠ []) {key : Key}
    (hallowed : s.Allowed entries (.keyPress key))
    (hstay : s.onKey entries key = .stay s') : s'.Sound entries := by
  have hpos : 0 < boots entries := length_pos_iff.mpr hboots
  have hsame : ({ s with userInteracted := true, dirty := true } : GuiState).Sound entries :=
    h.of_dirty rfl rfl rfl h.inv
  have hselect : ∀ idx, idx < (match s.ctx.selCol with
      | .left => boots entries | .right => tools entries + 2) →
      ({ s with
        userInteracted := true, dirty := true,
        ctx := { s.ctx with selIdx := idx }.adjustScroll } : GuiState).Sound entries :=
    fun idx hidx => h.of_dirty rfl (by simp) (by simp) (h.inv.select hidx)
  have hvalid := h.inv.valid
  cases key with
  | up =>
    simp only [GuiState.onKey] at hstay
    split_ifs at hstay <;> cases hstay
    · exact hselect _ (Nat.lt_of_le_of_lt (Nat.sub_le _ _) hvalid)
    · exact hsame
  | down =>
    simp only [GuiState.onKey] at hstay
    split_ifs at hstay with hlt <;> cases hstay
    · exact hselect _ hlt
    · exact hsame
  | left =>
    simp only [GuiState.onKey] at hstay
    split_ifs at hstay with hcol <;> cases hstay
    · refine h.of_dirty rfl rfl rfl ⟨?_, fun _ => hallowed hcol, h.inv.scroll⟩
      change min s.ctx.selIdx (boots entries - 1) < boots entries
      omega
    · exact hsame
  | right =>
    simp only [GuiState.onKey] at hstay
    split_ifs at hstay with hcol <;> cases hstay
    · refine h.of_dirty rfl rfl rfl ⟨?_, fun hleft => (nomatch hleft), h.inv.scroll⟩
      change min s.ctx.selIdx (tools entries + 2 - 1) < tools entries + 2
      omega
    · exact hsame
  | enter => exact activate_stay hstay ▸ hsame
  | char c =>
    simp only [GuiState.onKey] at hstay
    split_ifs at hstay
    · exact activate_stay hstay ▸ hsame
    · cases hstay
      exact hsame
  | f2 => cases hstay
  | f12 => cases hstay
  | f1 | escape | backspace | tab =>
    cases hstay
    exact hsame

lemma Sound.onMouseMove (h : s.Sound entries) (x y : Int) :
    (s.onMouseMove entries x y).Sound entries := by
  have hmouse : ({ s.ctx with mouseX := x, mouseY := y } : GuiContext).Inv (boots entries)
      (tools entries) := ⟨h.inv.valid, h.inv.window, h.inv.scroll⟩
  have hctx : x = s.ctx.mouseX → y = s.ctx.mouseY →
      ({ s.ctx with mouseX := x, mouseY := y } : GuiContext) = s.ctx := by
    rintro rfl rfl
    rfl
  unfold GuiState.onMouseMove
  dsimp only
  split
  · refine ⟨h.fits, hmouse, fun hdirty => ?_⟩
    simp only [Bool.or_eq_false_iff, decide_eq_false_iff_not, not_or, not_not] at hdirty
    obtain ⟨hdirty, hx, hy⟩ := hdirty
    rw [hctx hx hy]
    exact h.painted hdirty
  · next col idx hhit =>
    have hinv := GuiContext.Inv.hit (g := { s.ctx with mouseX := x, mouseY := y }) h.fits hmouse
      hhit
    refine ⟨h.fits, hinv, fun hdirty => ?_⟩
    simp only [Bool.or_eq_false_iff, decide_eq_false_iff_not, not_or, not_not] at hdirty
    obtain ⟨hdirty, ⟨hx, hy⟩, hcol, hidx⟩ := hdirty
    rw [h.painted hdirty, hcol, hidx, hx, hy]

variable {e : InputEvent}

lemma Sound.onEvent (h : s.Sound entries) (hboots : bootIndices entries ≠ [])
    (hallowed : s.Allowed entries e) (hstay : s.onEvent entries e = .stay s') :
    s'.Sound entries := by
  cases e with
  | keyPress key => exact h.onKey hboots hallowed hstay
  | mouseMove x y =>
    cases hstay
    exact h.onMouseMove x y
  | mouseClick x y button =>
    simp only [GuiState.onEvent, GuiState.onMouseClick] at hstay
    split at hstay
    · cases hstay
      exact h.of_dirty rfl rfl rfl h.inv
    · next col idx hhit =>
      rw [activate_stay hstay]
      exact h.of_dirty rfl rfl rfl (h.inv.hit h.fits hhit)
  | none =>
    cases hstay
    exact ⟨h.fits, h.inv, h.painted⟩

lemma Sound.turn (h : s.Sound entries) (hboots : bootIndices entries ≠ [])
    (hallowed : (s.ready entries policy).Allowed entries e)
    (hstay : s.turn lower entries policy e = .stay s') : s'.Sound entries := by
  simp only [GuiState.turn] at hstay
  split_ifs at hstay
  · split at hstay
    · cases hstay
    · exact h.ready.onEvent hboots hallowed hstay
  · exact h.ready.onEvent hboots hallowed hstay

/-! ### Runs -/

/-- The states in which a turn of the menu can begin when all steps meet the conditions. -/
inductive Reaches (lower : Lowercase) (entries : List BootEntry) (policy : Policy)
    (width height : Nat) : GuiState → Prop where
  | new : Reaches lower entries policy width height (.new width height)
  | turn {s s' : GuiState} {e : InputEvent} : Reaches lower entries policy width height s →
      (s.ready entries policy).Allowed entries e → s.turn lower entries policy e = .stay s' →
        Reaches lower entries policy width height s'

lemma Reaches.sound {width height : Nat} (hfits : FitsScreen width height (tools entries))
    (hboots : bootIndices entries ≠ []) (h : Reaches lower entries policy width height s) :
    s.Sound entries := by
  induction h with
  | new =>
    have hpos : 0 < boots entries := length_pos_iff.mpr hboots
    refine ⟨hfits, ⟨hpos, fun _ => ⟨Nat.le_refl _, ?_⟩, ?_⟩, fun hdirty => (nomatch hdirty)⟩
    · change 0 < 0 + GuiContext.maxVisibleBoot _
      rw [Nat.zero_add]
      exact GuiContext.maxVisibleBoot_pos _
    · change 0 + min (GuiContext.maxVisibleBoot _) (boots entries) ≤ boots entries
      omega
  | turn _ hallowed hstay ih => exact ih.turn hboots hallowed hstay

/-- A row of the entry is drawn, on the screen. -/
def Shows (g : GuiContext) (entries : List BootEntry) (i : Fin entries.length) : Prop :=
  ∃ idx r, (((idx, r) ∈ g.drawLeftColumn (boots entries) ∧ (bootIndices entries)[idx]? = some i) ∨
    ((idx, r) ∈ g.drawRightColumn (tools entries) ∧ (toolIndices entries)[idx]? = some i)) ∧
      ∃ x y, g.Fills r x y

/-- When an event is looked at: the screen is up to date, the selection is valid and on the screen,
a hit in the left column is the entry at the pixel, and what is started is on the screen. -/
structure ShowsSelection (entries : List BootEntry) (s : GuiState) : Prop where
  painted : s.painted = some s.ctx
  valid : s.ctx.selIdx <
    (match s.ctx.selCol with | .left => boots entries | .right => tools entries + 2)
  window : s.ctx.selCol = .left → ∃ r, (s.ctx.selIdx, r) ∈ s.ctx.drawLeftColumn (boots entries)
  hits : ∀ x y i, s.ctx.OnScreen x y →
    s.ctx.hitTest x y (boots entries) (tools entries) = some (.left, i) →
      ∃ r, (i, r) ∈ s.ctx.drawLeftColumn (boots entries) ∧ s.ctx.Fills r x y
  starts : ∀ e i, s.Allowed entries e → s.onEvent entries e = .boot i → Shows s.ctx entries i

variable {i : Fin entries.length}

lemma activate_boot {col : Column}
    (h : activate entries s col idx = .boot i) :
    (col = .left ∧ (bootIndices entries)[idx]? = some i) ∨
      (col = .right ∧ (toolIndices entries)[idx]? = some i) := by
  unfold activate at h
  split at h
  · split at h
    · next j hj => exact .inl ⟨rfl, Outcome.boot.inj h ▸ hj⟩
    · cases h
  · split at h
    · next j hj => exact .inr ⟨rfl, Outcome.boot.inj h ▸ hj⟩
    · unfold executeSystemAction at h
      split at h <;> cases h

lemma shows_left {g : GuiContext} (hfits : FitsScreen g.width g.height (tools entries))
    (hlo : g.scrollLeft ≤ idx)
    (hhi : idx < g.scrollLeft + g.maxVisibleBoot) (hi : (bootIndices entries)[idx]? = some i) :
    Shows g entries i := by
  have hlt : idx < boots entries := (List.getElem?_eq_some_iff.mp hi).1
  have hvi : idx - g.scrollLeft < g.maxVisibleBoot := by omega
  refine ⟨idx, g.bootTile (idx - g.scrollLeft), .inl ⟨?_, hi⟩,
    GuiContext.exists_fills_bootTile hfits hvi⟩
  exact GuiContext.mem_drawLeftColumn.mpr ⟨idx - g.scrollLeft, by omega, rfl, hvi, hlt⟩

lemma mem_drawRightColumn {g : GuiContext}
    (hi : (toolIndices entries)[idx]? = some i) :
    (idx, g.toolTile idx) ∈ g.drawRightColumn (tools entries) := by
  have hlt : idx < tools entries := (List.getElem?_eq_some_iff.mp hi).1
  exact mem_map.mpr ⟨idx, mem_range.mpr hlt, rfl⟩

lemma Sound.shows_of_activate (h : s.Sound entries) (htool : s.ToolOnScreen entries)
    (hboot : activate entries s' s.ctx.selCol s.ctx.selIdx = .boot i) : Shows s.ctx entries i := by
  rcases activate_boot hboot with ⟨hcol, hi⟩ | ⟨hcol, hi⟩
  · obtain ⟨hlo, hhi⟩ := h.inv.window hcol
    exact shows_left h.fits hlo hhi hi
  · have hlt : s.ctx.selIdx < tools entries := (List.getElem?_eq_some_iff.mp hi).1
    exact ⟨_, _, .inr ⟨mem_drawRightColumn hi, hi⟩,
      GuiContext.exists_fills_toolTile h.fits (htool hcol hlt)⟩

lemma Sound.shows_of_click (h : s.Sound entries) {x y : Int} (hpixel : s.ctx.OnScreen x y)
    {col : Column}
    (hhit : s.ctx.hitTest x y (boots entries) (tools entries) = some (col, idx))
    (hboot : activate entries s' col idx = .boot i) : Shows s.ctx entries i := by
  rcases activate_boot hboot with ⟨rfl, hi⟩ | ⟨rfl, hi⟩
  · obtain ⟨r, hr, hfills⟩ := (GuiContext.hitTest_left h.fits h.inv.scroll hhit).2.2.2 hpixel
    exact ⟨idx, r, .inl ⟨hr, hi⟩, x, y, hfills⟩
  · have hlt : idx < tools entries := (List.getElem?_eq_some_iff.mp hi).1
    exact ⟨idx, _, .inr ⟨mem_drawRightColumn hi, hi⟩, x, y,
      (GuiContext.hitTest_right h.fits hhit).2 hlt hpixel⟩

lemma Sound.shows_of_boot (h : s.Sound entries)
    (hallowed : s.Allowed entries e) (hboot : s.onEvent entries e = .boot i) :
    Shows s.ctx entries i := by
  cases e with
  | keyPress key =>
    cases key with
    | enter => exact h.shows_of_activate hallowed hboot
    | char c =>
      simp only [GuiState.onEvent, GuiState.onKey] at hboot
      split_ifs at hboot with hc
      exact h.shows_of_activate (hallowed hc) hboot
    | up | down | left | right =>
      simp only [GuiState.onEvent, GuiState.onKey] at hboot
      split_ifs at hboot
    | escape | f1 | f2 | f12 | backspace | tab => cases hboot
  | mouseMove x y => cases hboot
  | mouseClick x y button =>
    simp only [GuiState.onEvent, GuiState.onMouseClick] at hboot
    split at hboot
    · cases hboot
    · next col idx hhit => exact h.shows_of_click hallowed hhit hboot
  | none => cases hboot

lemma Sound.showsSelection (h : s.Sound entries) (hpainted : s.painted = some s.ctx) :
    s.ShowsSelection entries where
  painted := hpainted
  valid := h.inv.valid
  window hcol := by
    obtain ⟨hlo, hhi⟩ := h.inv.window hcol
    have hvalid := h.inv.valid
    rw [hcol] at hvalid
    exact ⟨_, GuiContext.mem_drawLeftColumn.mpr
      ⟨s.ctx.selIdx - s.ctx.scrollLeft, by omega, rfl, by omega, hvalid⟩⟩
  hits x y i hpixel hhit := (GuiContext.hitTest_left h.fits h.inv.scroll hhit).2.2.2 hpixel
  starts e i hallowed hboot := h.shows_of_boot hallowed hboot

/-- **What the graphical menu shows and starts.** On a screen that fits and with a boot entry, every
run whose steps meet the conditions shows the selection, hits what is drawn, and starts what is on
the screen. -/
theorem showsSelection_of_reaches (lower : Lowercase) (entries : List BootEntry) (policy : Policy)
    (width height : Nat) (hfits : FitsScreen width height (tools entries))
    (hboots : bootIndices entries ≠ []) (s : GuiState)
    (h : Reaches lower entries policy width height s) :
    (s.ready entries policy).ShowsSelection entries :=
  (h.sound hfits hboots).ready.showsSelection (h.sound hfits hboots).ready_painted

def bootEntries (ids : List Text) : List BootEntry :=
  ids.map fun id => { id, name := id, kind := .chainload [], icon := .linux }

/-- A run that goes down to the second entry. -/
theorem showsSelection_after_down :
    ∃ s, Reaches .asciiOnly (bootEntries [['a'], ['b']]) {} 640 480 s ∧ s.ctx.selIdx = 1 ∧
      (s.ready (bootEntries [['a'], ['b']]) {}).ShowsSelection (bootEntries [['a'], ['b']]) := by
  have hreaches : ∃ s, Reaches .asciiOnly (bootEntries [['a'], ['b']]) {} 640 480 s ∧
      s.ctx.selIdx = 1 :=
    ⟨_, .turn (e := .keyPress .down) .new trivial rfl, rfl⟩
  obtain ⟨s, hs, hidx⟩ := hreaches
  exact ⟨s, hs, hidx, showsSelection_of_reaches .asciiOnly _ {} 640 480
    ⟨by decide, by decide, by decide, by decide, by decide⟩ (by decide) s hs⟩

def sixEntries : List BootEntry :=
  bootEntries [['a'], ['b'], ['c'], ['d'], ['e'], ['f']]

def downAndBack : List InputEvent :=
  replicate 5 (.keyPress .down) ++ [.keyPress .right, .keyPress .left]

def backInLeft : GuiState where
  ctx := { GuiContext.new 640 480 with selIdx := 1, scrollLeft := 2 }
  userInteracted := true
  painted := some { GuiContext.new 640 480 with selIdx := 1, selCol := .right, scrollLeft := 2 }

/-- The second entry is selected and not shown, and the enter key starts it. -/
theorem not_showsSelection_after_left :
    ∃ s, run (GuiState.turn .asciiOnly sixEntries {}) (.new 640 480) downAndBack = .stay s ∧
      ¬ (s.ready sixEntries {}).ShowsSelection sixEntries ∧
      (s.ready sixEntries {}).onEvent sixEntries (.keyPress .enter) = .boot ⟨1, by decide⟩ := by
  refine ⟨backInLeft, rfl, fun h => ?_, rfl⟩
  obtain ⟨r, hr⟩ := h.window rfl
  obtain ⟨vi, hvi, -⟩ := GuiContext.mem_drawLeftColumn.mp hr
  have hindex : 1 = 2 + vi := hvi
  omega

end GuiState

end LamBoot.Menu
