import LamBoot.Menu.Default
import LamBoot.Menu.Events

/-!
# The graphical menu

`GuiContext::run_menu` of `gui.rs`: the boot entries on the left, the tools with two actions on the
right. Each turn of the loop paints what has changed, starts the default entry once the time is up,
and handles one event. Sizes (`usize`) and pixel coordinates (`i32`) are computed modulo their
width.
-/

namespace LamBoot.Menu

open Text List

/-! ### Machine integers -/

/-- A subtraction of two `usize`. -/
def subUsize (a b : Nat) : Nat :=
  (a + (2 ^ 64 - b % 2 ^ 64)) % 2 ^ 64

/-- The `i32` with the low bits of a number. -/
def asI32 (n : Int) : Int :=
  n.bmod (2 ^ 32)

/-! ### Layout -/

def bootTileH : Nat := 60
def toolTileH : Nat := 40
def tileGap : Nat := 6
def headerH : Nat := 140
def footerH : Nat := 50
def margin : Nat := 20
def colGap : Nat := 20

inductive Column where
  | left
  | right
deriving DecidableEq, Repr

/-- What of the context the loop reads and changes. -/
structure GuiContext where
  width : Nat
  height : Nat
  /-- Index within the active column. -/
  selIdx : Nat := 0
  /-- Active column. -/
  selCol : Column := .left
  scrollLeft : Nat := 0
  scrollRight : Nat := 0
  mouseX : Int
  mouseY : Int
deriving DecidableEq, Repr

/-- A rectangle that is filled on the screen. -/
structure Rect where
  x : Nat
  y : Nat
  w : Nat
  h : Nat
deriving DecidableEq, Repr

namespace GuiContext

def new (width height : Nat) : GuiContext where
  width := width
  height := height
  mouseX := asI32 (width / 2)
  mouseY := asI32 (height / 2)

variable (g : GuiContext)

def contentBottom : Nat :=
  g.height - footerH

def contentHeight : Nat :=
  g.contentBottom - headerH

def leftColW : Nat :=
  subUsize (subUsize g.width (2 * margin)) colGap * 55 % 2 ^ 64 / 100

def rightColX : Nat :=
  margin + g.leftColW + colGap

def rightColW : Nat :=
  subUsize (subUsize g.width g.rightColX) margin

def maxVisibleBoot : Nat :=
  max (g.contentHeight / (bootTileH + tileGap)) 1

def adjustScroll : GuiContext :=
  match g.selCol with
  | .left =>
    if g.selIdx < g.scrollLeft then { g with scrollLeft := g.selIdx }
    else if g.scrollLeft + g.maxVisibleBoot ≤ g.selIdx then
      { g with scrollLeft := g.selIdx + 1 - g.maxVisibleBoot }
    else g
  | .right =>
    if g.selIdx < g.scrollRight then { g with scrollRight := g.selIdx }
    else if g.scrollRight + g.maxVisibleBoot ≤ g.selIdx then
      { g with scrollRight := g.selIdx + 1 - g.maxVisibleBoot }
    else g

/-! ### Tiles -/

def bootTile (row : Nat) : Rect :=
  ⟨margin, headerH + row * (bootTileH + tileGap), g.leftColW, bootTileH⟩

def toolTile (i : Nat) : Rect :=
  ⟨g.rightColX, headerH + i * (toolTileH + tileGap), g.rightColW, toolTileH⟩

def drawLeftColumn (boots : Nat) : List (Nat × Rect) :=
  let visEnd := min (g.scrollLeft + g.maxVisibleBoot) boots
  (range (visEnd - g.scrollLeft)).map fun vi => (g.scrollLeft + vi, g.bootTile vi)

def drawRightColumn (tools : Nat) : List (Nat × Rect) :=
  (range tools).map fun i => (i, g.toolTile i)

/-! ### Hits -/

def hitLeft (mx my : Int) (boots : Nat) : Option Nat :=
  let lx : Int := margin
  let lw := asI32 g.leftColW
  if lx ≤ mx ∧ mx < asI32 (lx + lw) then
    (range (min g.maxVisibleBoot boots)).find? fun vi =>
      let ey := asI32 (headerH + asI32 (asI32 vi * (bootTileH + tileGap)))
      decide (ey ≤ my ∧ my < asI32 (ey + bootTileH))
  else none

/-- The pixel is in a row of the right column that begins at `ry`. -/
def inToolRow (my : Int) (ry : Nat) : Bool :=
  decide (asI32 ry ≤ my ∧ my < asI32 (ry + toolTileH))

def hitRight (mx my : Int) (tools : Nat) : Option Nat :=
  let rx := asI32 g.rightColX
  let rw := asI32 g.rightColW
  if rx ≤ mx ∧ mx < asI32 (rx + rw) then
    ((range tools).find? fun i => inToolRow my (headerH + i * (toolTileH + tileGap))).or
      (((range 2).find? fun i =>
        inToolRow my (headerH + (tools + i) * (toolTileH + tileGap) + 12)).map (tools + ·))
  else none

def hitTest (mx my : Int) (boots tools : Nat) : Option (Column × Nat) :=
  match g.hitLeft mx my boots with
  | some vi => some (.left, g.scrollLeft + vi)
  | none => (g.hitRight mx my tools).map (.right, ·)

end GuiContext

/-! ### The loop -/

/-- The state of the loop: the context, the local variables, and what the screen shows. -/
structure GuiState where
  ctx : GuiContext
  timedOut : Bool := false
  userInteracted : Bool := false
  elapsedFrames : UInt32 := 0
  dirty : Bool := true
  lastDrawnSecond : Option UInt32 := none
  /-- The context when the screen was painted last. -/
  painted : Option GuiContext := none

namespace GuiState

def new (width height : Nat) : GuiState where
  ctx := .new width height

section Turn

variable (lower : Lowercase) (entries : List BootEntry) (policy : Policy)

def timeoutMs : UInt32 :=
  if bootIndices entries = [] then 0 else policy.defaultTimeoutMs

def countdownSecond (s : GuiState) : Option UInt32 :=
  if !s.userInteracted ∧ timeoutMs entries policy > 0 then
    let elapsed := s.elapsedFrames * 16
    some ((if elapsed ≤ timeoutMs entries policy then timeoutMs entries policy - elapsed else 0) /
      1000)
  else none

def paint (s : GuiState) : GuiState :=
  if s.dirty ∨ s.countdownSecond entries policy ≠ s.lastDrawnSecond then
    { s with
      painted := some s.ctx, dirty := false,
      lastDrawnSecond := s.countdownSecond entries policy }
  else s

def checkTimeout (s : GuiState) : GuiState :=
  if !s.userInteracted ∧ timeoutMs entries policy > 0 ∧
      s.elapsedFrames * 16 ≥ timeoutMs entries policy then
    { s with timedOut := true }
  else s

def executeSystemAction (s : GuiState) (action : Nat) : Outcome GuiState entries.length :=
  match action with
  | 0 => .firmwareSetup
  | 1 => .reboot
  | _ => .stay s

def activate (s : GuiState) (col : Column) (idx : Nat) : Outcome GuiState entries.length :=
  match col with
  | .left =>
    match (bootIndices entries)[idx]? with
    | some i => .boot i
    | none => .stay s
  | .right =>
    match (toolIndices entries)[idx]? with
    | some i => .boot i
    | none => executeSystemAction entries s (idx - (toolIndices entries).length)

def onKey (s : GuiState) (key : Key) : Outcome GuiState entries.length :=
  let s := { s with userInteracted := true, dirty := true }
  let g := s.ctx
  match key with
  | .up =>
    if 0 < g.selIdx then .stay { s with ctx := { g with selIdx := g.selIdx - 1 }.adjustScroll }
    else .stay s
  | .down =>
    let max :=
      match g.selCol with
      | .left => (bootIndices entries).length
      | .right => (toolIndices entries).length + 2
    if g.selIdx + 1 < max then
      .stay { s with ctx := { g with selIdx := g.selIdx + 1 }.adjustScroll }
    else .stay s
  | .left =>
    if g.selCol = .right then
      .stay { s with
        ctx := { g with
          selCol := .left, selIdx := min g.selIdx ((bootIndices entries).length - 1) } }
    else .stay s
  | .right =>
    if g.selCol = .left then
      .stay { s with
        ctx := { g with
          selCol := .right, selIdx := min g.selIdx ((toolIndices entries).length + 2 - 1) } }
    else .stay s
  | .enter => activate entries s g.selCol g.selIdx
  | .char c => if c = '\r' then activate entries s g.selCol g.selIdx else .stay s
  | .f2 => executeSystemAction entries s 0
  | .f12 => executeSystemAction entries s 1
  | .f1 => .stay s
  | .escape => .stay s
  | .backspace => .stay s
  | .tab => .stay s

def onMouseMove (s : GuiState) (x y : Int) : GuiState :=
  let moved := x ≠ s.ctx.mouseX ∨ y ≠ s.ctx.mouseY
  let g := { s.ctx with mouseX := x, mouseY := y }
  match g.hitTest x y (bootIndices entries).length (toolIndices entries).length with
  | none => { s with ctx := g, dirty := s.dirty || decide moved }
  | some (col, idx) =>
    { s with
      ctx := { g with selCol := col, selIdx := idx },
      dirty := s.dirty || decide (moved ∨ col ≠ g.selCol ∨ idx ≠ g.selIdx) }

def onMouseClick (s : GuiState) (x y : Int) : Outcome GuiState entries.length :=
  let s := { s with userInteracted := true, dirty := true }
  match s.ctx.hitTest x y (bootIndices entries).length (toolIndices entries).length with
  | none => .stay s
  | some (col, idx) =>
    activate entries { s with ctx := { s.ctx with selCol := col, selIdx := idx } } col idx

def autoEntry : Option (Fin entries.length) :=
  (selectDefaultEntry lower entries (bootIndices entries) policy).or (bootIndices entries).head?

def onEvent (s : GuiState) (event : InputEvent) : Outcome GuiState entries.length :=
  match event with
  | .keyPress key => s.onKey entries key
  | .mouseMove x y => .stay (s.onMouseMove entries x y)
  | .mouseClick x y _ => s.onMouseClick entries x y
  | .none => .stay { s with elapsedFrames := s.elapsedFrames + 1 }

def ready (s : GuiState) : GuiState :=
  (s.paint entries policy).checkTimeout entries policy

/-- One turn of the loop of `run_menu`. -/
def turn (s : GuiState) (event : InputEvent) : Outcome GuiState entries.length :=
  let s := s.ready entries policy
  if s.timedOut ∧ !s.userInteracted then
    match autoEntry lower entries policy with
    | some i => .boot i
    | none => s.onEvent entries event
  else s.onEvent entries event

end Turn

/-! ### What a turn does before its event -/

section Ready

variable {entries : List BootEntry} {policy : Policy} (s : GuiState)

lemma paint_eq (entries : List BootEntry) (policy : Policy) : ∃ dirty second painted,
    s.paint entries policy =
      { s with dirty := dirty, lastDrawnSecond := second, painted := painted } := by
  unfold paint
  split_ifs
  · exact ⟨_, _, _, rfl⟩
  · exact ⟨_, _, _, rfl⟩

lemma checkTimeout_eq (entries : List BootEntry) (policy : Policy) : ∃ timedOut,
    s.checkTimeout entries policy = { s with timedOut := timedOut } := by
  unfold checkTimeout
  split_ifs
  · exact ⟨_, rfl⟩
  · exact ⟨_, rfl⟩

lemma ready_eq : ∃ dirty second painted timedOut, s.ready entries policy =
    { s with
      dirty := dirty, lastDrawnSecond := second, painted := painted, timedOut := timedOut } := by
  obtain ⟨dirty, second, painted, hpaint⟩ := s.paint_eq entries policy
  obtain ⟨timedOut, htimeout⟩ := (s.paint entries policy).checkTimeout_eq entries policy
  refine ⟨dirty, second, painted, timedOut, ?_⟩
  rw [ready, htimeout, hpaint]

@[simp] lemma ready_ctx : (s.ready entries policy).ctx = s.ctx := by
  obtain ⟨dirty, second, painted, timedOut, h⟩ := ready_eq (s := s)
  rw [h]

@[simp] lemma ready_userInteracted :
    (s.ready entries policy).userInteracted = s.userInteracted := by
  obtain ⟨dirty, second, painted, timedOut, h⟩ := ready_eq (s := s)
  rw [h]

@[simp] lemma ready_elapsedFrames : (s.ready entries policy).elapsedFrames = s.elapsedFrames := by
  obtain ⟨dirty, second, painted, timedOut, h⟩ := ready_eq (s := s)
  rw [h]

lemma ready_timedOut : (s.ready entries policy).timedOut =
    (s.timedOut || decide (s.userInteracted = false ∧ timeoutMs entries policy > 0 ∧
      s.elapsedFrames * 16 ≥ timeoutMs entries policy)) := by
  obtain ⟨dirty, second, painted, hpaint⟩ := s.paint_eq entries policy
  rw [ready, hpaint]
  unfold checkTimeout
  split_ifs with h
  · simp_all
  · simp_all

end Ready

end GuiState

end LamBoot.Menu
