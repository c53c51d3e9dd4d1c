import LamBoot.Boot.Iso

/-!
# The menu of a `loopback.cfg`

The blocks of a configuration, and which of its lines `parse_first_menuentry` looks at: from the
first `menuentry` or `submenu` up to where the braces, counted line by line, first close.
-/

namespace LamBoot

open List Text Option

/-! ### Blocks -/

def significant (raws : List Text) : List Text :=
  (raws.map trim).filter fun line => ¬ (line = [] ∨ line.head? = some '#')

/-- A configuration with balanced blocks: a line that ends in a brace, what is in the block, and a
line with the closing brace. -/
inductive Menu where
  | nil
  | line (text : Text) (plain : text ≠ "\x7d" ∧ text.getLast? ≠ some '\x7b') (rest : Menu)
  | block (header : Text) (opens : header.getLast? = some '\x7b') (body rest : Menu)

def Menu.lines : Menu → List Text
  | nil => []
  | line text _ rest => text :: rest.lines
  | block header _ body rest => header :: (body.lines ++ "\x7d".toList :: rest.lines)

def Menu.entries : Menu → List (List Text)
  | nil => []
  | line _ _ rest => rest.entries
  | block header _ body rest =>
    (if firstWord header = "menuentry" then [body.lines] else body.entries) ++ rest.entries

def kernelLine (line : Text) : Option (Text × Text) := do
  let rest ← stripKw line ["linux", "linux16", "linuxefi"]
  let path := rest.takeWhile (!isWhitespace ·)
  if path = [] then none else some (path, trim ((rest.dropWhile (!isWhitespace ·)).drop 1))

def initrdLine (line : Text) : Option Text := do
  let rest ← stripKw line ["initrd", "initrd16", "initrdefi"]
  (splitWhitespace rest).head?

def readEntry (isoPath : Text) (body : List Text) : Option LoopbackEntry := do
  let (kernel, args) ← body.findSome? kernelLine
  let initrd ← body.findSome? initrdLine
  return { kernel, initrd, options := substituteIsoPath args isoPath }

/-- The lines have a kernel and an initrd. -/
def Bootable (body : List Text) : Prop :=
  (∃ line ∈ body, (kernelLine line).isSome) ∧ ∃ line ∈ body, (initrdLine line).isSome
deriving Decidable

lemma readEntry_isSome_iff (isoPath : Text) (body : List Text) :
    (readEntry isoPath body).isSome ↔ Bootable body := by
  rw [Bootable, ← findSome?_isSome_iff, ← findSome?_isSome_iff, readEntry]
  cases body.findSome? kernelLine <;> cases body.findSome? initrdLine <;> simp

lemma readEntry_of_initial (isoPath : Text) {body body' : List Text} (h : body <+: body')
    (hbody : Bootable body) : readEntry isoPath body' = readEntry isoPath body := by
  obtain ⟨rest, rfl⟩ := h
  rw [Bootable, ← findSome?_isSome_iff, ← findSome?_isSome_iff] at hbody
  rw [readEntry, findSome?_append, findSome?_append, or_of_isSome hbody.1,
    or_of_isSome hbody.2]
  rfl

lemma findSome?_readEntry (isoPath : Text) (entries : List (List Text)) :
    entries.findSome? (readEntry isoPath) =
      (entries.find? (Bootable ·)).bind (readEntry isoPath) := by
  induction entries with
  | nil => rfl
  | cons entry entries ih =>
    rw [List.findSome?_cons, find?_cons]
    by_cases hentry : Bootable entry
    · obtain ⟨read, hread⟩ :=
        isSome_iff_exists.mp ((readEntry_isSome_iff isoPath entry).mpr hentry)
      rw [decide_eq_true hentry, hread, bind_some, hread]
    · have hread := mt (readEntry_isSome_iff isoPath entry).mp hentry
      rw [decide_eq_false hentry, not_isSome_iff_eq_none.mp hread, ih]

/-! ### The lines that are looked at -/

def opensMenu (line : Text) : Bool :=
  firstWord line = "menuentry" || firstWord line = "submenu"

lemma opensMenu_iff {line : Text} :
    opensMenu line = true ↔ firstWord line = "menuentry" ∨ firstWord line = "submenu" := by
  rw [opensMenu, Bool.or_eq_true, decide_eq_true_iff, decide_eq_true_iff]

def openPart (depth : Int) (sawOpen : Bool) : List Text → List Text
  | [] => []
  | line :: rest =>
    let depth := depth + countBraces line
    let sawOpen := sawOpen || 0 < depth
    line :: if sawOpen && depth ≤ 0 then [] else openPart depth sawOpen rest

/-- The lines after the first one that begins with `menuentry` or `submenu`. -/
def afterHeader (lines : List Text) : List Text :=
  (lines.dropWhile (!opensMenu ·)).tail

def scanned (lines : List Text) : List Text :=
  match lines.dropWhile (!opensMenu ·) with
  | [] => []
  | header :: rest => openPart (countBraces header) (0 < countBraces header) rest

lemma openPart_prefix (depth : Int) (sawOpen : Bool) (lines : List Text) :
    openPart depth sawOpen lines <+: lines := by
  induction lines generalizing depth sawOpen with
  | nil => exact prefix_rfl
  | cons line rest ih =>
    rw [openPart]
    split
    · exact cons_prefix_cons.mpr ⟨rfl, nil_prefix⟩
    · exact cons_prefix_cons.mpr ⟨rfl, ih _ _⟩

lemma scanned_initial (lines : List Text) : scanned lines <+: afterHeader lines := by
  unfold scanned afterHeader
  cases lines.dropWhile (!opensMenu ·) with
  | nil => exact prefix_rfl
  | cons header rest => exact openPart_prefix _ _ rest

lemma MenuScan.readCommand_eq (s : MenuScan) (line : Text) :
    s.readCommand line =
      { s with
        kernel := s.kernel.or (kernelLine line)
        initrd := s.initrd.or (initrdLine line) } := by
  obtain ⟨started, depth, sawOpen, kernel, initrd⟩ := s
  unfold readCommand kernelLine initrdLine
  cases kernel <;> cases initrd <;> cases stripKw line ["linux", "linux16", "linuxefi"] <;>
    cases stripKw line ["initrd", "initrd16", "initrdefi"] <;> grind

lemma findSome?_cons_or {α : Type} (f : Text → Option α) (line : Text) (rest : List Text) :
    (line :: rest).findSome? f = (f line).or (rest.findSome? f) := by
  rw [List.findSome?_cons]
  cases f line <;> rfl

lemma significant_cons (raw : Text) (rest : List Text) :
    significant (raw :: rest) =
      if trim raw = [] ∨ (trim raw).head? = some '#' then significant rest
      else trim raw :: significant rest := by
  rw [significant, map_cons]
  split_ifs with h
  · exact filter_cons_of_neg fun hkeep => of_decide_eq_true hkeep h
  · exact filter_cons_of_pos (decide_eq_true h)

lemma MenuScan.run_started {s : MenuScan} (hs : s.started = true) (raws : List Text) :
    (s.run raws).kernel =
        s.kernel.or ((openPart s.depth s.sawOpen (significant raws)).findSome? kernelLine) ∧
      (s.run raws).initrd =
        s.initrd.or ((openPart s.depth s.sawOpen (significant raws)).findSome? initrdLine) := by
  induction raws generalizing s with
  | nil => exact ⟨or_none.symm, or_none.symm⟩
  | cons raw rest ih =>
    rw [MenuScan.run, significant_cons]
    by_cases hskip : trim raw = [] ∨ (trim raw).head? = some '#'
    · rw [if_pos hskip, if_pos hskip]
      exact ih hs
    · rw [if_neg hskip, if_neg hskip, hs, Bool.not_true, if_neg Bool.false_ne_true, openPart,
        findSome?_cons_or, findSome?_cons_or, ← Option.or_assoc, ← Option.or_assoc,
        MenuScan.readCommand_eq]
      dsimp only
      by_cases hclosed : ((s.sawOpen || 0 < s.depth + countBraces (trim raw)) &&
          s.depth + countBraces (trim raw) ≤ 0) = true
      · rw [if_pos hclosed, hclosed, Bool.true_or, if_pos rfl]
        exact ⟨or_none.symm, or_none.symm⟩
      · rw [if_neg hclosed, Bool.eq_false_of_not_eq_true hclosed, Bool.false_or]
        split_ifs with hboth
        · -- the loop ends here: what follows is not read, and would not be taken
          rw [Bool.and_eq_true, isSome_iff_exists, isSome_iff_exists] at hboth
          obtain ⟨⟨kernel, hkernel⟩, initrd, hinitrd⟩ := hboth
          rw [hkernel, hinitrd]
          exact ⟨rfl, rfl⟩
        · exact ih hs

lemma MenuScan.run_eq (raws : List Text) :
    (MenuScan.run {} raws).kernel = (scanned (significant raws)).findSome? kernelLine ∧
      (MenuScan.run {} raws).initrd = (scanned (significant raws)).findSome? initrdLine := by
  induction raws with
  | nil => exact ⟨rfl, rfl⟩
  | cons raw rest ih =>
    rw [MenuScan.run, significant_cons]
    by_cases hskip : trim raw = [] ∨ (trim raw).head? = some '#'
    · rw [if_pos hskip, if_pos hskip]
      exact ih
    · have hstarted : (!({} : MenuScan).started) = true := rfl
      rw [if_neg hskip, if_neg hskip, if_pos hstarted, scanned, dropWhile_cons]
      by_cases hopens : opensMenu (trim raw) = true
      · rw [if_pos (opensMenu_iff.mp hopens), hopens, Bool.not_true, if_neg Bool.false_ne_true]
        dsimp only
        rw [Int.zero_add]
        exact MenuScan.run_started rfl rest
      · rw [if_neg (mt opensMenu_iff.mpr hopens), Bool.eq_false_of_not_eq_true hopens,
          Bool.not_false, if_pos rfl]
        exact ih

lemma parseFirstMenuentry_eq (cfg isoPath : Text) :
    parseFirstMenuentry cfg isoPath = readEntry isoPath (scanned (significant (lines cfg))) := by
  obtain ⟨hkernel, hinitrd⟩ := MenuScan.run_eq (lines cfg)
  rw [parseFirstMenuentry, hkernel, hinitrd]
  rfl

/-! ### Braces -/

/-- No line has unbalanced braces or is a menu entry of its own, and each block begins with one
opening brace. -/
def Menu.Plain : Menu → Prop
  | nil => True
  | line text _ rest => countBraces text = 0 ∧ opensMenu text = false ∧ rest.Plain
  | block header _ body rest => countBraces header = 1 ∧ body.Plain ∧ rest.Plain

/-- The first `menuentry` or `submenu`. -/
def Menu.firstBlock : Menu → Option Menu
  | nil => none
  | line _ _ rest => rest.firstBlock
  | block header _ body rest =>
    if opensMenu header then some body else body.firstBlock.or rest.firstBlock

lemma Menu.Plain.openPart_lines {menu : Menu} (h : menu.Plain) {depth : Int} (hdepth : 0 < depth)
    (after : List Text) :
    openPart depth true (menu.lines ++ after) = menu.lines ++ openPart depth true after := by
  induction menu generalizing depth after with
  | nil => rfl
  | line text plain rest ih =>
    obtain ⟨hcount, -, hrest⟩ := h
    rw [Menu.lines, cons_append, openPart, hcount, Int.add_zero,
      if_neg (by simp [hdepth]), Bool.true_or, ih hrest hdepth, cons_append]
  | block header opens body rest ihbody ihrest =>
    obtain ⟨hcount, hbody, hrest⟩ := h
    have hclose : countBraces "\x7d" = -1 := by decide
    rw [Menu.lines, cons_append, openPart, hcount, if_neg (by simp; omega), Bool.true_or,
      append_assoc, ihbody hbody (by omega), cons_append, openPart, hclose]
    rw [Int.add_neg_cancel_right, if_neg (by simp [hdepth]), Bool.true_or, ihrest hrest hdepth]
    simp

lemma opensMenu_close : opensMenu "\x7d" = false := by
  decide

lemma Menu.not_opensMenu {menu : Menu} (h : menu.Plain) (hnone : menu.firstBlock = none) :
    ∀ line ∈ menu.lines, opensMenu line = false := by
  induction menu with
  | nil => exact nofun
  | line text plain rest ih => exact forall_mem_cons.mpr ⟨h.2.1, ih h.2.2 hnone⟩
  | block header opens body rest ihbody ihrest =>
    rw [Menu.firstBlock] at hnone
    split_ifs at hnone with hheader
    rw [or_eq_none_iff] at hnone
    rw [Menu.lines, forall_mem_cons, forall_mem_append, forall_mem_cons]
    exact ⟨Bool.eq_false_of_not_eq_true hheader, ihbody h.2.1 hnone.1, opensMenu_close,
      ihrest h.2.2 hnone.2⟩

lemma Menu.Plain.lines_eq {menu block : Menu} (h : menu.Plain)
    (hblock : menu.firstBlock = some block) : ∃ before header after,
      menu.lines = before ++ header :: (block.lines ++ "\x7d".toList :: after) ∧
        (∀ line ∈ before, opensMenu line = false) ∧ opensMenu header = true ∧
          countBraces header = 1 ∧ block.Plain := by
  induction menu with
  | nil => exact nomatch hblock
  | line text plain rest ih =>
    obtain ⟨before, header, after, hlines, hbefore, hheader⟩ := ih h.2.2 hblock
    exact ⟨text :: before, header, after, congrArg (text :: ·) hlines,
      forall_mem_cons.mpr ⟨h.2.1, hbefore⟩, hheader⟩
  | block header opens body rest ihbody ihrest =>
    obtain ⟨hcount, hbody, hrest⟩ := h
    rw [Menu.firstBlock] at hblock
    split_ifs at hblock with hheader
    · obtain rfl := some.inj hblock
      exact ⟨[], header, rest.lines, rfl, nofun, hheader, hcount, hbody⟩
    · rw [Bool.not_eq_true] at hheader
      cases hinner : body.firstBlock with
      | some inner =>
        rw [hinner, some_or] at hblock
        obtain rfl := some.inj hblock
        obtain ⟨before, first, after, hlines, hbefore, hfirst⟩ := ihbody hbody hinner
        refine ⟨header :: before, first, after ++ "\x7d".toList :: rest.lines, ?_,
          forall_mem_cons.mpr ⟨hheader, hbefore⟩, hfirst⟩
        rw [Menu.lines, hlines]
        simp
      | none =>
        rw [hinner, none_or] at hblock
        obtain ⟨before, first, after, hlines, hbefore, hfirst⟩ := ihrest hrest hblock
        refine ⟨header :: (body.lines ++ "\x7d".toList :: before), first, after, ?_, ?_, hfirst⟩
        · rw [Menu.lines, hlines]
          simp
        · rw [forall_mem_cons, forall_mem_append, forall_mem_cons]
          exact ⟨hheader, Menu.not_opensMenu hbody hinner, opensMenu_close, hbefore⟩

lemma Menu.Plain.scanned_lines {menu block : Menu} (h : menu.Plain)
    (hblock : menu.firstBlock = some block) :
    scanned menu.lines = block.lines ++ ["\x7d".toList] := by
  obtain ⟨before, header, after, hlines, hbefore, hheader, hcount, hplain⟩ := h.lines_eq hblock
  have hdrop : menu.lines.dropWhile (!opensMenu ·) =
      header :: (block.lines ++ "\x7d".toList :: after) := by
    rw [hlines, dropWhile_append_of_pos (by simpa using hbefore),
      dropWhile_cons_of_neg (by simp [hheader])]
  have hclose : openPart 1 true ("\x7d".toList :: after) = ["\x7d".toList] := by
    rw [openPart, if_pos (by decide)]
  rw [scanned, hdrop]
  dsimp only
  rw [hcount]
  exact (hplain.openPart_lines one_pos _).trans (congrArg (block.lines ++ ·) hclose)

lemma readEntry_append_close (isoPath : Text) (body : List Text) :
    readEntry isoPath (body ++ ["\x7d".toList]) = readEntry isoPath body := by
  have hkernel : ["\x7d".toList].findSome? kernelLine = none := by decide
  have hinitrd : ["\x7d".toList].findSome? initrdLine = none := by decide
  rw [readEntry, findSome?_append, findSome?_append, hkernel, hinitrd, or_none, or_none]
  rfl

/-- A body reads as the first complete entry just if it is complete when there is one, and reads as
that one. -/
lemma readEntry_eq_findSome?_iff (isoPath : Text) (body : List Text) (entries : List (List Text)) :
    readEntry isoPath body = entries.findSome? (readEntry isoPath) ↔
      (Bootable body ↔ ∃ entry ∈ entries, Bootable entry) ∧
        ∀ entry, entries.find? (Bootable ·) = some entry →
          readEntry isoPath body = readEntry isoPath entry := by
  have hbody := readEntry_isSome_iff isoPath body
  rw [findSome?_readEntry]
  cases hfirst : entries.find? (Bootable ·) with
  | some entry =>
    have hentry : Bootable entry := by simpa using find?_some hfirst
    have hexists : ∃ entry ∈ entries, Bootable entry :=
      ⟨entry, mem_of_find?_eq_some hfirst, hentry⟩
    rw [bind_some, iff_true_right hexists]
    constructor
    · intro heq
      refine ⟨hbody.mp (heq ▸ (readEntry_isSome_iff isoPath entry).mpr hentry), ?_⟩
      rintro other ⟨⟩
      exact heq
    · rintro ⟨-, hsame⟩
      exact hsame entry rfl
  | none =>
    have hnone : ¬ ∃ entry ∈ entries, Bootable entry := by
      rintro ⟨entry, hmem, hentry⟩
      exact find?_eq_none.mp hfirst entry hmem (decide_eq_true hentry)
    rw [bind_none, iff_false_right hnone, ← hbody, not_isSome_iff_eq_none]
    exact (and_iff_left nofun).symm

/-- What is returned belongs to the first complete menu entry just if there is one whenever the
lines of the first block have a kernel and an initrd, and conversely, and the first ones are those
of the entry. In a plain menu these are the lines of the first `menuentry` or `submenu`. -/
theorem parseFirstMenuentry_iff {cfg : Text} {menu : Menu}
    (hcfg : significant (lines cfg) = menu.lines) (isoPath : Text) :
    (parseFirstMenuentry cfg isoPath = menu.entries.findSome? (readEntry isoPath) ↔
      (Bootable (scanned menu.lines) ↔ ∃ entry ∈ menu.entries, Bootable entry) ∧
        ∀ entry, menu.entries.find? (Bootable ·) = some entry →
          readEntry isoPath (afterHeader menu.lines) = readEntry isoPath entry) ∧
    (menu.Plain → ∀ block, menu.firstBlock = some block →
      scanned menu.lines = block.lines ++ ["\x7d".toList] ∧
      (parseFirstMenuentry cfg isoPath = menu.entries.findSome? (readEntry isoPath) ↔
        (Bootable block.lines ↔ ∃ entry ∈ menu.entries, Bootable entry) ∧
          ∀ entry, menu.entries.find? (Bootable ·) = some entry →
            readEntry isoPath block.lines = readEntry isoPath entry)) := by
  rw [parseFirstMenuentry_eq, hcfg]
  constructor
  · rw [readEntry_eq_findSome?_iff]
    refine and_congr_right fun hboot => forall₂_congr fun entry hfirst => ?_
    have hentry : Bootable entry := by simpa using find?_some hfirst
    have hscanned := hboot.mpr ⟨entry, mem_of_find?_eq_some hfirst, hentry⟩
    rw [readEntry_of_initial isoPath (scanned_initial menu.lines) hscanned]
  · intro hplain block hblock
    have hlines := hplain.scanned_lines hblock
    rw [hlines, readEntry_append_close]
    exact ⟨rfl, readEntry_eq_findSome?_iff isoPath block.lines menu.entries⟩

def Menu.text (menu : Menu) : Text :=
  menu.lines.flatMap (· ++ ['\n'])

def liveEntry : Menu :=
  .block "menuentry b \x7b" (by decide)
    (.line "linux /b quiet" (by decide) (.line "initrd /i" (by decide) .nil)) .nil

def twoEntries (header : Text) (opens : header.getLast? = some '\x7b') : Menu :=
  .block header opens (.line "linux /a" (by decide) .nil) liveEntry

theorem parseFirstMenuentry_iff_liveEntry :
    parseFirstMenuentry liveEntry.text "/a.iso" = some ⟨"/b", "/i", "quiet"⟩ := by
  have hcfg : significant (lines liveEntry.text) = liveEntry.lines := by decide
  refine ((parseFirstMenuentry_iff hcfg "/a.iso").1.mpr ?_).trans (by decide)
  decide

/-- The second of two entries is not found. In a submenu, or after a title with a brace, its initrd
is returned with the kernel of the first. -/
theorem parseFirstMenuentry_twoEntries :
    let entries := twoEntries "menuentry a \x7b" (by decide)
    let nested := Menu.block "submenu s \x7b" (by decide) entries .nil
    let title := twoEntries "menuentry \x7b \x7b" (by decide)
    (∀ menu ∈ [entries, nested, title], significant (lines menu.text) = menu.lines ∧
      menu.entries.findSome? (readEntry "/a.iso") = some ⟨"/b", "/i", "quiet"⟩) ∧
    parseFirstMenuentry entries.text "/a.iso" = none ∧
    parseFirstMenuentry nested.text "/a.iso" = some ⟨"/a", "/i", []⟩ ∧
    parseFirstMenuentry title.text "/a.iso" = some ⟨"/a", "/i", []⟩ := by
  decide

end LamBoot
