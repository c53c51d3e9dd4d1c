import LamBoot.Tools.Shell

/-!
# The menu entry on a Proxmox host

On a Proxmox host GRUB stays, and LamBoot is started from an entry that the installer keeps between
two marks in GRUB's custom file. Each installation leaves a line feed behind, and a block that has
lost its end mark takes everything behind it along.
-/

namespace LamBoot.Proxmox

open List

/-! ### Files by lines -/

def linesOf (content : Text) : List Text :=
  let pieces := content.splitOn '\n'
  pieces.dropLast.map (· ++ ['\n']) ++ pieces.getLast?.toList.filter (· ≠ [])

/-- `/^mark$/`. -/
def Marked (mark line : Text) : Prop :=
  line = mark ∨ line = mark ++ ['\n']
deriving Decidable

/-- `grep -q "^mark$"`. -/
def HasMark (mark content : Text) : Prop :=
  mark ∈ content.splitOn '\n'
deriving Decidable

/-- `sed '/^first$/,/^last$/d'`: the lines that are left, where the flag says that a range is open.
-/
def deleteRange (first last : Text) : Bool → List Text → List Text
  | _, [] => []
  | false, line :: rest =>
    if Marked first line then deleteRange first last true rest
    else line :: deleteRange first last false rest
  | true, line :: rest => deleteRange first last (¬ Marked last line) rest

/-! ### The entry -/

def beginMark : Text := "### BEGIN lamboot-install --proxmox-host ###"

def endMark : Text := "### END lamboot-install --proxmox-host ###"

/-- What the installer knows when it comes to the entry. -/
structure Setup where
  espUuid : Line
  efiBinary : Line
  optRoot : Text
  dryRun : Bool

/-- How a run ends: its status, what it reports, and the custom file. -/
structure Outcome where
  ok : Bool
  report : Text
  target : Option Text
deriving DecidableEq

namespace Setup

variable (s : Setup)

def path : Text :=
  s.optRoot ++ "/etc/grub.d/40_custom"

def blockLines : List Text :=
  [beginMark, "menuentry \"LamBoot (chainload)\" --class lamboot --class os \x7b",
    "    insmod part_gpt", "    insmod fat", "    insmod chain",
    "    search --no-floppy --fs-uuid --set=root " ++ s.espUuid.val,
    "    chainloader /EFI/LamBoot/" ++ s.efiBinary.val, "\x7d"]

def menuentryBlock : Text :=
  '\n' :: (s.blockLines ++ [endMark]).flatMap (· ++ ['\n'])

def stripped (content : Text) : Text :=
  (deleteRange beginMark endMark false (linesOf content)).flatten

def installMenuentry (target : Option Text) : Outcome :=
  match target with
  | none =>
    { ok := false
      report := s.path ++ " not present — Proxmox-host install requires GRUB; skipping menuentry"
      target := none }
  | some content =>
    if HasMark beginMark content then
      if s.dryRun then
        ⟨true, "(dry-run) would replace LamBoot block in " ++ s.path, some content⟩
      else
        ⟨true, "Replaced LamBoot menuentry in " ++ s.path,
          some (stripped content ++ s.menuentryBlock)⟩
    else
      if s.dryRun then
        ⟨true, "(dry-run) would append LamBoot menuentry to " ++ s.path, some content⟩
      else
        ⟨true, "Appended LamBoot menuentry to " ++ s.path, some (content ++ s.menuentryBlock)⟩

def removeMenuentry (target : Option Text) : Outcome :=
  match target with
  | none => ⟨true, [], none⟩
  | some content =>
    if ¬ HasMark beginMark content then
      ⟨true, "no LamBoot menuentry in " ++ s.path, some content⟩
    else
      if s.dryRun then
        ⟨true, "(dry-run) would remove LamBoot block from " ++ s.path, some content⟩
      else
        ⟨true, "Removed LamBoot menuentry from " ++ s.path, some (stripped content)⟩

end Setup

/-! ### Lines -/

section Lines

variable {c t mark first last : Text} {xs ys : List Text}

lemma splitOn_append_newline (c t : Text) :
    (c ++ '\n' :: t).splitOn '\n' = c.splitOn '\n' ++ t.splitOn '\n' :=
  splitOnP_append_cons c t (beq_self_eq_true _)

lemma linesOf_of_splitOn (h : c.splitOn '\n' = xs ++ t.splitOn '\n') :
    linesOf c = xs.map (· ++ ['\n']) ++ linesOf t := by
  have hne : t.splitOn '\n' ≠ [] := splitOnP_ne_nil _ t
  rw [linesOf, linesOf, h, dropLast_append_of_ne_nil hne, map_append, append_assoc,
    getLast?_append_of_ne_nil _ hne]

lemma splitOn_flatMap (h : ∀ line ∈ xs, '\n' ∉ line) :
    (xs.flatMap (· ++ ['\n']) ++ t).splitOn '\n' = xs ++ t.splitOn '\n' := by
  induction xs with
  | nil => rfl
  | cons line xs ih =>
    rw [forall_mem_cons] at h
    rw [flatMap_cons, append_assoc, append_assoc, singleton_append,
      splitOn_append_newline, splitOn_eq_singleton h.1, ih h.2]
    rfl

lemma hasMark_append_newline (hmark : mark ≠ []) : HasMark mark (c ++ ['\n']) ↔ HasMark mark c := by
  rw [HasMark, splitOn_append_newline, mem_append, HasMark]
  simp [hmark]

lemma flatten_lines (c : Text) : ((c.splitOn '\n').map (· ++ ['\n'])).flatten = c ++ ['\n'] := by
  have hjoin : ∀ first rest, ((first :: rest).map (· ++ ['\n'])).flatten =
      ['\n'].intercalate (first :: rest) ++ ['\n'] := by
    intro first rest
    induction rest generalizing first with
    | nil => simp
    | cons next rest ih => rw [map_cons, flatten_cons, ih]; simp
  obtain ⟨first, rest, h⟩ := exists_cons_of_ne_nil (splitOnP_ne_nil (· == '\n') c)
  have hc : ['\n'].intercalate (c.splitOn '\n') = c := intercalate_splitOn _
  rw [splitOn, h] at hc ⊢
  rw [hjoin, hc]

lemma marked_line (hmark : '\n' ∉ mark) (line : Text) :
    Marked mark (line ++ ['\n']) ↔ line = mark := by
  constructor
  · rintro (h | h)
    · exact absurd (h ▸ by simp : '\n' ∈ mark) hmark
    · exact append_cancel_right h
  · rintro rfl
    exact .inr rfl

lemma deleteRange_before (h : ∀ line ∈ xs, ¬ Marked first line) :
    deleteRange first last false (xs ++ ys) = xs ++ deleteRange first last false ys := by
  induction xs with
  | nil => rfl
  | cons line xs ih =>
    rw [forall_mem_cons] at h
    rw [cons_append, deleteRange, if_neg h.1, ih h.2, cons_append]

lemma deleteRange_inside (h : ∀ line ∈ xs, ¬ Marked last line) :
    deleteRange first last true (xs ++ ys) = deleteRange first last true ys := by
  induction xs with
  | nil => rfl
  | cons line xs ih =>
    rw [forall_mem_cons] at h
    rw [cons_append, deleteRange]
    simpa [h.1] using ih h.2

end Lines

/-! ### Runs -/

namespace Setup

variable {s : Setup} {c after : Text}

lemma oneLine_blockLines : ∀ line ∈ s.blockLines, '\n' ∉ line := by
  intro line hline
  simp only [blockLines, mem_cons, not_mem_nil, or_false] at hline
  rcases hline with rfl | rfl | rfl | rfl | rfl | rfl | rfl | rfl
  case inr.inr.inr.inr.inr.inl =>
    exact fun h => (mem_append.mp h).elim (by decide) s.espUuid.prop
  case inr.inr.inr.inr.inr.inr.inl =>
    exact fun h => (mem_append.mp h).elim (by decide) s.efiBinary.prop
  all_goals decide

lemma not_marked_blockLines :
    ∀ line ∈ s.blockLines.tail.map (· ++ ['\n']), ¬ Marked endMark line := by
  intro line hline
  obtain ⟨piece, hpiece, rfl⟩ := mem_map.mp hline
  rw [marked_line (by decide)]
  simp only [blockLines, tail_cons, mem_cons, not_mem_nil, or_false] at hpiece
  have hhead : piece.head? ≠ some '#' := by
    rcases hpiece with rfl | rfl | rfl | rfl | rfl | rfl | rfl
    all_goals exact fun h => absurd (Option.some.inj h) (by decide)
  rintro rfl
  exact hhead rfl

lemma stripped_file (h : ¬ HasMark beginMark c) (t : Text) :
    stripped (c ++ '\n' :: (s.blockLines.flatMap (· ++ ['\n']) ++ t)) =
      c ++ '\n' :: (deleteRange beginMark endMark true (linesOf t)).flatten := by
  have hbefore : ∀ line ∈ (c.splitOn '\n').map (· ++ ['\n']), ¬ Marked beginMark line := by
    intro line hline
    obtain ⟨piece, hpiece, rfl⟩ := mem_map.mp hline
    rw [marked_line (by decide)]
    rintro rfl
    exact h hpiece
  rw [stripped, linesOf_of_splitOn (splitOn_append_newline c _),
    linesOf_of_splitOn (splitOn_flatMap oneLine_blockLines), deleteRange_before hbefore,
    flatten_append, flatten_lines, append_assoc, singleton_append]
  exact congrArg (c ++ '\n' :: flatten ·) (deleteRange_inside not_marked_blockLines)

lemma menuentryBlock_eq : s.menuentryBlock =
    '\n' :: (s.blockLines.flatMap (· ++ ['\n']) ++ (endMark ++ ['\n'])) := by
  rw [menuentryBlock, flatMap_append, flatMap_singleton]

lemma hasMark_file (c t : Text) :
    HasMark beginMark (c ++ '\n' :: (s.blockLines.flatMap (· ++ ['\n']) ++ t)) := by
  rw [HasMark, splitOn_append_newline, splitOn_flatMap oneLine_blockLines]
  exact mem_append_right _ (mem_append_left _ mem_cons_self)

lemma stripped_block (h : ¬ HasMark beginMark c) :
    stripped (c ++ s.menuentryBlock) = c ++ ['\n'] := by
  rw [menuentryBlock_eq, stripped_file h]
  have hend : deleteRange beginMark endMark true (linesOf (endMark ++ ['\n'])) = [] := by decide
  rw [hend]
  rfl

lemma installMenuentry_of_not_hasMark (hdry : s.dryRun = false) (h : ¬ HasMark beginMark c) :
    (s.installMenuentry (some c)).target = some (c ++ s.menuentryBlock) := by
  simp [installMenuentry, h, hdry]

lemma hasMark_block (c : Text) : HasMark beginMark (c ++ s.menuentryBlock) := by
  rw [menuentryBlock_eq]
  exact hasMark_file c _

/-- Every further installation leaves one more line feed. -/
theorem installs_eq (hdry : s.dryRun = false) (h : ¬ HasMark beginMark c) (n : Nat) :
    (fun target => (s.installMenuentry target).target)^[n] (some (c ++ s.menuentryBlock)) =
      some (c ++ replicate n '\n' ++ s.menuentryBlock) := by
  induction n generalizing c with
  | zero => simp
  | succ n ih =>
    have hstep : (s.installMenuentry (some (c ++ s.menuentryBlock))).target =
        some (c ++ ['\n'] ++ s.menuentryBlock) := by
      simp [installMenuentry, hasMark_block, hdry, stripped_block h]
    rw [Function.iterate_succ_apply, hstep, ih (mt (hasMark_append_newline (by decide)).mp h),
      replicate_succ, append_assoc c, singleton_append]

/-- A file with a block, which may have lost its end mark, and with other lines behind it. -/
def blockFile (s : Setup) (c : Text) (ended : Bool) (after : Text) : Text :=
  c ++ '\n' :: (s.blockLines.flatMap (· ++ ['\n']) ++
    ((if ended then endMark ++ ['\n'] else []) ++ after))

def Idempotent (s : Setup) (c : Text) : Prop :=
  let installed := (s.installMenuentry (some c)).target
  (s.installMenuentry installed).target = installed

/-- Removing the menu entry gives the file back. -/
def Restores (s : Setup) (c : Text) : Prop :=
  (s.removeMenuentry (s.installMenuentry (some c)).target).target = some c

/-- The lines before and behind the block stay, whether or not the block has its end mark. -/
def KeepsOutside (s : Setup) (c : Text) : Prop :=
  ∀ ended after, ¬ HasMark beginMark after → ¬ HasMark endMark after →
    ∀ run ∈ [s.installMenuentry, s.removeMenuentry],
      ∃ r ∈ (run (some (s.blockFile c ended after))).target,
        (linesOf (c ++ ['\n']) ++ linesOf after).Sublist (linesOf r)

/-- In a file without marks, a run that changes it keeps none of its promises. -/
theorem promises_iff_dryRun (hbegin : ¬ HasMark beginMark c) :
    (s.Idempotent c ↔ s.dryRun = true) ∧ (s.Restores c ↔ s.dryRun = true) ∧
      (s.KeepsOutside c ↔ s.dryRun = true) := by
  cases hdry : s.dryRun with
  | true =>
    have hinstall : ∀ content, (s.installMenuentry (some content)).target = some content := by
      intro content
      simp only [installMenuentry, hdry, if_true]
      split_ifs <;> rfl
    have hremove : ∀ content, (s.removeMenuentry (some content)).target = some content := by
      intro content
      simp only [removeMenuentry, hdry, if_true]
      split_ifs <;> rfl
    refine ⟨iff_of_true ?_ rfl, iff_of_true ?_ rfl, iff_of_true ?_ rfl⟩
    · simp only [Idempotent, hinstall]
    · rw [Restores, hinstall, hremove]
    · intro ended after _ _ run hrun
      refine ⟨s.blockFile c ended after, ?_, ?_⟩
      · rcases mem_pair.mp hrun with rfl | rfl
        · exact hinstall _
        · exact hremove _
      · have hafter : (linesOf after).Sublist
            (linesOf ((if ended then endMark ++ ['\n'] else []) ++ after)) := by
          cases ended with
          | false => exact .refl _
          | true =>
            rw [if_pos rfl, append_assoc, singleton_append,
              linesOf_of_splitOn (splitOn_append_newline endMark after)]
            exact sublist_append_right _ _
        rw [linesOf_of_splitOn (splitOn_append_newline c []), blockFile,
          linesOf_of_splitOn (splitOn_append_newline c (_ ++ _)),
          linesOf_of_splitOn (splitOn_flatMap oneLine_blockLines)]
        simpa [linesOf] using (hafter.trans (sublist_append_right _ _))
  | false =>
    have honce := installMenuentry_of_not_hasMark hdry hbegin
    have hremove : ∀ t, (s.removeMenuentry (some (c ++ '\n' ::
        (s.blockLines.flatMap (· ++ ['\n']) ++ t)))).target =
        some (c ++ '\n' :: (deleteRange beginMark endMark true (linesOf t)).flatten) := by
      intro t
      simp [removeMenuentry, hasMark_file, hdry, stripped_file hbegin]
    refine ⟨iff_of_false (fun h => ?_) (by decide), iff_of_false (fun h => ?_) (by decide),
      iff_of_false (fun h => ?_) (by decide)⟩
    · have htwice := installs_eq hdry hbegin 1
      rw [Idempotent, honce] at h
      simp [h] at htwice
    · rw [Restores, honce, menuentryBlock_eq, hremove, Option.some.injEq] at h
      simpa using congrArg length h
    · obtain ⟨r, hr, hsub⟩ := h false "x\n" (by decide) (by decide) s.removeMenuentry (by simp)
      have hlost : deleteRange beginMark endMark true (linesOf "x\n") = [] := by decide
      rw [blockFile, hremove, if_neg (by decide), nil_append, hlost] at hr
      obtain rfl := Option.some.inj hr
      have hlength := hsub.length_le
      have hline : (linesOf "x\n").length = 1 := by decide
      rw [length_append, hline] at hlength
      exact absurd hlength (by simp)

def host : Setup where
  espUuid := ⟨"1234-ABCD", by decide⟩
  efiBinary := ⟨"lambootx64.efi", by decide⟩
  optRoot := []
  dryRun := false

theorem promises_host : (host.Idempotent "#!/bin/sh\n" ↔ host.dryRun = true) ∧
    (host.Restores "#!/bin/sh\n" ↔ host.dryRun = true) ∧
      (host.KeepsOutside "#!/bin/sh\n" ↔ host.dryRun = true) :=
  promises_iff_dryRun (by decide)

theorem host_promises_fail :
    ¬ (host.Idempotent "#!/bin/sh\n" ∧ host.Restores "#!/bin/sh\n" ∧
      host.KeepsOutside "#!/bin/sh\n") := by
  rintro ⟨h, -⟩
  revert h
  unfold Idempotent
  decide +kernel

end Setup

end LamBoot.Proxmox
