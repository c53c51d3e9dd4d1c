import Mathlib.Data.List.AList
import LamBoot.Library.Text

/-!
# File trees

Directories and regular files without links, the way a path leads through them, and what `mkdir -p`,
`mv` of a file and `rmdir` do.
-/

namespace FileTree

open List Option

abbrev Place := List Text

inductive Node where
  | file (content : Text)
  | dir
deriving DecidableEq

abbrev Nodes := AList fun _ : Place => Node

namespace Nodes

variable (t : Nodes)

def isDir (p : Place) : Bool :=
  p = [] || t.lookup p = some .dir

def step (p : Place) (name : Text) : Option Place :=
  if t.isDir p then
    if name = [] ∨ name = ['.'] then some p
    else if name = ['.', '.'] then some p.dropLast
    else some (p ++ [name])
  else none

def resolve (start : Place) (path : Text) : Option Place :=
  (path.splitOn '/').foldlM t.step start

def fileAt (start : Place) (path : Text) : Option (Place × Text) :=
  (t.resolve start path).bind fun p =>
    match t.lookup p with
    | some (.file content) => some (p, content)
    | _ => none

/-- `mkdir -p`. -/
def makeDirs (p : Place) : Option Nodes :=
  p.inits.foldlM (fun t q =>
    if t.isDir q then some t
    else if (t.lookup q).isNone then some (t.insert q .dir)
    else none) t

/-- `mv` of a file of another name to a place, with the place where it comes to lie: in a directory
it keeps its name. -/
def put (name content : Text) (p : Place) : Option (Nodes × Place) :=
  let target := if t.isDir p then p ++ [name] else p
  if t.isDir p.dropLast ∧ ¬ t.isDir target then some (t.insert target (.file content), target)
  else none

/-- `rmdir`, which leaves a directory that is not empty. -/
def removeDir (p : Place) : Nodes :=
  if t.lookup p = some .dir ∧ ∀ q ∈ t.keys, p <+: q → q = p then t.erase p else t

variable {t} {t' : Nodes} {p q start : Place} {path name content : Text}

lemma isDir_iff : t.isDir p = true ↔ p = [] ∨ t.lookup p = some .dir := by
  simp [isDir]

lemma fileAt_eq_some_iff : t.fileAt start path = some (p, content) ↔
    t.resolve start path = some p ∧ t.lookup p = some (.file content) := by
  unfold fileAt
  cases t.resolve start path with
  | none => simp
  | some q =>
    rw [bind_some, some.injEq]
    split
    · next content' h =>
      rw [some.injEq, Prod.mk.injEq]
      constructor
      · rintro ⟨rfl, rfl⟩
        exact ⟨rfl, h⟩
      · rintro ⟨rfl, h'⟩
        rw [h, some.injEq, Node.file.injEq] at h'
        exact ⟨rfl, h'⟩
    · next h =>
      refine iff_of_false nofun ?_
      rintro ⟨rfl, h'⟩
      exact h content h'

/-! ### Paths -/

lemma resolve_congr (h : ∀ q, t.isDir q = t'.isDir q) :
    t.resolve start path = t'.resolve start path := by
  have hstep : t.step = t'.step := by
    funext p name
    simp only [step, h]
  rw [resolve, resolve, hstep]

def IsPlainName (name : Text) : Prop :=
  name ≠ [] ∧ name ≠ ['.'] ∧ name ≠ ['.', '.'] ∧ '/' ∉ name
deriving Decidable

lemma step_of_isPlainName (h : IsPlainName name) (hdir : t.isDir p = true) :
    t.step p name = some (p ++ [name]) := by
  obtain ⟨hne, hdot, hdots, -⟩ := h
  simp [step, hdir, hne, hdot, hdots]

lemma resolve_join {names : List Text} (hne : names ≠ [])
    (hnames : ∀ name ∈ names, IsPlainName name)
    (hdirs : ∀ q, q <+: names → q ≠ names → t.isDir (start ++ q) = true) :
    t.resolve start (Text.join ['/'] names) = some (start ++ names) := by
  have hsplit : (Text.join ['/'] names).splitOn '/' = names :=
    splitOn_intercalate '/' (fun name hname => (hnames name hname).2.2.2) hne
  rw [resolve, hsplit]
  clear hsplit hne
  induction names generalizing start with
  | nil => rw [append_nil]; rfl
  | cons name names ih =>
    have hstart : t.isDir start = true := by
      have hroot := hdirs [] nil_prefix (by simp)
      rwa [append_nil] at hroot
    rw [forall_mem_cons] at hnames
    rw [foldlM_cons, step_of_isPlainName hnames.1 hstart]
    have hbelow : ∀ q, q <+: names → q ≠ names → t.isDir (start ++ [name] ++ q) = true := by
      intro q hq hne
      rw [append_assoc]
      exact hdirs (name :: q) (cons_prefix_cons.mpr ⟨rfl, hq⟩) (by simpa using hne)
    have ih' := ih hnames.2 hbelow
    rw [append_assoc] at ih'
    exact ih'

lemma eq_of_resolve_join {names : List Text} (hne : names ≠ [])
    (hnames : ∀ name ∈ names, IsPlainName name)
    (h : t.resolve start (Text.join ['/'] names) = some p) : p = start ++ names := by
  have hsplit : (Text.join ['/'] names).splitOn '/' = names :=
    splitOn_intercalate '/' (fun name hname => (hnames name hname).2.2.2) hne
  rw [resolve, hsplit] at h
  clear hsplit hne
  induction names generalizing start with
  | nil =>
    rw [append_nil]
    exact (some.inj h).symm
  | cons name names ih =>
    rw [forall_mem_cons] at hnames
    rw [foldlM_cons, bind_eq_bind, bind_eq_some_iff] at h
    obtain ⟨q, hq, hrest⟩ := h
    have hdir : t.isDir start = true := by
      unfold step at hq
      split_ifs at hq with hdir <;> exact hdir
    rw [step_of_isPlainName hnames.1 hdir] at hq
    cases hq
    rw [ih hnames.2 hrest, append_assoc]
    rfl

/-! ### Changes -/

lemma isDir_erase_of_file (h : t.lookup p = some (.file content)) (q : Place) :
    isDir (t.erase p) q = t.isDir q := by
  unfold isDir
  by_cases hq : q = p
  · rw [hq, h, AList.lookup_erase]
    simp
  · rw [AList.lookup_erase_ne hq]

lemma lookup_removeDir {q : Place} :
    AList.lookup p (t.removeDir q) = some (.file content) ↔ t.lookup p = some (.file content) := by
  unfold removeDir
  split_ifs with hq
  · by_cases hp : p = q
    · rw [hp, AList.lookup_erase, hq.1]
      simp
    · rw [AList.lookup_erase_ne hp]
  · rfl

lemma makeDirs_append_singleton : t.makeDirs (p ++ [name]) =
    (t.makeDirs p).bind fun t' =>
      if t'.isDir (p ++ [name]) then some t'
      else if (t'.lookup (p ++ [name])).isNone then some (t'.insert (p ++ [name]) .dir)
      else none := by
  have hinits : (p ++ [name]).inits = p.inits ++ [p ++ [name]] := by simp
  rw [makeDirs, hinits, foldlM_append]
  simp [makeDirs]

lemma lookup_makeDirs (h : t.makeDirs p = some t') (q : Place) :
    t'.lookup q = t.lookup q ∨
      (t.lookup q = none ∧ t'.lookup q = some .dir ∧ q <+: p) := by
  induction p using List.reverseRecOn generalizing t' with
  | nil =>
    have ht : t = t' := by simpa [makeDirs, isDir] using h
    exact .inl (by rw [ht])
  | append_singleton p name ih =>
    rw [makeDirs_append_singleton, bind_eq_some_iff] at h
    obtain ⟨s, hs, h⟩ := h
    have ih' := (ih hs).imp_right fun hnew =>
      (⟨hnew.1, hnew.2.1, hnew.2.2.trans (prefix_append p [name])⟩ : _ ∧ _ ∧ q <+: p ++ [name])
    split_ifs at h with hdir hnone
    · cases h
      exact ih'
    · cases h
      by_cases hq : q = p ++ [name]
      · rw [isNone_iff_eq_none] at hnone
        subst hq
        rcases ih' with heq | ⟨-, hdir', -⟩
        · exact .inr ⟨by rw [← heq, hnone], AList.lookup_insert _, prefix_refl _⟩
        · rw [hnone] at hdir'
          cases hdir'
      · rwa [AList.lookup_insert_ne hq]

lemma put_eq_some_iff : t.put name content p = some (t', q) ↔
    t.isDir p.dropLast = true ∧ q = (if t.isDir p then p ++ [name] else p) ∧ t.isDir q = false ∧
      t' = t.insert q (.file content) := by
  unfold put
  dsimp only
  generalize (if t.isDir p = true then p ++ [name] else p) = target
  split_ifs with h
  · rw [some.injEq, Prod.mk.injEq]
    constructor
    · rintro ⟨rfl, rfl⟩
      exact ⟨h.1, rfl, by simpa using h.2, rfl⟩
    · rintro ⟨-, rfl, -, rfl⟩
      exact ⟨rfl, rfl⟩
  · refine iff_of_false nofun ?_
    rintro ⟨hparent, rfl, htarget, -⟩
    exact h ⟨hparent, by simpa using htarget⟩

lemma isDir_insert_file (h : t.isDir q = false) (r : Place) :
    isDir (t.insert q (.file content)) r = t.isDir r := by
  by_cases hr : r = q
  · subst hr
    have hroot : r ≠ [] := by
      rintro rfl
      cases h
    rw [h, isDir, AList.lookup_insert]
    simp [hroot]
  · unfold isDir
    rw [AList.lookup_insert_ne hr]

end Nodes

end FileTree
