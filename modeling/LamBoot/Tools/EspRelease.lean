import LamBoot.Tools.EspDeploy
import LamBoot.Tools.Ownership

/-!
# What a deploy writes and lists

The places that the files of a release go to, what a deploy leaves of the tree that it finds, and
the manifest that it can read back.
-/

namespace LamBoot.EspDeploy

open List Text BlsEntry Shell Installer FileTree

/-! ### Where a release goes -/

def partDirs : List Text :=
  ["modules", "drivers"]

def ownNames : List Text :=
  ["lambootx64.efi", "lambootaa64.efi", "policy.toml", "policy.toml.new"]

/-- A place that a release has files for. -/
def IsDest (rel : Place) : Prop :=
  (∃ name ∈ ownNames, rel = libDir ++ [name]) ∨
    ∃ dir ∈ partDirs, ∃ name, IsRowName name ∧ rel = libDir ++ [dir, name]

section Dest

variable {rel rel' : Place} {name : Text}

lemma IsDest.ne_append (h : IsDest rel) (h' : IsDest rel') : rel ≠ rel' ++ [name] := by
  have hdirs : ∀ dir ∈ partDirs, dir ∉ ownNames := by decide
  rintro rfl
  rcases h' with ⟨own, hown, rfl⟩ | ⟨dir, -, last, -, rfl⟩
  · rcases h with ⟨own', -, h⟩ | ⟨dir, hdir, last, -, h⟩
    · simp [libDir] at h
    · rw [append_assoc, append_cancel_left_eq] at h
      rw [(cons.inj h).1] at hown
      exact hdirs dir hdir hown
  · rcases h with ⟨own', -, h⟩ | ⟨dir', hdir, last', -, h⟩
    · simp [libDir] at h
    · simp [libDir] at h

lemma IsDest.isRowName (h : IsDest rel) : ∀ name ∈ rel, IsRowName name := by
  have hlib : ∀ name ∈ libDir, IsRowName name := by decide
  have hown : ∀ name ∈ ownNames, IsRowName name := by decide
  have hdirs : ∀ name ∈ partDirs, IsRowName name := by decide
  intro name hname
  rcases h with ⟨own, hmem, rfl⟩ | ⟨dir, hdir, last, hlast, rfl⟩
  · simp only [mem_append, mem_singleton] at hname
    rcases hname with hname | rfl
    · exact hlib name hname
    · exact hown name hmem
  · simp only [mem_append, mem_cons, not_mem_nil, or_false] at hname
    rcases hname with hname | rfl | rfl
    · exact hlib name hname
    · exact hdirs name hdir
    · exact hlast

lemma IsDest.ne_nil (h : IsDest rel) : rel ≠ [] := by
  rintro rfl
  rcases h with ⟨own, -, h⟩ | ⟨dir, -, last, -, h⟩
  · simp at h
  · simp at h

lemma IsDest.dropLast_append (h : IsDest rel) (p : Place) :
    (p ++ rel).dropLast = p ++ rel.dropLast :=
  dropLast_append_of_ne_nil h.ne_nil

lemma IsDest.ne_manifestRel (h : IsDest rel) : rel ≠ manifestRel := by
  have hown : ∀ name ∈ ownNames, libDir ++ [name] ≠ manifestRel := by decide
  rcases h with ⟨own, hmem, rfl⟩ | ⟨dir, -, last, -, rfl⟩
  · exact hown own hmem
  · simp [manifestRel, libDir]

lemma IsDest.pathOf_eq (h : IsDest rel) : ∃ rest, Esp.pathOf rel = 'E' :: rest := by
  obtain ⟨names, rfl⟩ : ∃ names, rel = "EFI".toList :: names := by
    rcases h with ⟨own, -, rfl⟩ | ⟨dir, -, last, -, rfl⟩
    · exact ⟨_, rfl⟩
    · exact ⟨_, rfl⟩
  rw [Esp.pathOf, join_cons]
  exact ⟨_, rfl⟩

lemma IsDest.libDir_prefix (h : IsDest rel) : libDir <+: rel.dropLast := by
  rcases h with ⟨own, -, rfl⟩ | ⟨dir, -, last, -, rfl⟩
  · rw [dropLast_concat]
  · exact ⟨[dir], by simp⟩

lemma IsDest.not_manifestRel_prefix (h : IsDest rel) : ¬ manifestRel <+: rel.dropLast := by
  have hdirs : ∀ dir ∈ partDirs, ¬ manifestRel <+: libDir ++ [dir] := by decide
  rcases h with ⟨own, -, rfl⟩ | ⟨dir, hdir, last, -, rfl⟩
  · rw [dropLast_concat]
    decide
  · have hlast : (libDir ++ [dir, last]).dropLast = libDir ++ [dir] := by simp [libDir]
    rw [hlast]
    exact hdirs dir hdir

end Dest

lemma Dist.of_mem_moduleNames (dist : Dist) {name : Text} (h : name ∈ dist.moduleNames) :
    IsRowName name ∧ ".efi" <:+ name := by
  obtain ⟨p, hp, h⟩ := mem_filterMap.mp h
  split at h
  · next dir name' =>
    split_ifs at h with hname
    cases h
    exact ⟨dist.names _ (AList.mem_keys.mpr hp) name (by simp), hname.2.1⟩
  · cases h

namespace Release

variable (r : Release)

def copies : List Copy :=
  r.dist.binaryCopies r.arch r.isSigned ++ r.dist.moduleCopies r.isSigned r.includeManifest ++
    r.dist.driverCopies r.isSigned r.drivers

def sourceOf (rel : Place) : Option Text :=
  match rel with
  | [_, _, _] =>
    (espEfiSourceFilename r.arch r.isSigned).bind fun name => r.dist.files.lookup [name]
  | [_, _, dir, name] => sourceFor r.dist dir name r.isSigned
  | _ => none

variable {r} {c : Copy}

lemma mem_copies (h : c ∈ r.copies) :
    (c.always = true ∧ ∃ dir ∈ partDirs, ∃ name ∈ ["manifest.toml".toList,
      "LICENSE-GPL-2.0.txt".toList], c.rel = libDir ++ [dir, name]) ∨
    (c.always = false ∧ r.sourceOf c.rel = some c.content ∧
      ((∃ name ∈ ["lambootx64.efi".toList, "lambootaa64.efi".toList], c.rel = libDir ++ [name]) ∨
        ∃ dir ∈ partDirs, ∃ name, IsRowName name ∧ ".efi".toList <:+ name ∧
          c.rel = libDir ++ [dir, name])) := by
  unfold copies at h
  rw [mem_append, mem_append] at h
  rcases h with (h | h) | h
  · unfold Dist.binaryCopies at h
    split at h
    · next srcName dstName hsrc hdst =>
      obtain ⟨content, hcontent, rfl⟩ := Option.map_eq_some_iff.mp (Option.mem_toList.mp h)
      refine .inr ⟨rfl, ?_, .inl ⟨dstName, ?_, rfl⟩⟩
      · change (espEfiSourceFilename r.arch r.isSigned).bind _ = some content
        rw [hsrc]
        exact hcontent
      · unfold espEfiBinaryName at hdst
        split_ifs at hdst
        · cases hdst
          exact mem_cons_self
        · cases hdst
          exact mem_cons_of_mem _ mem_cons_self
    · cases h
  · unfold Dist.moduleCopies at h
    rcases mem_append.mp h with h | h
    · split_ifs at h
      · obtain ⟨content, -, rfl⟩ := Option.map_eq_some_iff.mp (Option.mem_toList.mp h)
        exact .inl ⟨rfl, _, mem_cons_self, _, mem_cons_self, rfl⟩
      · cases h
    · obtain ⟨name, hname, h⟩ := mem_filterMap.mp h
      obtain ⟨content, hcontent, rfl⟩ := Option.map_eq_some_iff.mp h
      obtain ⟨hrow, hefi⟩ := r.dist.of_mem_moduleNames hname
      exact .inr ⟨rfl, hcontent, .inr ⟨_, mem_cons_self, name, hrow, hefi, rfl⟩⟩
  · unfold Dist.driverCopies at h
    split_ifs at h
    · cases h
    · rcases mem_append.mp h with h | h
      · obtain ⟨drv, -, h⟩ := mem_filterMap.mp h
        obtain ⟨content, hcontent, rfl⟩ := Option.map_eq_some_iff.mp h
        exact .inr ⟨rfl, hcontent, .inr ⟨_, mem_cons_of_mem _ mem_cons_self, drv.name,
          drv.isRowName, drv.efi, rfl⟩⟩
      · obtain ⟨content, -, rfl⟩ := Option.map_eq_some_iff.mp (Option.mem_toList.mp h)
        exact .inl ⟨rfl, _, mem_cons_of_mem _ mem_cons_self, _,
          mem_cons_of_mem _ mem_cons_self, rfl⟩

lemma isDest_of_mem_copies (h : c ∈ r.copies) : IsDest c.rel := by
  have hplain : ∀ name ∈ (["manifest.toml", "LICENSE-GPL-2.0.txt"] : List Text),
      IsRowName name := by
    decide
  have hown : ∀ name ∈ ["lambootx64.efi".toList, "lambootaa64.efi".toList], name ∈ ownNames := by
    decide
  rcases mem_copies h with ⟨-, dir, hdir, name, hname, hrel⟩ | ⟨-, -, ⟨name, hname, hrel⟩ |
    ⟨dir, hdir, name, hname, -, hrel⟩⟩
  · exact .inr ⟨dir, hdir, name, hplain name hname, hrel⟩
  · exact .inl ⟨name, hown name hname, hrel⟩
  · exact .inr ⟨dir, hdir, name, hname, hrel⟩

lemma rel_ne_of_mem_copies (h : c ∈ r.copies) :
    c.rel ≠ Esp.policyRel ∧ c.rel ≠ libDir ++ ["policy.toml.new".toList] := by
  have hown : ∀ name ∈ ["lambootx64.efi".toList, "lambootaa64.efi".toList],
      libDir ++ [name] ≠ Esp.policyRel ∧
        libDir ++ [name] ≠ libDir ++ ["policy.toml.new".toList] := by
    decide
  have hlength : ∀ dir name : Text, libDir ++ [dir, name] ≠ Esp.policyRel ∧
      libDir ++ [dir, name] ≠ libDir ++ ["policy.toml.new".toList] := by
    intro dir name
    simp [Esp.policyRel, libDir]
  rcases mem_copies h with ⟨-, dir, -, name, -, hrel⟩ | ⟨-, -, ⟨name, hname, hrel⟩ |
    ⟨dir, -, name, -, -, hrel⟩⟩
  · rw [hrel]
    exact hlength dir name
  · rw [hrel]
    exact hown name hname
  · rw [hrel]
    exact hlength dir name

lemma eq_of_rel_eq {c' : Copy} (h : c ∈ r.copies) (h' : c' ∈ r.copies) (hrel : c'.rel = c.rel)
    (halways : c.always = false) : c'.always = false ∧ c'.content = c.content := by
  have hefi : ∀ name ∈ (["manifest.toml", "LICENSE-GPL-2.0.txt"] : List Text),
      ¬ ".efi".toList <:+ name := by
    decide
  rcases mem_copies h with ⟨hnot, -⟩ | ⟨-, hsource, hplace⟩
  · rw [halways] at hnot
    cases hnot
  · rcases mem_copies h' with ⟨-, dir, -, name, hname, hrel'⟩ | ⟨halways', hsource', -⟩
    · rw [hrel] at hrel'
      rcases hplace with ⟨name', -, hc⟩ | ⟨dir', -, name', -, hend, hc⟩
      · rw [hc] at hrel'
        simp [libDir] at hrel'
      · rw [hc] at hrel'
        have hsame : name' = name := by
          simp only [append_cancel_left_eq, cons.injEq, and_true] at hrel'
          exact hrel'.2
        exact absurd (hsame ▸ hend) (hefi name hname)
    · rw [hrel, hsource, Option.some.injEq] at hsource'
      exact ⟨halways', hsource'.symm⟩

end Release

/-! ### A deploy -/

namespace Esp

variable {esp : Esp} {t t' : Nodes} {target dst : Place} {content : Text}

lemma espAtomicCopy_spec (h : esp.espAtomicCopy t content dst = some (t', target)) :
    (target = dst ∨ (target = dst ++ [esp.tmpName dst] ∧ t'.isDir dst = true)) ∧
      (∀ q, t.isDir q = true → t'.isDir q = true) ∧
      (∀ q old, q ≠ target → t.lookup q = some (.file old) → t'.lookup q = some (.file old)) ∧
      ∀ q, t'.isDir q = true → t.isDir q = true ∨ q <+: dst.dropLast := by
  rw [espAtomicCopy, Option.bind_eq_some_iff] at h
  obtain ⟨s, hs, hput⟩ := h
  obtain ⟨-, htarget, hdir, rfl⟩ := Nodes.put_eq_some_iff.mp hput
  have hsame : ∀ q, Nodes.isDir (s.insert target (.file content)) q = s.isDir q :=
    Nodes.isDir_insert_file hdir
  refine ⟨?_, fun q hq => ?_, fun q old hq hold => ?_, fun q hq => ?_⟩
  · split_ifs at htarget with hdst
    · exact .inr ⟨htarget, by rw [hsame, hdst]⟩
    · exact .inl htarget
  · rw [hsame, Nodes.isDir_iff]
    refine (Nodes.isDir_iff.mp hq).imp_right fun hq => ?_
    rcases Nodes.lookup_makeDirs hs q with heq | ⟨hnone, -⟩
    · rw [heq, hq]
    · rw [hnone] at hq
      cases hq
  · rw [AList.lookup_insert_ne hq]
    rcases Nodes.lookup_makeDirs hs q with heq | ⟨hnone, -⟩
    · rw [heq, hold]
    · rw [hnone] at hold
      cases hold
  · rw [hsame, Nodes.isDir_iff] at hq
    rcases hq with rfl | hq
    · exact .inl rfl
    · rcases Nodes.lookup_makeDirs hs q with heq | ⟨-, -, hprefix⟩
      · rw [heq] at hq
        exact .inl (Nodes.isDir_iff.mpr (.inr hq))
      · exact .inr hprefix

/-- A deploy over a tree: directories stay, files that it has not written to are as they were, and a
listed file that it has not written to is one that was to be left. -/
structure Over (esp : Esp) (t : Nodes) (left : Place → Text → Prop) (d : Deploy) : Prop where
  dirs : ∀ q, t.isDir q = true → d.nodes.isDir q = true
  files : ∀ q old, t.lookup q = some (.file old) → q ∉ d.written →
    d.nodes.lookup q = some (.file old)
  newDirs : ∀ q, d.nodes.isDir q = true → t.isDir q = true ∨
    ∃ rel, IsDest rel ∧ q <+: esp.place ++ rel.dropLast
  dest : ∀ rel ∈ d.listed, IsDest rel
  left : ∀ rel ∈ d.listed, ∀ old, t.lookup (esp.place ++ rel) = some (.file old) →
    esp.place ++ rel ∉ d.written → left rel old

section Over

variable {left : Place → Text → Prop} {d : Deploy} {rel : Place} {c : Copy} {old : Text}

lemma Over.write (h : Over esp t left d) (hdest : IsDest rel)
    (hcopy : esp.espAtomicCopy d.nodes content (esp.place ++ rel) = some (t', target)) :
    Over esp t left ⟨t', d.listed, d.written ++ [target]⟩ := by
  obtain ⟨-, hdirs, hfiles, hnew⟩ := espAtomicCopy_spec hcopy
  refine ⟨fun q hq => hdirs q (h.dirs q hq), fun q old hold hq => ?_, fun q hq => ?_, h.dest, ?_⟩
  · simp only [mem_append, mem_singleton, not_or] at hq
    exact hfiles q old hq.2 (h.files q old hold hq.1)
  · rcases hnew q hq with hq | hq
    · exact h.newDirs q hq
    · rw [hdest.dropLast_append] at hq
      exact .inr ⟨rel, hdest, hq⟩
  · intro rel' hrel' old hold hnot
    exact h.left rel' hrel' old hold fun hmem => hnot (mem_append_left _ hmem)

lemma Over.list (h : Over esp t left d) (hdest : IsDest rel)
    (hleft : ∀ old, t.lookup (esp.place ++ rel) = some (.file old) →
      esp.place ++ rel ∉ d.written → left rel old) :
    Over esp t left { d with listed := d.listed ++ [rel] } := by
  refine ⟨h.dirs, h.files, h.newDirs, fun rel' hrel' => ?_, fun rel' hrel' => ?_⟩
  · rcases mem_append.mp hrel' with hrel' | hrel'
    · exact h.dest rel' hrel'
    · rw [mem_singleton.mp hrel']
      exact hdest
  · rcases mem_append.mp hrel' with hrel' | hrel'
    · exact h.left rel' hrel'
    · rw [mem_singleton.mp hrel']
      exact hleft

lemma Over.copy (h : Over esp t left d) (hdest : IsDest rel)
    (hcopy : esp.espAtomicCopy d.nodes content (esp.place ++ rel) = some (t', target)) :
    Over esp t left ⟨t', d.listed ++ [rel], d.written ++ [target]⟩ := by
  have hwrite := h.write hdest hcopy
  refine hwrite.list hdest fun old hold hnot => ?_
  have hfile := hwrite.files _ old hold hnot
  rcases (espAtomicCopy_spec hcopy).1 with rfl | ⟨-, hdir⟩
  · simp at hnot
  · rw [Nodes.isDir_iff] at hdir
    rcases hdir with hroot | hdir
    · exact absurd (append_eq_nil_iff.mp hroot).2 hdest.ne_nil
    · rw [hdir] at hfile
      cases hfile

lemma espNeedsUpdate_eq_false_iff : esp.espNeedsUpdate t content dst = false ↔
    ∃ old, t.lookup dst = some (.file old) ∧ esp.sha256 content = esp.sha256 old := by
  unfold espNeedsUpdate
  split
  · next old h => simp [h]
  · next h =>
    refine iff_of_false nofun ?_
    rintro ⟨old, hold, -⟩
    exact h old hold

lemma Over.deployCopy (h : Over esp t left d) (hdest : IsDest c.rel)
    (hleft : c.always = false → ∀ old, t.lookup (esp.place ++ c.rel) = some (.file old) →
      esp.sha256 c.content = esp.sha256 old → left c.rel old) :
    Over esp t left (esp.deployCopy d c) := by
  unfold Esp.deployCopy
  dsimp only
  split_ifs with hcopy
  · split
    · next nodes target htarget => exact h.copy hdest htarget
    · exact h
  · simp only [Bool.or_eq_true, not_or, Bool.not_eq_true] at hcopy
    obtain ⟨old', hold', hsame⟩ := espNeedsUpdate_eq_false_iff.mp hcopy.2
    refine h.list hdest fun old hold hnot => ?_
    have hfile := h.files _ old hold hnot
    rw [hold', Option.some.injEq, Node.file.injEq] at hfile
    exact hleft hcopy.1 old hold (hfile ▸ hsame)

lemma Over.foldl_deployCopy (h : Over esp t left d) {copies : List Copy}
    (hdest : ∀ c ∈ copies, IsDest c.rel)
    (hleft : ∀ c ∈ copies, c.always = false → ∀ old,
      t.lookup (esp.place ++ c.rel) = some (.file old) →
        esp.sha256 c.content = esp.sha256 old → left c.rel old) :
    Over esp t left (copies.foldl esp.deployCopy d) := by
  induction copies generalizing d with
  | nil => exact h
  | cons c copies ih =>
    rw [forall_mem_cons] at hdest hleft
    exact ih (h.deployCopy hdest.1 hleft.1) hdest.2 hleft.2

lemma isDest_policyRel : IsDest policyRel :=
  .inl ⟨_, by decide, rfl⟩

lemma isDest_policyNew : IsDest (libDir ++ ["policy.toml.new".toList]) :=
  .inl ⟨_, by decide, rfl⟩

lemma Over.espDeployPolicy (h : Over esp t left d) {dist : Dist}
    (hleft : (dist.files.lookup ["policy.toml".toList]).isSome → ∀ old,
      t.lookup (esp.place ++ policyRel) = some (.file old) → left policyRel old) :
    Over esp t left (esp.espDeployPolicy dist true d) := by
  unfold Esp.espDeployPolicy
  split
  · exact h
  · next content hcontent =>
    have hlist := h.list isDest_policyRel fun old hold _ => hleft (by rw [hcontent]; rfl) old hold
    dsimp only
    split
    · split_ifs
      · split
        · next nodes target htarget =>
          rw [append_assoc] at htarget
          exact hlist.write isDest_policyNew htarget
        · exact hlist
      · exact hlist
    · exact h.deployCopy isDest_policyRel fun hnot => nomatch hnot

/-! ### What a deploy leaves and lists -/

def Untouched (esp : Esp) (rel : Place) (old : Text) (d : Deploy) : Prop :=
  d.nodes.lookup (esp.place ++ rel) = some (.file old) ∧ esp.place ++ rel ∉ d.written

lemma target_ne {rel' : Place} (hdest : IsDest rel) (hdest' : IsDest rel') (hne : rel' ≠ rel)
    (hcopy : esp.espAtomicCopy t content (esp.place ++ rel') = some (t', target)) :
    target ≠ esp.place ++ rel := by
  rintro rfl
  rcases (espAtomicCopy_spec hcopy).1 with htarget | ⟨htarget, -⟩
  · exact hne (append_cancel_left htarget).symm
  · rw [append_assoc] at htarget
    exact hdest.ne_append hdest' (append_cancel_left htarget)

lemma Untouched.write {rel' : Place} (h : Untouched esp rel old d) (hdest : IsDest rel)
    (hdest' : IsDest rel') (hne : rel' ≠ rel) {listed : List Place}
    (hcopy : esp.espAtomicCopy d.nodes content (esp.place ++ rel') = some (t', target)) :
    Untouched esp rel old ⟨t', listed, d.written ++ [target]⟩ := by
  have htarget := target_ne hdest hdest' hne hcopy
  refine ⟨(espAtomicCopy_spec hcopy).2.2.1 _ old (Ne.symm htarget) h.1, ?_⟩
  simp only [mem_append, mem_singleton, not_or]
  exact ⟨h.2, Ne.symm htarget⟩

lemma Untouched.deployCopy (h : Untouched esp rel old d) (hdest : IsDest rel)
    (hdest' : IsDest c.rel)
    (hsame : c.rel = rel → c.always = false ∧ esp.sha256 c.content = esp.sha256 old) :
    Untouched esp rel old (esp.deployCopy d c) ∧
      (rel ∈ d.listed ∨ c.rel = rel → rel ∈ (esp.deployCopy d c).listed) := by
  by_cases hrel : c.rel = rel
  · obtain ⟨halways, hsha⟩ := hsame hrel
    have hskip : esp.espNeedsUpdate d.nodes c.content (esp.place ++ c.rel) = false :=
      espNeedsUpdate_eq_false_iff.mpr ⟨old, by rw [hrel]; exact h.1, hsha⟩
    unfold Esp.deployCopy
    dsimp only
    rw [halways, hskip, if_neg (by decide)]
    exact ⟨h, fun _ => by simp [hrel]⟩
  · unfold Esp.deployCopy
    dsimp only
    split_ifs
    · split
      · next nodes target hcopy =>
        refine ⟨h.write hdest hdest' hrel hcopy, fun hlisted => ?_⟩
        exact mem_append_left _ (hlisted.resolve_right hrel)
      · exact ⟨h, fun hlisted => hlisted.resolve_right hrel⟩
    · exact ⟨h, fun hlisted => mem_append_left _ (hlisted.resolve_right hrel)⟩

lemma Untouched.foldl_deployCopy (h : Untouched esp rel old d) (hdest : IsDest rel)
    {copies : List Copy} (hdest' : ∀ c ∈ copies, IsDest c.rel)
    (hsame : ∀ c ∈ copies, c.rel = rel →
      c.always = false ∧ esp.sha256 c.content = esp.sha256 old) :
    Untouched esp rel old (copies.foldl esp.deployCopy d) ∧
      ((rel ∈ d.listed ∨ ∃ c ∈ copies, c.rel = rel) →
        rel ∈ (copies.foldl esp.deployCopy d).listed) := by
  induction copies generalizing d with
  | nil => exact ⟨h, fun hlisted => hlisted.resolve_right (by simp)⟩
  | cons c copies ih =>
    rw [forall_mem_cons] at hdest' hsame
    obtain ⟨hnext, hlist⟩ := h.deployCopy hdest hdest'.1 hsame.1
    obtain ⟨hend, hlisted⟩ := ih hnext hdest'.2 hsame.2
    refine ⟨hend, fun hmem => hlisted ?_⟩
    rw [exists_mem_cons_iff, ← or_assoc] at hmem
    exact hmem.imp_left hlist

lemma Untouched.espDeployPolicy (h : Untouched esp rel old d) (hdest : IsDest rel)
    (hnew : rel ≠ libDir ++ ["policy.toml.new".toList]) (dist : Dist) :
    Untouched esp rel old (esp.espDeployPolicy dist true d) ∧
      (rel ∈ d.listed ∨ (rel = policyRel ∧
        (dist.files.lookup ["policy.toml".toList]).isSome) →
          rel ∈ (esp.espDeployPolicy dist true d).listed) := by
  unfold Esp.espDeployPolicy
  split
  · next hnone =>
    refine ⟨h, fun hlisted => hlisted.resolve_right fun hpolicy => ?_⟩
    rw [hnone] at hpolicy
    exact nomatch hpolicy.2
  · next content hcontent =>
    dsimp only
    have hmem : rel ∈ d.listed ∨ (rel = policyRel ∧ (some content).isSome = true) →
        rel ∈ d.listed ++ [policyRel] := by
      rintro (hlisted | ⟨rfl, -⟩)
      · exact mem_append_left _ hlisted
      · exact mem_append_right _ (mem_singleton_self _)
    rw [hcontent]
    split
    · split_ifs
      · split
        · next nodes target htarget =>
          rw [append_assoc] at htarget
          exact ⟨h.write hdest isDest_policyNew (Ne.symm hnew) htarget, hmem⟩
        · exact ⟨h, hmem⟩
      · exact ⟨h, hmem⟩
    · next hfile =>
      have hne : rel ≠ policyRel := by
        rintro rfl
        exact hfile old h.1 rfl
      obtain ⟨huntouched, hlist⟩ := h.deployCopy (c := ⟨true, policyRel, content⟩) hdest
        isDest_policyRel fun hrel => absurd hrel.symm hne
      exact ⟨huntouched, fun hlisted =>
        hlist (.inl (hlisted.resolve_right fun hpolicy => hne hpolicy.1))⟩

end Over

/-! ### The manifest of a deploy -/

section Manifest

def IsPlainRow (r : Row) : Prop :=
  (r.hash ≠ [] ∧ ' ' ∉ r.hash ∧ '\n' ∉ r.hash ∧ '\t' ∉ r.hash ∧ '\x00' ∉ r.hash) ∧
    r.path ≠ [] ∧ '\n' ∉ r.path ∧ '\t' ∉ r.path ∧ '\x00' ∉ r.path

variable {row : Row}

lemma rereadRow_eq_self (h : IsPlainRow row) : rereadRow row = row := by
  obtain ⟨⟨hhash, -, -, htab, -⟩, hpath, -, htab', -⟩ := h
  have hsplit : (row.hash ++ '\t' :: row.path).splitOn '\t' = [row.hash, row.path] := by
    have hjoin : (intercalate ['\t'] [row.hash, row.path]).splitOn '\t' =
        [row.hash, row.path] :=
      splitOn_intercalate '\t' (by simp [htab, htab']) (by simp)
    simpa [intercalate] using hjoin
  rw [rereadRow, hsplit]
  simp [hhash, hpath]

lemma notMem_rowText {c : Char} (hsha : c ∉ "sha256:".toList) (hblank : c ≠ ' ')
    (hhash : c ∉ row.hash) (hpath : c ∉ row.path) : c ∉ row.text := by
  unfold Row.text
  refine not_mem_append (not_mem_append (not_mem_append hsha hhash) ?_) hpath
  intro hc
  exact hblank (by simpa using hc)

lemma filter_rowText (h : IsPlainRow row) : row.text.filter (· ≠ '\x00') = row.text := by
  obtain ⟨⟨-, -, -, -, hnull⟩, -, -, -, hnull'⟩ := h
  have hsha : '\x00' ∉ "sha256:".toList := by decide
  have hnot := notMem_rowText hsha (by decide) hnull hnull'
  rw [filter_eq_self]
  intro c hc
  rw [decide_eq_true_eq]
  rintro rfl
  exact hnot hc

lemma newline_notMem_rowText (h : IsPlainRow row) : '\n' ∉ row.text := by
  have hsha : '\n' ∉ "sha256:".toList := by decide
  exact notMem_rowText hsha (by decide) h.1.2.2.1 h.2.2.1

lemma espManifestParse_textOf (header : Header) {rows : List Row}
    (h : ∀ row ∈ rows, IsPlainRow row) :
    espManifestParse (textOf (header.lines ++ rows.map Row.text)) = rows := by
  have hheader : ∀ line ∈ header.lines, line.head? = some '#' ∧ '\n' ∉ line := by
    intro line hline
    simp only [Header.lines, mem_cons, not_mem_nil, or_false] at hline
    rcases hline with rfl | rfl | rfl | rfl | rfl
    · exact ⟨rfl, by decide⟩
    · exact ⟨rfl, not_mem_append (by decide) header.timestamp.property⟩
    · exact ⟨rfl, not_mem_append (by decide) header.version.property⟩
    · exact ⟨rfl, not_mem_append (by decide) header.arch.property⟩
    · exact ⟨rfl, not_mem_append (by decide) header.distro.property⟩
  have hlines : ∀ line ∈ header.lines ++ rows.map Row.text, '\n' ∉ line := by
    intro line hline
    rcases mem_append.mp hline with hline | hline
    · exact (hheader line hline).2
    · obtain ⟨row, hrow, rfl⟩ := mem_map.mp hline
      exact newline_notMem_rowText (h row hrow)
  have hrows : (rows.map Row.text).map (·.filter (· ≠ '\x00')) = rows.map Row.text := by
    rw [map_map]
    exact map_congr_left fun row hrow => filter_rowText (h row hrow)
  have hcomments : (header.lines.map (·.filter (· ≠ '\x00'))).filterMap readRow = [] := by
    rw [filterMap_map, filterMap_eq_nil_iff]
    intro line hline
    refine readRow_comment ?_
    obtain ⟨rest, rfl⟩ : ∃ rest, line = '#' :: rest :=
      head?_eq_some_iff.mp (hheader line hline).1
    rfl
  have hread : (rows.map Row.text).filterMap readRow = rows := by
    calc (rows.map Row.text).filterMap readRow
        = rows.filterMap (readRow ∘ Row.text) := filterMap_map
      _ = rows.filterMap some :=
          filterMap_congr fun row hrow => readRow_text (h row hrow).1.2.1
      _ = rows := filterMap_some
  rw [espManifestParse, readLines, splitOn_textOf hlines, dropLast_concat, map_append,
    hrows, filterMap_append, hcomments, nil_append, hread]
  calc rows.map rereadRow
      = rows.map fun row => row :=
        map_congr_left fun row hrow => rereadRow_eq_self (h row hrow)
    _ = rows := map_id' rows

lemma isPlainRow_of_manifestRow {esp : Esp} {t : Nodes} {rel : Place} (hdest : IsDest rel)
    (h : esp.manifestRow t rel = some row) : IsPlainRow row := by
  obtain ⟨⟨p, content⟩, -, rfl⟩ := Option.map_eq_some_iff.mp h
  have hhash : ∀ c, c ∉ "0123456789abcdef".toList → c ∉ esp.sha256 content := fun c hc hmem =>
    hc ((esp.sha256_hex content).2 c hmem)
  have hpath : ∀ c, c ≠ '/' → (∀ name ∈ rel, c ∉ name) → c ∉ pathOf rel := by
    intro c hslash hnames hmem
    cases rel with
    | nil => cases hmem
    | cons first rest =>
      rw [pathOf, join_cons, mem_append, mem_flatMap] at hmem
      rcases hmem with hmem | ⟨name, hname, hmem⟩
      · exact hnames first mem_cons_self hmem
      · rcases mem_cons.mp hmem with hc | hmem
        · exact hslash hc
        · exact hnames name (mem_cons_of_mem first hname) hmem
  have hnames := hdest.isRowName
  refine ⟨⟨(esp.sha256_hex content).1, hhash _ (by decide), hhash _ (by decide),
    hhash _ (by decide), hhash _ (by decide)⟩, ?_,
    hpath _ (by decide) fun name hname => (hnames name hname).2.1,
    hpath _ (by decide) fun name hname => (hnames name hname).2.2.1,
    hpath _ (by decide) fun name hname => (hnames name hname).2.2.2⟩
  obtain ⟨rest, hrest⟩ := hdest.pathOf_eq
  rw [hrest]
  exact cons_ne_nil _ _

end Manifest

end Esp

end LamBoot.EspDeploy
