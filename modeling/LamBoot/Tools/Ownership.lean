import LamBoot.Tools.Installer

/-!
# Whose entries the installer removes

Ownership is inferred from names: an entry under the installer's own name is put into the manifest,
whoever made it, and a name that occurs anywhere in the manifest counts as the installer's.
-/

namespace LamBoot.Installer

open List

open Text BlsEntry Shell

/-! ### Reading the manifest back -/

section Manifest

lemma cutAt_append {s t : Text} (h : ' ' ∉ s) :
    cutAt "  " (s ++ "  " ++ t) = some (s, t) := by
  induction s with
  | nil =>
    change cutAt [' ', ' '] (' ' :: ' ' :: t) = some ([], t)
    simp [cutAt, dropPrefix?]
  | cons c s ih =>
    rw [mem_cons, not_or] at h
    have hdrop : (c :: (s ++ "  " ++ t)).dropPrefix? "  " = none := by
      change (c :: _).dropPrefix? (' ' :: [' ']) = none
      rw [dropPrefix?, if_neg (by simpa using Ne.symm h.1)]
    rw [cons_append, cons_append, cutAt, hdrop, ih h.2]
    rfl

lemma stripPrefix_append (p s : Text) : stripPrefix p (p ++ s) = s := by
  have hdrop : (p ++ s).dropPrefix? p = some s :=
    dropPrefix?_eq_some_iff.mpr ⟨p, rfl, beq_self_eq_true p⟩
  rw [stripPrefix, hdrop]
  rfl

lemma readRow_text {r : Row} (h : ' ' ∉ r.hash) : readRow r.text = some r := by
  have hsha : ' ' ∉ "sha256:" ++ r.hash := by simp [h]
  have hpre : "sha256:" <+: r.text := by
    unfold Row.text
    simp only [append_assoc]
    exact prefix_append _ _
  have hcut : cutAt "  " r.text = some ("sha256:" ++ r.hash, r.path) :=
    cutAt_append hsha
  rw [readRow, if_pos hpre, hcut]
  simp only [Option.getD_some, stripPrefix_append]

lemma readRow_comment {line : Text} (h : line.head? = some '#') : readRow line = none := by
  refine if_neg ?_
  rintro ⟨rest, rfl⟩
  cases h

lemma exists_row_of_mem_readManifest {text path : Text} (h : path ∈ readManifest text) :
    ∃ line ∈ text.splitOn '\n', ∃ row ∈ readRow line, row.path = path := by
  have hfold : ∀ (rows : List Row) (hashes : Entries),
      path ∈ rows.foldl (fun hashes r => hashes.insert r.path r.hash) hashes →
      path ∈ hashes ∨ ∃ row ∈ rows, row.path = path := by
    intro rows
    induction rows with
    | nil => exact fun hashes h => .inl h
    | cons row rows ih =>
      intro hashes h
      rcases ih _ h with h | ⟨row', hrow', hpath⟩
      · rcases (AList.mem_insert _).mp h with rfl | h
        · exact .inr ⟨row, mem_cons_self, rfl⟩
        · exact .inl h
      · exact .inr ⟨row', mem_cons_of_mem row hrow', hpath⟩
  rcases hfold _ _ h with h | ⟨row, hrow, hpath⟩
  · exact absurd h (AList.notMem_empty path)
  · obtain ⟨line, hline, hread⟩ := mem_filterMap.mp hrow
    exact ⟨line, hline, row, hread, hpath⟩

end Manifest

namespace Invocation

variable {t : Target} {i : Invocation} {d : Disk} {native : Entries}

/-! ### Rows -/

lemma rows_coverKernel {covered : List Text} {p : Progress} {k : Kernel} {row : Row}
    (h : row ∈ (i.coverKernel t covered p k).rows) :
    row ∈ p.rows ∨ ∃ es, row = i.manifestRow t es k.version := by
  have hadd : ∀ es, row ∈ p.rows ++ [i.manifestRow t es k.version] →
      row ∈ p.rows ∨ ∃ es, row = i.manifestRow t es k.version := fun es h =>
    (mem_append.mp h).imp_right fun h => ⟨es, mem_singleton.mp h⟩
  unfold coverKernel generateBlsEntry at h
  split_ifs at h
  · exact hadd _ h
  · exact .inl h
  · exact hadd _ h
  · exact .inl h
  · exact hadd _ h

lemma rows_foldl {covered : List Text} {ks : List Kernel} {p : Progress} {row : Row}
    (h : row ∈ (ks.foldl (i.coverKernel t covered) p).rows) :
    row ∈ p.rows ∨ ∃ k ∈ ks, ∃ es, row = i.manifestRow t es k.version := by
  induction ks generalizing p with
  | nil => exact .inl h
  | cons k ks ih =>
    rcases ih h with h | ⟨k', hk', hrow⟩
    · exact (rows_coverKernel h).imp_right fun hrow => ⟨k, mem_cons_self, hrow⟩
    · exact .inr ⟨k', mem_cons_of_mem k hk', hrow⟩

lemma rows_phase5 {row : Row} (h : row ∈ (i.phase5GenerateBls t d).rows) :
    ∃ k ∈ i.discoverKernels t, ∃ es, row = i.manifestRow t es k.version := by
  unfold phase5GenerateBls at h
  split_ifs at h
  · cases h
  · exact (rows_foldl h).resolve_left not_mem_nil

lemma fileOf_manifestRow (es : Entries) (version : Text) :
    t.fileOf (i.manifestRow t es version).path = i.confPath t version := by
  unfold manifestRow confPath installDir
  split_ifs with hboot
  · have hroot : t.root = none := by
      simp only [blsOnBoot, Bool.and_eq_true, decide_eq_true_eq] at hboot
      exact hboot.1.1.1.1.1
    have hdrop : ("boot:" ++ inDir blsDir (i.confOf version)).dropPrefix? "boot:" =
        some (inDir blsDir (i.confOf version)) :=
      dropPrefix?_eq_some_iff.mpr ⟨_, rfl, beq_self_eq_true _⟩
    rw [Target.fileOf, hdrop]
    simp only [Target.bootRoot, hroot]
    rfl
  · change inDir t.esp (inDir blsDir (i.confOf version)) = _
    simp [Target.espDir, inDir]

variable {es : Entries}

lemma manifestRow_plain {version : Text} (h : '\n' ∉ version) :
    ' ' ∉ (i.manifestRow t es version).hash ∧ '\n' ∉ (i.manifestRow t es version).hash ∧
      '\n' ∉ (i.manifestRow t es version).path := by
  unfold manifestRow
  refine ⟨?_, ?_, ?_⟩
  · cases es.lookup (i.confPath t version) with
    | none => simp
    | some content => exact (t.sha256_plain content).1
  · cases es.lookup (i.confPath t version) with
    | none => simp
    | some content => exact (t.sha256_plain content).2
  · have hconf : '\n' ∉ inDir blsDir (i.confOf version) := by
      have hdir : '\n' ∉ blsDir := by decide
      unfold inDir confOf
      simp [hdir, h, i.entryToken.property]
    have hboot : '\n' ∉ "boot:".toList := by decide
    split_ifs
    · exact not_mem_append hboot hconf
    · exact hconf

/-! ### One run -/

variable (t i d native) in
/-- A run meets none of the entries that were there first under a name that it takes for its
own. -/
structure Clear : Prop where
  /-- None is where the entry of a kernel goes. -/
  names : ∀ k ∈ i.discoverKernels t, i.confPath t k.version ∉ native
  /-- None has a name, in the directory of the run, that occurs in the manifest. -/
  unowned : ∀ name, inDir (i.installDir t) name ∈ native → ¬ Owned d.manifest name
  /-- None is one of the other files that are installed. -/
  others : ∀ row ∈ i.others, t.fileOf row.path ∉ native
  /-- With `--replace-grub`, none looks like an entry of an earlier release. -/
  legacy : i.replaceGrub = true → ∀ path ∈ native, ¬ IsLegacy t path
  oneLine : ∀ k ∈ i.discoverKernels t, '\n' ∉ k.version

variable (t native) in
/-- The entries that were there first are there, and the manifest names none of them. -/
structure Respects (d : Disk) : Prop where
  kept : ∀ path content, native.lookup path = some content → d.entries.lookup path = some content
  unclaimed : ∀ text ∈ d.manifest, ∀ path ∈ readManifest text, t.fileOf path ∉ native

lemma mem_of_lookup {path content : Text} (h : es.lookup path = some content) :
    path ∈ es :=
  AList.lookup_isSome.mp (Option.isSome_of_mem h)

lemma lookup_phase5 (hclear : i.Clear t d native) {path content : Text}
    (hpath : d.entries.lookup path = some content) (hnative : path ∈ native) :
    (i.phase5GenerateBls t d).entries.lookup path = some content := by
  unfold phase5GenerateBls
  split_ifs
  · exact hpath
  · refine lookup_foldl_of_lookup (lookup_withoutStale.mpr ⟨hpath, ?_⟩)
    rintro ⟨-, name, -, hstale, rfl⟩
    exact hclear.unowned name hnative hstale.1

lemma lookup_backfill {path content : Text}
    (hlegacy : i.replaceGrub = true → ¬ IsLegacy t path) (h : es.lookup path = some content) :
    (i.phase5bProxmoxBlsBackfill t es).lookup path = some content := by
  have hfold : ∀ (paths : List Text) (es : Entries), path ∉ paths →
      es.lookup path = some content →
      (paths.foldl (fun es p => es.erase p) es).lookup path = some content := by
    intro paths
    induction paths with
    | nil => exact fun es _ hes => hes
    | cons first paths ih =>
      intro es hpaths hes
      rw [mem_cons, not_or] at hpaths
      refine ih _ hpaths.2 ?_
      rwa [AList.lookup_erase_ne hpaths.1]
  unfold phase5bProxmoxBlsBackfill
  split_ifs with hgrub
  · refine hfold _ _ (fun hmem => hlegacy hgrub.1 ?_) h
    simpa using (mem_filter.mp hmem).2
  · exact h

lemma unclaimed_manifestText (hclear : i.Clear t d native) {path : Text}
    (hpath : path ∈ readManifest (i.manifestText (i.phase5GenerateBls t d).rows)) :
    t.fileOf path ∉ native := by
  obtain ⟨line, hline, row, hrow, rfl⟩ := exists_row_of_mem_readManifest hpath
  have hrows : ∀ row ∈ i.others ++ (i.phase5GenerateBls t d).rows,
      t.fileOf row.path ∉ native ∧ ' ' ∉ row.hash ∧ '\n' ∉ row.hash ∧ '\n' ∉ row.path := by
    intro row hrow
    rcases mem_append.mp hrow with hrow | hrow
    · exact ⟨hclear.others row hrow, i.others_plain row hrow⟩
    · obtain ⟨k, hk, es, rfl⟩ := rows_phase5 hrow
      rw [fileOf_manifestRow]
      exact ⟨hclear.names k hk, manifestRow_plain (hclear.oneLine k hk)⟩
  have hlines : ∀ line ∈ i.header.map Subtype.val ++
      (i.others ++ (i.phase5GenerateBls t d).rows).map Row.text, '\n' ∉ line := by
    intro line hline
    rcases mem_append.mp hline with hline | hline
    · obtain ⟨comment, -, rfl⟩ := mem_map.mp hline
      exact comment.property
    · obtain ⟨row, hrow, rfl⟩ := mem_map.mp hline
      obtain ⟨-, -, hhash, hpath⟩ := hrows row hrow
      unfold Row.text
      simp [hhash, hpath]
  rw [manifestText, splitOn_textOf hlines, mem_append, mem_append] at hline
  rcases hline with (hline | hline) | hline
  · obtain ⟨comment, hcomment, rfl⟩ := mem_map.mp hline
    rw [readRow_comment (i.header_comment comment hcomment)] at hrow
    cases hrow
  · obtain ⟨row', hrow', rfl⟩ := mem_map.mp hline
    obtain ⟨hfile, hblank, -⟩ := hrows row' hrow'
    rw [readRow_text hblank] at hrow
    cases hrow
    exact hfile
  · rw [mem_singleton.mp hline] at hrow
    cases hrow

lemma Respects.install (hclear : i.Clear t d native) (h : Respects t native d) :
    Respects t native (i.install t d) := by
  refine ⟨fun path content hpath => ?_, fun text htext path hpath => ?_⟩
  · exact lookup_backfill (fun hgrub => hclear.legacy hgrub path (mem_of_lookup hpath))
      (lookup_phase5 hclear (h.kept path content hpath) (mem_of_lookup hpath))
  · unfold Invocation.install at htext
    dsimp only at htext
    split_ifs at htext
    · exact h.unclaimed text htext path hpath
    · obtain rfl : i.manifestText (i.phase5GenerateBls t d).rows = text := by simpa using htext
      exact unclaimed_manifestText hclear hpath

/-! ### Any number of runs -/

variable (t native) in
/-- Every installation of the run is clear. -/
def ClearRuns : List Invocation → Disk → Prop
  | [], _ => True
  | i :: rest, d => i.Clear t d native ∧ ClearRuns rest (i.install t d)

def installs (t : Target) (runs : List Invocation) (d : Disk) : Disk :=
  runs.foldl (fun d i => i.install t d) d

lemma Respects.installs {runs : List Invocation} (hclear : ClearRuns t native runs d)
    (h : Respects t native d) : Respects t native (installs t runs d) := by
  induction runs generalizing d with
  | nil => exact h
  | cons i runs ih => exact ih hclear.2 (h.install hclear.1)

lemma lookup_removeFile {r : Removal} {row hash path content : Text}
    (hne : t.fileOf row ≠ path) (h : es.lookup path = some content) :
    (r.removeFile t es row hash).lookup path = some content := by
  unfold Removal.removeFile
  dsimp only
  split
  · exact h
  · split_ifs
    · exact h
    · rwa [AList.lookup_erase_ne hne.symm]
    · exact h

lemma Respects.doRemove (h : Respects t native d) (r : Removal) :
    ∀ path content, native.lookup path = some content →
      (r.doRemove t d).entries.lookup path = some content := by
  intro path content hpath
  have hfold : ∀ (rows : List (Sigma fun _ : Text => Text)) (es : Entries),
      (∀ row ∈ rows, t.fileOf row.1 ≠ path) → es.lookup path = some content →
      (rows.foldl (fun es row => r.removeFile t es row.1 row.2) es).lookup path = some content := by
    intro rows
    induction rows with
    | nil => exact fun es _ hes => hes
    | cons row rows ih =>
      intro es hrows hes
      rw [forall_mem_cons] at hrows
      exact ih _ hrows.2 (lookup_removeFile hrows.1 hes)
  unfold Removal.doRemove
  split
  · exact h.kept path content hpath
  · next text htext =>
    refine hfold _ _ (fun row hrow hfile => ?_) (h.kept path content hpath)
    have hkey : row.1 ∈ readManifest text := AList.mem_keys.mpr (mem_keys_of_mem hrow)
    exact h.unclaimed text htext row.1 hkey (hfile ▸ mem_of_lookup hpath)

def otherEntry : Text :=
  "version 6.1.0-13-amd64\nlinux /boot/vmlinuz-6.1.0-13-amd64\n"

/-- A machine whose EFI partition is mounted at `/boot/efi`, with the digest of `otherEntry`. -/
def machine : Target where
  esp := "/boot/efi"
  root := none
  sha256 _ := "af92d0146950faff87d8c8fcb81eed94dcf28ad6c1a33597c335b6fa4f1deb36"
  sha256_plain _ := by decide

/-- An install for the kernel that `otherEntry` is about. -/
def oneKernel : Invocation :=
  withImages ⟨"debian", debian_oneLine⟩ ["/boot/vmlinuz-6.1.0-13-amd64"]

def otherName : Text := "/boot/efi/loader/entries/fedora-6.1.0-13-amd64.conf"

/-- The name that `kernel-install` gives to the entry, which is the installer's own too. -/
def sameName : Text := "/boot/efi/loader/entries/debian-6.1.0-13-amd64.conf"

end Invocation

end LamBoot.Installer
