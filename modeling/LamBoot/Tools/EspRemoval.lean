import LamBoot.Tools.EspRelease

/-!
# What the removal by the manifest removes

A row of the manifest removes the file that its path leads to, which may be outside the partition. A
deploy lists also the files that it has left as they were.
-/

namespace LamBoot.EspDeploy

open List Text BlsEntry Shell Installer FileTree Option

/-- A tree in which everything is in a directory, with an EFI partition in it. -/
structure Mounted where
  esp : Esp
  nodes : Nodes
  inDir : ∀ p name node, nodes.lookup (p ++ [name]) = some node → nodes.isDir p = true
  isDir : nodes.isDir esp.place = true

namespace Esp

variable {esp : Esp} {force keepBls : Bool} {t : Nodes} {p : Place} {content : Text}

/-! ### Rows -/

lemma isDir_removeRow (r : Row) (q : Place) :
    Nodes.isDir (esp.removeRow force keepBls t r) q = t.isDir q := by
  unfold removeRow
  split
  · rfl
  · next p content h =>
    split_ifs
    · rfl
    · exact Nodes.isDir_erase_of_file (Nodes.fileAt_eq_some_iff.mp h).2 q

lemma lookup_removeRow (r : Row) :
    AList.lookup p (esp.removeRow force keepBls t r) = some (.file content) ↔
      t.lookup p = some (.file content) ∧
        ¬ (t.fileAt esp.place r.path = some (p, content) ∧
          ¬ esp.Spared force keepBls r content) := by
  unfold removeRow
  split
  · next h => simp [h]
  · next q content' h =>
    have hq := (Nodes.fileAt_eq_some_iff.mp h).2
    rw [h, some.injEq, Prod.mk.injEq]
    split_ifs with hspared
    · refine (and_iff_left ?_).symm
      rintro ⟨⟨rfl, rfl⟩, hnot⟩
      exact hnot hspared
    · by_cases hp : p = q
      · subst hp
        rw [AList.lookup_erase, hq, some.injEq, Node.file.injEq]
        refine iff_of_false nofun ?_
        rintro ⟨rfl, hnot⟩
        exact hnot ⟨⟨rfl, rfl⟩, hspared⟩
      · rw [AList.lookup_erase_ne hp]
        exact (and_iff_left fun h => hp h.1.1.symm).symm

lemma lookup_foldl_removeRow (rows : List Row) (t : Nodes) :
    AList.lookup p (rows.foldl (esp.removeRow force keepBls) t) = some (.file content) ↔
      t.lookup p = some (.file content) ∧
        ¬ ∃ r ∈ rows, t.fileAt esp.place r.path = some (p, content) ∧
          ¬ esp.Spared force keepBls r content := by
  induction rows generalizing t with
  | nil => simp
  | cons first rows ih =>
    rw [foldl_cons, ih, lookup_removeRow, and_assoc]
    refine and_congr_right fun hp => ?_
    rw [exists_mem_cons_iff, not_or]
    refine and_congr_right fun hfirst => not_congr ?_
    -- paths lead where they did, and the file is still there
    have hsame : AList.lookup p (esp.removeRow force keepBls t first) = some (.file content) :=
      (lookup_removeRow first).mpr ⟨hp, hfirst⟩
    refine exists_congr fun r => and_congr_right fun _ => and_congr_left fun _ => ?_
    rw [Nodes.fileAt_eq_some_iff, Nodes.fileAt_eq_some_iff, hp, hsame,
      Nodes.resolve_congr (isDir_removeRow first)]

/-! ### The removal -/

lemma lookup_espRemoveByManifest {after : Nodes}
    (h : esp.espRemoveByManifest force keepBls t = some after) : ∃ text,
    t.lookup (esp.place ++ manifestRel) = some (.file text) ∧ ∀ p content,
      after.lookup p = some (.file content) ↔
        t.lookup p = some (.file content) ∧ p ≠ esp.place ++ manifestRel ∧
          ¬ ∃ r ∈ espManifestParse text, t.fileAt esp.place r.path = some (p, content) ∧
            ¬ esp.Spared force keepBls r content := by
  unfold espRemoveByManifest at h
  split at h
  · next text htext =>
    refine ⟨text, htext, fun p content => ?_⟩
    cases h
    rw [Nodes.lookup_removeDir, Nodes.lookup_removeDir, Nodes.lookup_removeDir]
    by_cases hp : p = esp.place ++ manifestRel
    · rw [hp, AList.lookup_erase]
      exact iff_of_false nofun fun h => h.2.1 rfl
    · rw [AList.lookup_erase_ne hp, lookup_foldl_removeRow, and_iff_right hp]
  · cases h

end Esp

namespace Mounted

variable (m : Mounted) (force keepBls : Bool)

/-- Every file that is removed is on the EFI partition. -/
def RemovesInside : Prop :=
  ∀ after, m.esp.espRemoveByManifest force keepBls m.nodes = some after → ∀ p content,
    m.nodes.lookup p = some (.file content) → after.lookup p ≠ some (.file content) →
      m.esp.place <+: p

/-- Every row that is not kept names a file on the EFI partition. -/
def RowsInside : Prop :=
  ∀ text, m.nodes.lookup (m.esp.place ++ manifestRel) = some (.file text) →
    ∀ r ∈ Esp.espManifestParse text, ∀ p content,
      m.nodes.fileAt m.esp.place r.path = some (p, content) → ¬ m.esp.place <+: p →
        m.esp.Spared force keepBls r content

/-- Without force the removal deletes, besides the manifest, only files with the recorded hash, and
it leaves the others as they are. -/
def RemovesRecorded : Prop :=
  ∀ after, m.esp.espRemoveByManifest false keepBls m.nodes = some after →
    (∀ p content, after.lookup p = some (.file content) →
      m.nodes.lookup p = some (.file content)) ∧
    ∀ p content, m.nodes.lookup p = some (.file content) →
      after.lookup p ≠ some (.file content) → p ≠ m.esp.place ++ manifestRel →
        ∃ text, m.nodes.lookup (m.esp.place ++ manifestRel) = some (.file text) ∧
          ∃ r ∈ Esp.espManifestParse text,
            m.nodes.fileAt m.esp.place r.path = some (p, content) ∧
              m.esp.sha256 content = r.hash

variable {m force keepBls}

lemma removesInside_iff : m.RemovesInside force keepBls ↔ m.RowsInside force keepBls := by
  constructor
  · intro h text htext r hr p content hfile hout
    by_contra hspared
    obtain ⟨after, hafter⟩ : ∃ after,
        m.esp.espRemoveByManifest force keepBls m.nodes = some after := by
      unfold Esp.espRemoveByManifest
      rw [htext]
      exact ⟨_, rfl⟩
    obtain ⟨text', htext', hleft⟩ := Esp.lookup_espRemoveByManifest hafter
    rw [htext, some.injEq, Node.file.injEq] at htext'
    subst htext'
    refine hout (h after hafter p content (Nodes.fileAt_eq_some_iff.mp hfile).2 fun hkept => ?_)
    exact ((hleft p content).mp hkept).2.2 ⟨r, hr, hfile, hspared⟩
  · intro h after hafter p content hp hgone
    obtain ⟨text, htext, hleft⟩ := Esp.lookup_espRemoveByManifest hafter
    by_contra hout
    refine hgone ((hleft p content).mpr ⟨hp, ?_, ?_⟩)
    · rintro rfl
      exact hout (prefix_append _ _)
    · rintro ⟨r, hr, hfile, hspared⟩
      exact hspared (h text htext r hr p content hfile hout)

lemma removesRecorded : m.RemovesRecorded keepBls := by
  intro after hafter
  obtain ⟨text, htext, hleft⟩ := Esp.lookup_espRemoveByManifest hafter
  refine ⟨fun p content h => ((hleft p content).mp h).1, fun p content hp hgone hne => ?_⟩
  rw [ne_eq, hleft, not_and, not_and, not_not] at hgone
  obtain ⟨r, hr, hfile, hspared⟩ := hgone hp hne
  refine ⟨text, htext, r, hr, hfile, ?_⟩
  by_contra hhash
  exact hspared (.inr ⟨hhash, rfl⟩)

end Mounted

/-! ### Deploying and removing -/

namespace Mounted

variable (m : Mounted) (r : Release) (keepBls : Bool)

/-- A deploy that preserves the policy, and the removal by its manifest, leave every file that the
deploy has not written to. -/
def LeavesUnwritten : Prop :=
  ∀ after written, m.esp.deployAndRemove r keepBls m.nodes = some (after, written) →
    ∀ p content, m.nodes.lookup p = some (.file content) → p ∉ written →
      after.lookup p = some (.file content)

/-- There is no file where the release has one that it would not write: neither one with the same
hash as a file that is copied when it differs, nor a policy. -/
def NothingLeft : Prop :=
  (∀ c ∈ r.copies, c.always = false → ∀ old,
    m.nodes.lookup (m.esp.place ++ c.rel) = some (.file old) →
      m.esp.sha256 c.content ≠ m.esp.sha256 old) ∧
  ((r.dist.files.lookup ["policy.toml".toList]).isSome → ∀ old,
    m.nodes.lookup (m.esp.place ++ Esp.policyRel) ≠ some (.file old))

variable {m r keepBls}

lemma isDir_of_lookup {p q : Place} {node : Node} (hq : q ≠ [])
    (h : m.nodes.lookup (p ++ q) = some node) : m.nodes.isDir p = true := by
  induction q using List.reverseRecOn generalizing node with
  | nil => exact absurd rfl hq
  | append_singleton q name ih =>
    rw [← append_assoc] at h
    have hdir := m.inDir _ _ _ h
    by_cases hnil : q = []
    · rwa [hnil, append_nil] at hdir
    · rcases Nodes.isDir_iff.mp hdir with hroot | hdir
      · exact absurd (append_eq_nil_iff.mp hroot).2 hnil
      · exact ih hnil hdir

/-- A file that a release leaves alone: it has the same content, or it is the policy. -/
def Left (m : Mounted) (r : Release) (rel : Place) (old : Text) : Prop :=
  (∃ c ∈ r.copies, c.always = false ∧ c.rel = rel ∧
    m.esp.sha256 c.content = m.esp.sha256 old) ∨
  (rel = Esp.policyRel ∧ (r.dist.files.lookup ["policy.toml".toList]).isSome = true)

lemma deploy_eq : m.esp.deploy r m.nodes =
    m.esp.espDeployPolicy r.dist true (r.copies.foldl m.esp.deployCopy ⟨m.nodes, [], []⟩) := by
  rw [Release.copies, foldl_append, foldl_append]
  rfl

lemma over_deploy : Esp.Over m.esp m.nodes (m.Left r) (m.esp.deploy r m.nodes) := by
  have hstart : Esp.Over m.esp m.nodes (m.Left r) ⟨m.nodes, [], []⟩ :=
    ⟨fun _ hq => hq, fun _ _ h _ => h, fun _ hq => .inl hq, by simp, by simp⟩
  rw [deploy_eq]
  refine (hstart.foldl_deployCopy (fun c => Release.isDest_of_mem_copies) ?_).espDeployPolicy ?_
  · intro c hc halways old hold hsame
    exact .inl ⟨c, hc, halways, rfl, hsame⟩
  · intro hpolicy old hold
    exact .inr ⟨rfl, hpolicy⟩

lemma untouched_of_left {rel : Place} {old : Text} (h : m.Left r rel old)
    (hold : m.nodes.lookup (m.esp.place ++ rel) = some (.file old)) :
    IsDest rel ∧ Esp.Untouched m.esp rel old (m.esp.deploy r m.nodes) ∧
      rel ∈ (m.esp.deploy r m.nodes).listed := by
  have hstart : Esp.Untouched m.esp rel old ⟨m.nodes, [], []⟩ := ⟨hold, by simp⟩
  rw [deploy_eq]
  rcases h with ⟨c, hc, halways, rfl, hsha⟩ | ⟨rfl, hpolicy⟩
  · have hdest := Release.isDest_of_mem_copies hc
    obtain ⟨huntouched, hlisted⟩ := hstart.foldl_deployCopy hdest
      (fun c' => Release.isDest_of_mem_copies) fun c' hc' hrel => by
        obtain ⟨halways', hcontent⟩ := Release.eq_of_rel_eq hc hc' hrel halways
        exact ⟨halways', by rw [hcontent, hsha]⟩
    obtain ⟨hend, hlist⟩ := huntouched.espDeployPolicy hdest
      (Release.rel_ne_of_mem_copies hc).2 r.dist
    exact ⟨hdest, hend, hlist (.inl (hlisted (.inr ⟨c, hc, rfl⟩)))⟩
  · have hdest := Esp.isDest_policyRel
    obtain ⟨huntouched, -⟩ := hstart.foldl_deployCopy hdest
      (fun c' => Release.isDest_of_mem_copies) fun c' hc' hrel =>
        absurd hrel (Release.rel_ne_of_mem_copies hc').1
    obtain ⟨hend, hlist⟩ := huntouched.espDeployPolicy hdest (by decide) r.dist
    exact ⟨hdest, hend, hlist (.inr ⟨rfl, hpolicy⟩)⟩

lemma espManifestParse_deploy : Esp.espManifestParse (textOf (r.header.lines ++
    ((m.esp.deploy r m.nodes).listed.filterMap
      (m.esp.manifestRow (m.esp.deploy r m.nodes).nodes)).map Row.text)) =
    (m.esp.deploy r m.nodes).listed.filterMap
      (m.esp.manifestRow (m.esp.deploy r m.nodes).nodes) := by
  refine Esp.espManifestParse_textOf r.header fun row hrow => ?_
  obtain ⟨rel, hrel, hrow⟩ := mem_filterMap.mp hrow
  exact Esp.isPlainRow_of_manifestRow (over_deploy.dest rel hrel) hrow

lemma of_deployAndRemove {after : Nodes} {written : List Place}
    (h : m.esp.deployAndRemove r keepBls m.nodes = some (after, written)) :
    (m.esp.deploy r m.nodes).nodes.isDir (m.esp.place ++ manifestRel) = false ∧
      written = (m.esp.deploy r m.nodes).written ++ [m.esp.place ++ manifestRel] ∧
      m.esp.espRemoveByManifest false keepBls ((m.esp.deploy r m.nodes).nodes.insert
        (m.esp.place ++ manifestRel) (.file (textOf (r.header.lines ++
          ((m.esp.deploy r m.nodes).listed.filterMap
            (m.esp.manifestRow (m.esp.deploy r m.nodes).nodes)).map Row.text)))) =
        some after := by
  unfold Esp.deployAndRemove at h
  dsimp only at h
  split at h
  · cases h
  · next t target hwrite =>
    obtain ⟨after', hafter, heq⟩ := map_eq_some_iff.mp h
    cases heq
    obtain ⟨-, htarget, -, rfl⟩ := Nodes.put_eq_some_iff.mp hwrite
    obtain ⟨text, htext, -⟩ := Esp.lookup_espRemoveByManifest hafter
    cases hdir : (m.esp.deploy r m.nodes).nodes.isDir (m.esp.place ++ manifestRel) with
    | false =>
      rw [hdir, if_neg (by decide)] at htarget
      subst htarget
      exact ⟨rfl, rfl, hafter⟩
    | true =>
      rw [hdir, if_pos rfl] at htarget
      have hne : m.esp.place ++ manifestRel ≠ target := by
        rw [htarget]
        simp
      rw [AList.lookup_insert_ne hne] at htext
      rcases Nodes.isDir_iff.mp hdir with hroot | hdir
      · simp [manifestRel] at hroot
      · rw [hdir] at htext
        cases htext

lemma leavesUnwritten_of_nothingLeft (h : m.NothingLeft r) : m.LeavesUnwritten r keepBls := by
  intro after written hrun p content hp hnot
  obtain ⟨hdir, rfl, hafter⟩ := of_deployAndRemove hrun
  have hover : Esp.Over m.esp m.nodes (m.Left r) (m.esp.deploy r m.nodes) := over_deploy
  simp only [mem_append, mem_singleton, not_or] at hnot
  obtain ⟨text, htext, hleft⟩ := Esp.lookup_espRemoveByManifest hafter
  rw [AList.lookup_insert, some.injEq, Node.file.injEq] at htext
  refine (hleft p content).mpr ⟨?_, hnot.2, ?_⟩
  · rw [AList.lookup_insert_ne hnot.2]
    exact hover.files p content hp hnot.1
  · rintro ⟨row, hrow, hfile, -⟩
    rw [← htext, espManifestParse_deploy] at hrow
    obtain ⟨rel, hrel, hrow⟩ := mem_filterMap.mp hrow
    obtain ⟨file, -, rfl⟩ := map_eq_some_iff.mp hrow
    have hdest := hover.dest rel hrel
    -- the row is that of the file, which the deploy has left
    have hplace : p = m.esp.place ++ rel :=
      Nodes.eq_of_resolve_join hdest.ne_nil (fun name hname => (hdest.isRowName name hname).1)
        (Nodes.fileAt_eq_some_iff.mp hfile).1
    subst hplace
    rcases hover.left rel hrel content hp hnot.1 with ⟨c, hc, halways, rfl, hsame⟩ | ⟨rfl, hpolicy⟩
    · exact h.1 c hc halways content hp hsame
    · exact h.2 hpolicy content hp

lemma fileAt_pathOf {t : Nodes} {rel : Place} {old : Text} (hdest : IsDest rel)
    (hold : m.nodes.lookup (m.esp.place ++ rel) = some (.file old))
    (hdirs : ∀ q, m.nodes.isDir q = true → t.isDir q = true)
    (hfile : t.lookup (m.esp.place ++ rel) = some (.file old)) :
    t.fileAt m.esp.place (Esp.pathOf rel) = some (m.esp.place ++ rel, old) := by
  refine Nodes.fileAt_eq_some_iff.mpr ⟨?_, hfile⟩
  refine Nodes.resolve_join hdest.ne_nil (fun name hname => (hdest.isRowName name hname).1)
    fun q hq hne => hdirs _ ?_
  obtain ⟨rest, rfl⟩ := hq
  rw [← append_assoc] at hold
  refine isDir_of_lookup ?_ hold
  rintro rfl
  exact hne (append_nil q).symm

lemma isDir_manifest_deploy (hdir : m.nodes.isDir (m.esp.place ++ manifestRel) = false) :
    (m.esp.deploy r m.nodes).nodes.isDir (m.esp.place ++ manifestRel) = false := by
  have hover : Esp.Over m.esp m.nodes (m.Left r) (m.esp.deploy r m.nodes) := over_deploy
  rw [← Bool.not_eq_true]
  intro hnew
  rcases hover.newDirs _ hnew with hold | ⟨rel, hdest, hprefix⟩
  · rw [hdir] at hold
    cases hold
  · exact hdest.not_manifestRel_prefix ((prefix_append_right_inj _).mp hprefix)

lemma not_leavesUnwritten_of_left {rel : Place} {old : Text} (h : m.Left r rel old)
    (hold : m.nodes.lookup (m.esp.place ++ rel) = some (.file old))
    (hdir : m.nodes.isDir (m.esp.place ++ manifestRel) = false) :
    ¬ m.LeavesUnwritten r keepBls := by
  intro hleaves
  obtain ⟨hdest, huntouched, hlisted⟩ := untouched_of_left h hold
  have hover : Esp.Over m.esp m.nodes (m.Left r) (m.esp.deploy r m.nodes) := over_deploy
  have hdir' := isDir_manifest_deploy (r := r) hdir
  have hne : m.esp.place ++ rel ≠ m.esp.place ++ manifestRel := fun heq =>
    hdest.ne_manifestRel (append_cancel_left heq)
  -- the manifest is written
  have hlib : (m.esp.deploy r m.nodes).nodes.isDir
      (m.esp.place ++ manifestRel).dropLast = true := by
    have hparent : (m.esp.place ++ manifestRel).dropLast = m.esp.place ++ libDir := by
      simp [manifestRel]
    have hlast : rel.dropLast <+: rel := dropLast_prefix rel
    obtain ⟨rest, hrest⟩ := hdest.libDir_prefix.trans hlast
    rw [hparent]
    have hrest' : m.nodes.lookup (m.esp.place ++ libDir ++ rest) = some (.file old) := by
      rw [append_assoc, hrest, hold]
    refine hover.dirs _ (isDir_of_lookup ?_ hrest')
    rintro rfl
    have hlength := hdest.libDir_prefix.length_le
    rw [length_dropLast, ← hrest, append_nil] at hlength
    exact absurd hlength (by decide)
  generalize htext : textOf (r.header.lines ++ ((m.esp.deploy r m.nodes).listed.filterMap
    (m.esp.manifestRow (m.esp.deploy r m.nodes).nodes)).map Row.text) = text
  have hwrite : m.esp.espManifestWrite r.header (m.esp.deploy r m.nodes).nodes
      (m.esp.deploy r m.nodes).listed = some ((m.esp.deploy r m.nodes).nodes.insert
        (m.esp.place ++ manifestRel) (.file text), m.esp.place ++ manifestRel) := by
    refine Nodes.put_eq_some_iff.mpr ⟨hlib, ?_, hdir', by rw [htext]⟩
    rw [hdir', if_neg (by decide)]
  obtain ⟨after, hafter⟩ : ∃ after, m.esp.espRemoveByManifest false keepBls
      ((m.esp.deploy r m.nodes).nodes.insert (m.esp.place ++ manifestRel) (.file text)) =
        some after := by
    unfold Esp.espRemoveByManifest
    rw [AList.lookup_insert]
    exact ⟨_, rfl⟩
  have hrun : m.esp.deployAndRemove r keepBls m.nodes =
      some (after, (m.esp.deploy r m.nodes).written ++ [m.esp.place ++ manifestRel]) := by
    unfold Esp.deployAndRemove
    dsimp only
    rw [hwrite]
    dsimp only
    rw [hafter]
    rfl
  have hkept := hleaves after _ hrun _ old hold (by
    simp only [mem_append, mem_singleton, not_or]
    exact ⟨huntouched.2, hne⟩)
  -- but its row is in the manifest, with its hash
  obtain ⟨text', htext', hleft⟩ := Esp.lookup_espRemoveByManifest hafter
  rw [AList.lookup_insert, some.injEq, Node.file.injEq] at htext'
  refine ((hleft _ old).mp hkept).2.2 ⟨⟨m.esp.sha256 old, Esp.pathOf rel⟩, ?_, ?_, ?_⟩
  · rw [← htext', ← htext, espManifestParse_deploy, mem_filterMap]
    refine ⟨rel, hlisted, ?_⟩
    rw [Esp.manifestRow, fileAt_pathOf hdest hold hover.dirs huntouched.1]
    rfl
  · refine fileAt_pathOf hdest hold (fun q hq => ?_) ?_
    · rw [Nodes.isDir_insert_file hdir']
      exact hover.dirs q hq
    · rw [AList.lookup_insert_ne hne]
      exact huntouched.1
  · rintro (⟨-, hentries⟩ | ⟨hhash, -⟩)
    · obtain ⟨rest, hrest⟩ := hdest.pathOf_eq
      rw [hrest] at hentries
      exact absurd (cons_prefix_cons.mp hentries).1 (by decide)
    · exact hhash rfl

lemma leavesUnwritten_iff : m.LeavesUnwritten r keepBls ↔
    m.nodes.isDir (m.esp.place ++ manifestRel) = true ∨ m.NothingLeft r := by
  constructor
  · intro hleaves
    by_contra hnot
    rw [not_or, Bool.not_eq_true] at hnot
    obtain ⟨hdir, hnothing⟩ := hnot
    refine hnothing ⟨fun c hc halways old hold hsame => ?_, fun hpolicy old hold => ?_⟩
    · exact not_leavesUnwritten_of_left (.inl ⟨c, hc, halways, rfl, hsame⟩) hold hdir hleaves
    · exact not_leavesUnwritten_of_left (.inr ⟨rfl, hpolicy⟩) hold hdir hleaves
  · rintro (hdir | hnothing)
    · intro after written hrun
      have hover : Esp.Over m.esp m.nodes (m.Left r) (m.esp.deploy r m.nodes) := over_deploy
      have hfalse := (of_deployAndRemove hrun).1
      rw [hover.dirs _ hdir] at hfalse
      cases hfalse
    · exact leavesUnwritten_of_nothingLeft hnothing

end Mounted

/-! ### A row that leads out, and a policy that was edited -/

/-- A partition under `/efi`, with a digest that tells the two policies apart. -/
def exampleEsp : Esp where
  place := ["efi"]
  sha256 content := if content = "edited" then ['1'] else ['0']
  sha256_hex content := by
    split_ifs
    · decide
    · decide
  pid := "42"

def mountedOf (nodes : Nodes) (h : ∀ p ∈ nodes.keys, nodes.isDir p.dropLast = true)
    (hesp : nodes.isDir exampleEsp.place = true) : Mounted where
  esp := exampleEsp
  nodes := nodes
  inDir p name node hlookup := by
    have hmem : p ++ [name] ∈ nodes.keys :=
      AList.mem_keys.mp (AList.lookup_isSome.mp (isSome_of_mem hlookup))
    have hdir := h _ hmem
    rwa [dropLast_concat] at hdir
  isDir := hesp

def exampleDirs : List (Sigma fun _ : Place => Node) :=
  [⟨["efi"], .dir⟩, ⟨["efi", "EFI"], .dir⟩, ⟨["efi", "EFI", "LamBoot"], .dir⟩, ⟨["etc"], .dir⟩]

def exampleNodes (files : List (Sigma fun _ : Place => Node)) : Nodes :=
  (exampleDirs ++ files).toAList

/-- A manifest with a row that leads to `/etc/passwd`. -/
def escaping : Mounted :=
  mountedOf (exampleNodes [⟨["etc", "passwd"], .file "root"⟩,
    ⟨["efi", "EFI", "LamBoot", ".install-manifest"],
      .file "sha256:0  ../etc/passwd\n"⟩]) (by decide) (by decide)

def edited : Mounted :=
  mountedOf (exampleNodes [⟨["efi", "EFI", "LamBoot", "policy.toml"],
    .file "edited"⟩]) (by decide) (by decide)

lemma nil_oneLine : '\n' ∉ ([] : Text) :=
  not_mem_nil

def policyRelease : Release where
  dist := {
    files := AList.singleton ["policy.toml"] "default"
    names := by
      intro p hp name hname
      rw [AList.mem_keys, AList.keys_singleton, mem_singleton] at hp
      subst hp
      rw [mem_singleton.mp hname]
      decide }
  arch := "x86_64"
  isSigned := false
  includeManifest := true
  drivers := []
  header := {
    timestamp := ⟨[], nil_oneLine⟩
    version := ⟨[], nil_oneLine⟩
    arch := ⟨[], nil_oneLine⟩
    distro := ⟨[], nil_oneLine⟩ }

namespace Mounted

end Mounted

end LamBoot.EspDeploy
