import LamBoot.Tools.Installer

/-!
# Kernel coverage

Whether every kernel the installer has found has an entry on the target once phase 5 is over. The
scan counts the entries under `/boot` of the machine that runs it.
-/

namespace LamBoot.Installer

open List Option

open Text BlsEntry Shell

/-! ### Version fields -/

section Fields

variable {key content field : Text}

lemma plain_of_fieldOf (h : fieldOf key content = some field) :
    ∀ c ∈ field, isBlank c = false ∧ c ≠ '\n' := by
  intro c hc
  obtain ⟨line, hline, rfl⟩ := map_eq_some_iff.mp h
  unfold secondField at hc
  cases hpiece : ((line.splitOnP isBlank).filter (· ≠ []))[1]? with
  | none =>
    rw [hpiece] at hc
    cases hc
  | some piece =>
    rw [hpiece] at hc
    have hmem := mem_of_mem_filter (mem_of_getElem? hpiece)
    obtain ⟨hin, hblank⟩ := of_mem_splitOnP hmem
    refine ⟨hblank c hc, ?_⟩
    rintro rfl
    exact not_mem_of_mem_splitOn (mem_of_find?_eq_some hline) (hin.subset hc)

lemma secondField_version {value : Text} (h : ∀ c ∈ value, isBlank c = false) :
    secondField (fieldLine "version".toList value) = value := by
  have hsplit : (fieldLine "version".toList value).splitOnP isBlank =
      ["version".toList, [], [], [], value] := by
    change ("version".toList ++ ' ' :: ([] ++ ' ' :: ([] ++ ' ' :: ([] ++ ' ' :: value)))).splitOnP
      isBlank = _
    rw [splitOnP_append_cons _ _ (by decide), splitOnP_append_cons _ _ (by decide),
      splitOnP_append_cons _ _ (by decide), splitOnP_append_cons _ _ (by decide),
      splitOnP_eq_singleton h]
    rfl
  rw [secondField, hsplit]
  cases value with
  | nil => rfl
  | cons c value => rfl

lemma fieldOf_entryText (t : Target) (i : Invocation) (k : Kernel)
    (hplain : ∀ c ∈ k.version, isBlank c = false ∧ c ≠ '\n') :
    fieldOf "version" (i.entryText t k) = some k.version := by
  have hline : '\n' ∉ k.version := fun h => (hplain _ h).2 rfl
  have htitle : '\n' ∉ fieldLine "title"
      (i.distroName.val ++ " (" ++ k.version ++ ")") := by
    simp [fieldLine, hline, i.distroName.property]
  have hversion : '\n' ∉ fieldLine "version" k.version := by
    simp [fieldLine, hline]
  obtain ⟨rest, hrest⟩ : ∃ rest, i.entryText t k =
      fieldLine "title" (i.distroName.val ++ " (" ++ k.version ++ ")") ++
        '\n' :: (fieldLine "version" k.version ++ '\n' :: rest) := by
    unfold Invocation.entryText
    simp only [cons_append, textOfFields_cons]
    exact ⟨_, rfl⟩
  rw [Shell.fieldOf, hrest, splitOn_append_of_not_mem htitle, splitOn_cons_eq_if_modifyHead,
    splitOn_append_of_not_mem hversion, splitOn_cons_eq_if_modifyHead]
  simp only [beq_self_eq_true, if_true, modifyHead_cons, append_nil]
  rw [List.find?_cons_of_neg (by exact Bool.false_ne_true), List.find?_cons_of_pos rfl,
    map_some, secondField_version fun c hc => (hplain c hc).1]

end Fields

def Target.IsEntryPath (t : Target) (path : Text) : Prop :=
  ∃ dir ∈ [t.espDir, t.bootDir], ∃ name, '/' ∉ name ∧ ".conf" <:+ name ∧
    path = inDir dir name

def Target.HasEntry (t : Target) (es : Entries) (version : Text) : Prop :=
  ∃ path, t.IsEntryPath path ∧
    ∃ content ∈ es.lookup path, fieldOf "version" content = some version

namespace Invocation

variable (t : Target) (i : Invocation) (d : Disk)

/-- Every kernel has an entry on the target after phase 5. -/
def Covers : Prop :=
  ∀ version ∈ i.kernelVersions t, t.HasEntry (i.phase5GenerateBls t d).entries version

/-- The scan finds an entry of the version that stays. -/
def ScanFinds (version : Text) : Prop :=
  version ≠ [] ∧ ∃ path content, i.Kept t d path content ∧
    ((confName t.espDir path).isSome ∨ (confName hostBootDir path).isSome) ∧
    fieldOf "version" content = some version

/-- The target has one that stays. -/
def TargetHas (version : Text) : Prop :=
  ∃ path content, i.Kept t d path content ∧ t.IsEntryPath path ∧
    fieldOf "version" content = some version

/-- An entry that can be written and read for a version: the scan finds none, or `--force` is
given, nothing is there under the installer's own name, and the version is one field. -/
structure Fills (version : Text) : Prop where
  uncovered : i.force = true ∨ ¬ i.ScanFinds t d version
  free : ∀ content, ¬ i.Kept t d (i.confPath t version) content
  wet : i.dryRun = false
  plain : ∀ c ∈ version, isBlank c = false ∧ c ≠ '\n'
  onTarget : t.IsEntryPath (i.confPath t version)

variable {t i d}

/-! ### The scan -/

lemma mem_scanned {es : Entries} {f : Text × Text} :
    f ∈ scanned t es ↔ ∃ path, es.lookup path = some f.2 ∧
      (confName t.espDir path = some f.1 ∨ confName hostBootDir path = some f.1) := by
  have hglob : ∀ dir, f ∈ globConf es dir ↔
      ∃ path, es.lookup path = some f.2 ∧ confName dir path = some f.1 := by
    intro dir
    unfold globConf
    rw [mem_filterMap]
    constructor
    · rintro ⟨⟨path, content⟩, hmem, hmap⟩
      obtain ⟨name, hname, rfl⟩ := map_eq_some_iff.mp hmap
      exact ⟨path, AList.mem_lookup_iff.mpr hmem, hname⟩
    · rintro ⟨path, hpath, hname⟩
      exact ⟨⟨path, f.2⟩, AList.mem_lookup_iff.mp hpath, by simp [hname]⟩
  rw [scanned, mem_append, hglob, hglob, ← exists_or]
  exact exists_congr fun path => and_or_left.symm

lemma mem_coveredVersions {es : Entries} {version : Text} :
    version ∈ coveredVersions t es ↔ version ≠ [] ∧ ∃ path content, es.lookup path = some content ∧
      ((confName t.espDir path).isSome ∨ (confName hostBootDir path).isSome) ∧
      fieldOf "version" content = some version := by
  unfold coveredVersions
  rw [mem_filterMap]
  constructor
  · rintro ⟨⟨name, content⟩, hf, hfield⟩
    obtain ⟨path, hpath, hname⟩ := mem_scanned.mp hf
    obtain ⟨hfield, hne⟩ := filter_eq_some_iff.mp hfield
    exact ⟨by simpa using hne, path, content, hpath,
      hname.imp isSome_of_mem isSome_of_mem, hfield⟩
  · rintro ⟨hne, path, content, hpath, hname, hfield⟩
    have hscanned : ∃ name, (name, content) ∈ scanned t es := by
      rcases hname with hname | hname
      · obtain ⟨name, hname⟩ := isSome_iff_exists.mp hname
        exact ⟨name, mem_scanned.mpr ⟨path, hpath, .inl hname⟩⟩
      · obtain ⟨name, hname⟩ := isSome_iff_exists.mp hname
        exact ⟨name, mem_scanned.mpr ⟨path, hpath, .inr hname⟩⟩
    obtain ⟨name, hname⟩ := hscanned
    exact ⟨(name, content), hname, filter_eq_some_iff.mpr ⟨hfield, by simpa using hne⟩⟩

lemma mem_coveredVersions_withoutStale {version : Text} :
    version ∈ coveredVersions t (i.withoutStale t d) ↔ i.ScanFinds t d version := by
  simp only [mem_coveredVersions, lookup_withoutStale, ScanFinds]

end Invocation

/-! ### Two installations -/

def Target.at (esp : Text) (root : Option Text) : Target where
  esp := esp
  root := root
  sha256 _ := []
  sha256_plain _ := by simp

namespace Invocation

def liveEntry : Text :=
  "title Live\nversion 6.1.0-13-amd64\nlinux /live/vmlinuz\n"

def twoKernels : Invocation :=
  .withImages ⟨"debian", debian_oneLine⟩
    ["/boot/vmlinuz-6.1.0-9-amd64", "/boot/vmlinuz-6.1.0-13-amd64"]

end Invocation

end LamBoot.Installer
