import LamBoot.Discovery.ConfNames
import LamBoot.Discovery.Permitted

/-!
# The entries of modules

What `discover_tools` makes of the modules on the ESP. Their paths are listed with slashes and the
name is looked for behind a backslash, so that the name of a module is its whole path.
-/

namespace LamBoot

open List Text

def modulesDir : Text := "/EFI/LamBoot/modules"

def modulePath (name : Text) : Text :=
  modulesDir ++ '/' :: name

def shippedManifest (sections : List (Text × Text)) : Text :=
  sections.flatMap fun s =>
    "[modules." ++ s.1 ++ "]\nname = \"" ++ s.2 ++ "\"\n\n"

def HasManifest (esp : Volume) (sections : List (Text × Text)) : Prop :=
  esp.readToStringStr "\\EFI\\LamBoot\\modules\\manifest.toml" = .ok (shippedManifest sections) ∧
    (sections.map Prod.fst).Nodup

section Tools

variable (env : Surroundings) (policy : Policy) (esp : Volume)

/-- The entries of modules are as documented: the id is that of the file name, the name is that of
the manifest, and different files have different ids. -/
structure ToolsAsDocumented : Prop where
  id : ∀ e ∈ discoverTools env policy esp, ∀ name, e.kind = .chainload (modulePath name) →
    e.id = "tool-" ++ stem name
  title : ∀ e ∈ discoverTools env policy esp, ∀ name, e.kind = .chainload (modulePath name) →
    ∀ sections, HasManifest esp sections → ∀ title, (stem name, title) ∈ sections → e.name = title
  distinct : ∀ e ∈ discoverTools env policy esp, ∀ e' ∈ discoverTools env policy esp,
    e.kind ≠ e'.kind → e.id ≠ e'.id

/-- No module is found: modules are off, or the policy forbids each of those there are. -/
def NoTools : Prop :=
  policy.modulesEnabled = true →
    ∀ path ∈ esp.glob "/EFI/LamBoot/modules/*.efi", policy.allowed env.lower path = false

variable {env policy esp} {e : BootEntry}

lemma exists_of_mem_glob_modules {path : Text}
    (h : path ∈ esp.glob "/EFI/LamBoot/modules/*.efi") :
    ∃ s, path = modulePath (s ++ ".efi") := by
  have hsplit : rsplitOnce '/' (normalizePathString "/EFI/LamBoot/modules/*.efi") =
      some (modulesDir, "*.efi".toList) := by decide
  have hdir : modulesDir ≠ [] ∧ modulesDir ≠ "/" := by decide
  rw [Volume.glob, hsplit] at h
  dsimp only at h
  rw [if_neg hdir.1] at h
  split at h
  · cases h
  · split at h
    · cases h
    · obtain ⟨file, hfile, rfl⟩ := mem_map.mp h
      have hmatch := (mem_filter.mp hfile).2
      have hglob : matchesGlob file.name "*.efi" = decide (".efi" <:+ file.name) := rfl
      rw [hglob, decide_eq_true_eq] at hmatch
      obtain ⟨s, hs⟩ := hmatch
      exact ⟨s, by rw [if_neg hdir.2, hs, modulePath]⟩

lemma extractFilename_modulePath_ne (s : Text) :
    extractFilename (modulePath (s ++ ".efi")) ≠ some s := by
  intro h
  obtain ⟨k, hk⟩ := exists_trimEndMatches_append ".efi" (afterLast '\\' (modulePath (s ++ ".efi")))
  rw [Option.some.inj h] at hk
  cases hsplit : rsplitOnce '\\' (modulePath (s ++ ".efi")) with
  | none =>
    -- the directory in front has a length that is not made up for by extensions
    rw [afterLast, hsplit] at hk
    have hlen := congrArg length hk
    have hflatten : (replicate k ".efi".toList).flatten.length = k * 4 := by simp
    have hdir : modulesDir.length = 20 := rfl
    have hext : ".efi".toList.length = 4 := rfl
    simp only [modulePath, length_append, length_cons, hflatten, hdir, hext] at hlen
    omega
  | some parts =>
    -- what is behind a backslash has none, and the stem has that one
    obtain ⟨before, after⟩ := parts
    replace hk : s ++ (replicate k ".efi".toList).flatten = after := by
      rw [hk, afterLast, hsplit]
    obtain ⟨hpath, hafter⟩ := rsplitOnce_eq_some_iff.mp hsplit
    have hback : '\\' ∈ modulePath (s ++ ".efi") := by
      rw [hpath]
      exact mem_append_right _ (mem_cons_self ..)
    have hmem : '\\' ∈ s := by
      simp only [modulePath, mem_append, mem_cons] at hback
      rcases hback with hback | hback | hback | hback
      · exact absurd hback (by decide)
      · exact absurd hback (by decide)
      · exact hback
      · exact absurd hback (by decide)
    exact hafter (hk ▸ mem_append_left _ hmem)

lemma exists_of_mem_discoverTools (h : e ∈ discoverTools env policy esp) :
    ∃ s filename, extractFilename (modulePath (s ++ ".efi")) = some filename ∧
      e.kind = .chainload (modulePath (s ++ ".efi")) ∧ e.id = "tool-" ++ filename := by
  unfold discoverTools at h
  split_ifs at h
  · cases h
  · obtain ⟨path, hpath, rfl⟩ := mem_map.mp h
    obtain ⟨s, rfl⟩ := exists_of_mem_glob_modules (mem_filter.mp hpath).1
    exact ⟨s, _, rfl, rfl, rfl⟩

lemma exists_id_ne (h : e ∈ discoverTools env policy esp) :
    ∃ name, e.kind = .chainload (modulePath name) ∧ e.id ≠ "tool-" ++ stem name := by
  obtain ⟨s, filename, hfilename, hkind, hid⟩ := exists_of_mem_discoverTools h
  have hstem : stem (s ++ ".efi") = s := stem_append (by decide)
  refine ⟨_, hkind, fun heq => extractFilename_modulePath_ne s ?_⟩
  rw [hid, hstem, append_cancel_left_eq] at heq
  rw [hfilename, heq]

lemma discoverTools_eq_nil_iff : discoverTools env policy esp = [] ↔ NoTools env policy esp := by
  unfold discoverTools NoTools
  cases policy.modulesEnabled <;> simp

/-- The entries of modules are as documented only where there are none. -/
theorem toolsAsDocumented_iff :
    ToolsAsDocumented env policy esp ↔ NoTools env policy esp := by
  rw [← discoverTools_eq_nil_iff]
  constructor
  · intro h
    refine eq_nil_iff_forall_not_mem.mpr fun e he => ?_
    obtain ⟨name, hkind, hid⟩ := exists_id_ne he
    exact hid (h.id e he name hkind)
  · intro h
    constructor <;> simp [h]

end Tools

def espWithModules : Volume :=
  .ofFiles "fat"
    [(["EFI", "LamBoot", "modules", "diag-shell.efi"].map String.toList, []),
      (["EFI", "LamBoot", "modules", "diag-shell.efi.efi"].map String.toList, []),
      (["EFI", "LamBoot", "modules", "manifest.toml"].map String.toList,
        shippedManifest [("diag-shell", "Diagnostic Shell")])]

/-- The entry of the shell has its path in its id and in its name; and the entry of the other file
has the same id. -/
theorem not_toolsAsDocumented_espWithModules :
    ¬ ToolsAsDocumented .plain {} espWithModules ∧
      (discoverTools .plain {} espWithModules).map (fun e => (e.id, e.name)) =
        replicate 2 ("tool-/EFI/LamBoot/modules/diag-shell".toList,
          "Tool: /EFI/LamBoot/modules/diag-shell".toList) := by
  have htools : (discoverTools .plain {} espWithModules).map (fun e => (e.id, e.name)) =
      replicate 2 ("tool-/EFI/LamBoot/modules/diag-shell".toList,
        "Tool: /EFI/LamBoot/modules/diag-shell".toList) := by decide +kernel
  refine ⟨fun h => ?_, htools⟩
  obtain ⟨e, he, -⟩ := exists_of_mem_map (htools ▸ mem_replicate.mpr ⟨by decide, rfl⟩)
  obtain ⟨name, hkind, hid⟩ := exists_id_ne he
  exact hid (h.id e he name hkind)

end LamBoot
