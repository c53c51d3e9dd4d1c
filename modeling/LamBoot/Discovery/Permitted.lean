import LamBoot.Discovery.Origin
import LamBoot.Policy.Filter

/-!
# The path lists and the menu

Every scanner applies the path filter itself. All of them ask about the path that is booted, except
that an entry file of the Boot Loader Specification is asked about by its kernel and boots by its
`efi` key where it has one.
-/

namespace LamBoot

open Text

/-- Whether an entry comes from an entry file and boots by its `efi` key. -/
def BootEntry.bootsByEfiKey (entry : BootEntry) : Bool :=
  match entry.kind with
  | .chainload _ => entry.blsFilename.isSome
  | _ => false

section Filtered

variable (env : Surroundings) (policy : Policy)

/-- The filter has accepted the path an entry boots, unless it boots by an `efi` key. -/
def Filtered (entry : BootEntry) : Prop :=
  ∀ path, entry.kind.bootPath = some path → entry.bootsByEfiKey = false →
    policy.allowed env.lower path = true

variable {env policy} {volumes : List Volume} {e : BootEntry}

lemma FoundOn.filtered {entry : BlsEntry} {index : Nat} (h : FoundOn env policy index entry) :
    Filtered env policy (toBootEntry entry) := by
  intro path hpath hefi
  unfold toBootEntry at hpath hefi
  cases he : entry.efi with
  | some efiPath => simp [he, BootEntry.bootsByEfiKey] at hefi
  | none =>
    cases hl : entry.linux with
    | none => exact absurd h.bootable (by simp [he, hl])
    | some linuxPath =>
      simp only [he, hl, EntryKind.bootPath, Option.some.injEq] at hpath
      exact hpath ▸ h.kernel linuxPath hl

lemma ownFile_of_bootPath {path : Text} (hbls : e.blsFilename = none)
    (hpath : e.kind.bootPath = some path) :
    e.ownFile = .image path ∨ e.ownFile = .uki path ∨ e.ownFile = .kernel path := by
  unfold BootEntry.ownFile
  rw [hbls]
  cases hkind : e.kind <;> rw [hkind] at hpath <;> cases hpath <;> simp

lemma ComesFrom.filtered {o : Origin} (h : ComesFrom env policy volumes e o) :
    Filtered env policy e := by
  by_cases hbls : ∃ entry, o = .bls entry
  · obtain ⟨entry, rfl⟩ := hbls
    rw [h.whole entry rfl]
    exact (foundOn_of_mem_allBls h.valid).filtered
  · intro path hpath _
    have hne : ∀ entry, o ≠ .bls entry := fun entry ho => hbls ⟨entry, ho⟩
    have hfile := ownFile_of_bootPath (h.blsFilename_eq_none hne) hpath
    rw [h.file] at hfile
    have hvalid := h.valid
    cases o with
    | bls entry => exact absurd rfl (hne entry)
    | isoFile dir name => simp [Origin.file] at hfile
    | optical label => simp [Origin.file] at hfile
    | uki number ukiPath =>
      obtain ⟨esp, -, hnumber⟩ := hvalid
      have hallowed := (List.mem_filter.mp (List.mem_of_getElem? hnumber)).2
      simp only [Origin.file, reduceCtorEq, EntryFile.uki.injEq, false_or, or_false] at hfile
      exact hfile ▸ hallowed
    | directory name previous =>
      simp only [Origin.file, reduceCtorEq, EntryFile.kernel.injEq, false_or] at hfile
      exact hfile ▸ hvalid.2
    | loader loaderPath id =>
      simp only [Origin.file, reduceCtorEq, EntryFile.image.injEq, or_false] at hfile
      exact hfile ▸ hvalid.2
    | tool toolPath =>
      simp only [Origin.file, reduceCtorEq, EntryFile.image.injEq, or_false] at hfile
      exact hfile ▸ hvalid.2

lemma filtered_of_mem_offered {selfImageSha256 : Option Bytes}
    (h : e ∈ offeredEntries env policy volumes selfImageSha256) : Filtered env policy e := by
  obtain ⟨o, ho⟩ := comesFrom_of_mem_offered h
  exact ho.filtered

end Filtered

/-! ### The menu and the lists -/

variable (env : Surroundings) (policy : Policy) (volumes : List Volume)
  (selfImageSha256 : Option Bytes)

/-- The menu boots only what the lists permit exactly where, of the offers that no earlier file name
hides, those with an `efi` key have a permitted one, and at the paths of the others the filter reads
the lists strictly. -/
theorem discoverAllEntries_permitted_iff :
    (∀ e ∈ (discoverAllEntries env policy volumes selfImageSha256).entries, ∀ path,
        e.kind.bootPath = some path → policy.Permits path) ↔
      ∀ e, FirstWithKey (dedupKey env.lower) (offeredEntries env policy volumes selfImageSha256) e →
        ∀ path, e.kind.bootPath = some path →
          if e.bootsByEfiKey then policy.Permits path else policy.ReadStrictly env.lower path := by
  have hpath : ∀ e path,
      FirstOffer env policy volumes selfImageSha256 e → e.kind.bootPath = some path →
        (policy.Permits path ↔
          if e.bootsByEfiKey then policy.Permits path else policy.ReadStrictly env.lower path) := by
    intro e path he hpath
    split_ifs with hefi
    · rfl
    · exact Policy.permits_iff_readStrictly
        (filtered_of_mem_offered he.mem path hpath (Bool.not_eq_true _ ▸ hefi))
  constructor
  · intro h e he path hp
    exact (hpath e path he hp).mp (h e (mem_discovered_iff.mpr he) path hp)
  · intro h e he path hp
    have hfirst := mem_discovered_iff.mp he
    exact (hpath e path hfirst hp).mpr (h e hfirst path hp)

/-! ### Two denied entries on the menu -/

def Surroundings.plain : Surroundings where
  lower := .asciiOnly
  sort := .merge
  sha256 := id
  displayStatus _ := []
  readUkiMetadata _ _ := none
  scanOpticalHandles := []
  bootedViaRemovableFallback := false

def espWithUkiAndEfiKey : Volume where
  backendTag := "fat".toList
  read path :=
    if path.segments = ["loader".toList, "entries".toList, "tool.conf".toList] then
      .ok (utf8 "efi /EFI/old/tool.efi".toList)
    else .error .notFound
  fileExists _ := .ok false
  readDir path :=
    if path.segments = ["EFI".toList, "Linux".toList] then .ok [⟨"old.efi".toList, .regular⟩]
    else if path.segments = ["loader".toList, "entries".toList] then
      .ok [⟨"tool.conf".toList, .regular⟩]
    else .error .notFound

def denyOld : Policy :=
  { denylist := ["\\EFI\\old\\*", "\\EFI\\Linux\\old.efi"] }

/-- Both denied files are on the menu. -/
theorem denied_entries_discovered :
    (discoverAllEntries .plain denyOld [espWithUkiAndEfiKey] none).entries.map
        (fun e => e.kind.bootPath) =
      [some "\\EFI\\old\\tool.efi".toList, some "/EFI/Linux/old.efi".toList] ∧
    ¬ denyOld.Permits "\\EFI\\old\\tool.efi" ∧
      ¬ denyOld.Permits "/EFI/Linux/old.efi" := by
  refine ⟨by decide +kernel, fun h => ?_, fun h => ?_⟩
  · exact h.deny "\\EFI\\old\\*" (by decide) (by decide)
  · exact h.deny "\\EFI\\Linux\\old.efi" (by decide) (by decide)

end LamBoot
