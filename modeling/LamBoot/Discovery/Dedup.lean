import LamBoot.Discovery.Permitted

/-!
# One entry for each file

The last step of discovery drops every entry whose file name, or disc label, an earlier entry has.
It compares what follows the last backslash.
-/

namespace LamBoot

open List Text

/-- Two entries boot the same file of the same volume, whichever slashes they spell it with. -/
def BootEntry.SameFile (a b : BootEntry) : Prop :=
  a.sourceVolumeIndex = b.sourceVolumeIndex ∧
    ∃ p ∈ a.kind.bootPath, ∃ q ∈ b.kind.bootPath, ∃ file,
      canonicalPath p = .ok file ∧ canonicalPath q = .ok file

def EntryKind.isImage : EntryKind → Bool
  | .chainload _ | .uki _ _ => true
  | .linuxLegacy _ _ _ | .iso _ => false

section Dedup

variable (env : Surroundings) (policy : Policy) (volumes : List Volume)
  (selfImageSha256 : Option Bytes)

/-- What the last step is for: entry files stay, only a second entry for a file of the menu is
dropped, and no image stays that an entry file names as well. -/
structure OneEntryPerFile (entries : List BootEntry) : Prop where
  keepsBls : ∀ b ∈ (allBls env policy volumes).2, toBootEntry b ∈ entries
  drops : ∀ e ∈ offeredEntries env policy volumes selfImageSha256, e ∉ entries →
    e.blsFilename = none ∧ ∃ e' ∈ entries, e.SameFile e'
  noCopies : ∀ e ∈ entries, e.blsFilename = none → e.kind.isImage = true →
    ∀ e' ∈ entries, e'.blsFilename ≠ none → ¬ e.SameFile e'

variable {env policy volumes selfImageSha256}

lemma blsFilename_of_mem_offered {e : BootEntry}
    (h : e ∈ offeredEntries env policy volumes selfImageSha256) (hfile : e.blsFilename ≠ none) :
    ∃ b ∈ (allBls env policy volumes).2, e = toBootEntry b := by
  rw [offeredEntries_eq, mem_append] at h
  rcases h with h | h
  · obtain ⟨b, hb, rfl⟩ := mem_map.mp h
    exact ⟨b, hb, rfl⟩
  · obtain ⟨o, hbls, ho⟩ := comesFrom_of_mem_otherEntries h
    exact absurd (ho.blsFilename_eq_none hbls) hfile

lemma blsFilename_toBootEntry_ne_none {b : BlsEntry} (h : b ∈ (allBls env policy volumes).2) :
    (toBootEntry b).blsFilename ≠ none := by
  simp [(foundOn_of_mem_allBls h).toBootEntry_eq.2.1]

lemma firstOffer_toBootEntry_iff (selfImageSha256 : Option Bytes) :
    (∀ b ∈ (allBls env policy volumes).2,
        FirstOffer env policy volumes selfImageSha256 (toBootEntry b)) ↔
      ∀ b ∈ (allBls env policy volumes).2, ∀ b' ∈ (allBls env policy volumes).2,
        dedupKey env.lower (toBootEntry b) = dedupKey env.lower (toBootEntry b') →
          toBootEntry b = toBootEntry b' := by
  constructor
  · intro h b hb b' hb' hkey
    exact (h b hb).eq_of_key (h b' hb') hkey
  · intro h b hb
    have hmem : toBootEntry b ∈ (allBls env policy volumes).2.map toBootEntry :=
      mem_map_of_mem hb
    obtain ⟨e, hfirst, hkey⟩ : ∃ e,
        FirstWithKey (dedupKey env.lower) ((allBls env policy volumes).2.map toBootEntry) e ∧
          dedupKey env.lower e = dedupKey env.lower (toBootEntry b) := exists_firstWithKey _ hmem
    obtain ⟨b', hb', rfl⟩ := mem_map.mp hfirst.mem
    rw [h b hb b' hb' hkey.symm]
    rw [FirstOffer, offeredEntries_eq]
    exact hfirst.append _

end Dedup

/-! ### A kernel that is lost and an image that stays -/

def espNamingUki : Volume :=
  .ofFiles "fat"
    [(["loader", "entries", "a.conf"], "linux /EFI/Linux/a.efi"), (["EFI", "Linux", "a.efi"], [])]

def volumeWithConf (name content : Text) : Volume :=
  .ofFiles "ext4" [(["loader", "entries", name], content)]

end LamBoot
