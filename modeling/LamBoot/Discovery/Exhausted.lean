import LamBoot.Discovery.Copies
import LamBoot.Discovery.Permitted

/-!
# Exhausted entries on the menu

An entry file whose counter has run out is meant to come after all that may still be tried. The scan
of each volume sorts its own entries that way, but the lists of the volumes then follow one another,
and where three entries of a volume clash, the comparator is no order and the sort may do anything.
-/

namespace LamBoot

open List Text

def BootEntry.exhausted (entry : BootEntry) : Bool :=
  entry.blsFilename.any fun filename => (BlsEntry.ofFilename filename).triesLeft == some 0

def BootEntry.isBls (entry : BootEntry) : Bool :=
  entry.blsFilename.isSome

/-- No exhausted entry comes before an entry file that is not exhausted; so the first of the entry
files, which is the default, is exhausted only where all are. -/
structure ExhaustedLast (entries : List BootEntry) : Prop where
  order : entries.Pairwise fun a b =>
    a.exhausted = true → b.isBls = true → b.exhausted = true
  default : ∀ first, entries.find? BootEntry.isBls = some first →
    (∃ e ∈ entries, e.isBls = true ∧ e.exhausted = false) → first.exhausted = false

/-! ### Entry files and their volumes -/

section Conf

variable (env : Surroundings) (policy : Policy) (volumes : List Volume)

/-- The entries that the files of a volume give, in the order in which they are listed. -/
def volumeConfs (volume : Volume) (index : Nat) : List BlsEntry :=
  match volume.readDirStr "/loader/entries" with
  | .error _ => []
  | .ok filenames =>
    filenames.filterMap fun filename => (scanConf env policy volume index filename).2

def confEntries : List BlsEntry :=
  (volumes.mapIdx fun index volume => volumeConfs env policy volume index).flatten

/-- The name of the file that an entry boots. -/
def confKey (e : BlsEntry) : Text :=
  dedupKey env.lower (toBootEntry e)

/-- No entry file of an earlier volume boots a file of the same name, so that the entry is not
hidden behind one. -/
def FirstVolume (e : BlsEntry) : Prop :=
  ∀ c ∈ confEntries env policy volumes, confKey env c = confKey env e →
    e.sourceVolumeIndex ≤ c.sourceVolumeIndex

/-- Three entry files of a volume clash, so that the order in which its entries come out of the sort
is not specified. -/
def Unordered (index : Nat) : Prop :=
  ∃ a ∈ confEntries env policy volumes, ∃ b ∈ confEntries env policy volumes,
    ∃ c ∈ confEntries env policy volumes, a.sourceVolumeIndex = index ∧
      b.sourceVolumeIndex = index ∧ c.sourceVolumeIndex = index ∧
        VersionClash policy.blsIgnoreSortKey a b c

/-- An exhausted entry file that can be listed before one that is not exhausted. It is on an earlier
volume and no other file of that volume takes its place, or the order of their volume is not
specified. -/
structure Overtakes (a b : BlsEntry) : Prop where
  mem : a ∈ confEntries env policy volumes ∧ b ∈ confEntries env policy volumes
  exhausted : isBad a = true
  good : isBad b = false
  first : FirstVolume env policy volumes a ∧ FirstVolume env policy volumes b
  place : a.sourceVolumeIndex < b.sourceVolumeIndex ∧
      (Unordered env policy volumes a.sourceVolumeIndex ∨
        ∀ c ∈ confEntries env policy volumes, c.sourceVolumeIndex = a.sourceVolumeIndex →
          confKey env c = confKey env a → isBad c = true) ∨
    a.sourceVolumeIndex = b.sourceVolumeIndex ∧
      Unordered env policy volumes a.sourceVolumeIndex ∧ confKey env a ≠ confKey env b

end Conf

/-! ### The scans -/

section Scans

variable {env : Surroundings} {policy : Policy} {volumes : List Volume}
  {selfImageSha256 : Option Bytes}

def scannedBls (env : Surroundings) (policy : Policy) (volumes : List Volume) : List BlsEntry :=
  (volumes.mapIdx fun index volume => scanVolumeForBls env policy volume index).flatMap (·.2)

/-- A scan sorts what the files of the volume give. -/
lemma scanVolumeForBls_snd (volume : Volume) (index : Nat) :
    (scanVolumeForBls env policy volume index).2 =
      env.sort.apply (fun a b => blsSortCompare a b policy.blsIgnoreSortKey)
        (volumeConfs env policy volume index) := by
  unfold scanVolumeForBls volumeConfs
  cases volume.readDirStr "/loader/entries" with
  | error e => exact (env.sort.perm _ []).eq_nil.symm
  | ok filenames => exact congrArg (env.sort.apply _) filterMap_map

lemma mem_volumeConfs_iff {index : Nat} {volume : Volume} (hvolume : volumes[index]? = some volume)
    {e : BlsEntry} : e ∈ volumeConfs env policy volume index ↔
      e ∈ confEntries env policy volumes ∧ e.sourceVolumeIndex = index := by
  have hindex {volume : Volume} {index : Nat} {e : BlsEntry}
      (h : e ∈ volumeConfs env policy volume index) : e.sourceVolumeIndex = index := by
    have hscan : e ∈ (scanVolumeForBls env policy volume index).2 := by
      rwa [scanVolumeForBls_snd, SliceSort.mem_apply]
    exact (foundOn_of_mem_scan hscan).index
  simp only [confEntries, mem_flatten, mem_mapIdx]
  constructor
  · intro h
    obtain ⟨hlt, rfl⟩ := List.getElem?_eq_some_iff.mp hvolume
    exact ⟨⟨_, ⟨index, hlt, rfl⟩, h⟩, hindex h⟩
  · rintro ⟨⟨_, ⟨other, hlt, rfl⟩, h⟩, rfl⟩
    obtain rfl := hindex h
    obtain ⟨-, rfl⟩ := List.getElem?_eq_some_iff.mp hvolume
    exact h

lemma mem_scannedBls_iff {e : BlsEntry} :
    e ∈ scannedBls env policy volumes ↔ e ∈ confEntries env policy volumes := by
  simp only [scannedBls, confEntries, mem_flatMap, mem_flatten, mem_mapIdx]
  constructor
  · rintro ⟨_, ⟨index, hlt, rfl⟩, h⟩
    exact ⟨_, ⟨index, hlt, rfl⟩, by rwa [scanVolumeForBls_snd, SliceSort.mem_apply] at h⟩
  · rintro ⟨_, ⟨index, hlt, rfl⟩, h⟩
    exact ⟨_, ⟨index, hlt, rfl⟩, by rwa [scanVolumeForBls_snd, SliceSort.mem_apply]⟩

/-- The comparator is an order among the entries of a volume exactly where no three clash. -/
lemma lawfulOn_volumeConfs_iff {index : Nat} {volume : Volume}
    (hvolume : volumes[index]? = some volume) :
    SliceSort.LawfulOn (fun a b => blsSortCompare a b policy.blsIgnoreSortKey)
        (volumeConfs env policy volume index) ↔ ¬ Unordered env policy volumes index := by
  rw [SliceSort.LawfulOn, and_iff_right fun a b => blsSortCompare_swap a b _]
  simp only [transAt_blsSortCompare_iff, mem_volumeConfs_iff hvolume, Unordered]
  push Not
  exact ⟨fun h a ha b hb c hc hai hbi hci => h a ⟨ha, hai⟩ b ⟨hb, hbi⟩ c ⟨hc, hci⟩,
    fun h a ha b hb c hc => h a ha.1 b hb.1 c hc.1 ha.2 hb.2 hc.2⟩

/-- The entry `a` stands no later than `b`: by their volumes, and on one volume good entries before
exhausted ones, or by a rank where the order of the volume is not specified. -/
def NoLater (env : Surroundings) (policy : Policy) (volumes : List Volume) (rank : BlsEntry → Nat)
    (a b : BlsEntry) : Prop :=
  a.sourceVolumeIndex < b.sourceVolumeIndex ∨ a.sourceVolumeIndex = b.sourceVolumeIndex ∧
    (Unordered env policy volumes a.sourceVolumeIndex → rank a ≤ rank b) ∧
      (¬ Unordered env policy volumes a.sourceVolumeIndex → isBad a = true → isBad b = true)

variable {rank : BlsEntry → Nat} {a b c : BlsEntry}

lemma NoLater.refl (a : BlsEntry) : NoLater env policy volumes rank a a :=
  .inr ⟨rfl, fun _ => le_rfl, fun _ => id⟩

lemma NoLater.le (h : NoLater env policy volumes rank a b) :
    a.sourceVolumeIndex ≤ b.sourceVolumeIndex := by
  rcases h with h | ⟨h, -⟩
  · exact h.le
  · exact h.le

lemma NoLater.trans (hab : NoLater env policy volumes rank a b)
    (hbc : NoLater env policy volumes rank b c) : NoLater env policy volumes rank a c := by
  rcases hab with hab | ⟨hab, hrank, hbad⟩
  · exact .inl (hab.trans_le hbc.le)
  · rcases hbc with hbc | ⟨hbc, hrank', hbad'⟩
    · exact .inl (hab.trans_lt hbc)
    · rw [← hab] at hrank' hbad'
      exact .inr ⟨hab.trans hbc, fun hu => (hrank hu).trans (hrank' hu),
        fun hu h => hbad' hu (hbad hu h)⟩

lemma pairwise_scannedBls (hsort : env.sort.SortsWhereLawful)
    (hrank : ∀ index volume, volumes[index]? = some volume → Unordered env policy volumes index →
      (scanVolumeForBls env policy volume index).2.Pairwise fun a b => rank a ≤ rank b) :
    (scannedBls env policy volumes).Pairwise (NoLater env policy volumes rank) := by
  refine pairwise_flatMap.mpr ⟨fun scan hscan => ?_, pairwise_iff_getElem.mpr ?_⟩
  · obtain ⟨index, hindex, rfl⟩ := mem_mapIdx.mp hscan
    have hvolume := List.getElem?_eq_getElem hindex
    have hplace : ∀ a ∈ (scanVolumeForBls env policy volumes[index] index).2,
        a.sourceVolumeIndex = index := fun a ha => (foundOn_of_mem_scan ha).index
    by_cases hclash : Unordered env policy volumes index
    · refine (hrank index _ hvolume hclash).imp_of_mem fun ha hb hab => .inr ?_
      rw [hplace _ ha, hplace _ hb]
      exact ⟨rfl, fun _ => hab, fun hnot => absurd hclash hnot⟩
    · have hsorted := hsort _ _ ((lawfulOn_volumeConfs_iff hvolume).mpr hclash)
      rw [← scanVolumeForBls_snd] at hsorted
      refine hsorted.imp_of_mem fun {a b} ha hb hab => .inr ?_
      rw [hplace _ ha, hplace _ hb]
      refine ⟨rfl, fun hu => absurd hu hclash, fun _ hbad => ?_⟩
      by_contra hgood
      rw [Bool.not_eq_true] at hgood
      simp [blsSortCompare_of_isBad hbad hgood] at hab
  · intro i j hi hj hij a ha b hb
    rw [getElem_mapIdx] at ha hb
    refine .inl ?_
    rwa [(foundOn_of_mem_scan ha).index, (foundOn_of_mem_scan hb).index]

/-! ### The entry files of the menu -/

/-- The entry files that the menu shows, in its order. -/
def shownBls (env : Surroundings) (policy : Policy) (volumes : List Volume) : List BlsEntry :=
  keepFirst (confKey env) [] (allBls env policy volumes).2

lemma confKey_eq_of_sameContent {a b : BlsEntry} (h : a.sameContent b = true) :
    confKey env a = confKey env b := by
  have hpaths : a.linux = b.linux ∧ a.efi = b.efi := by
    simp only [BlsEntry.sameContent, Bool.and_eq_true, beq_iff_eq] at h
    tauto
  unfold confKey dedupKey toBootEntry
  rw [hpaths.1, hpaths.2]
  cases b.efi with
  | some path => rfl
  | none => cases b.linux <;> rfl

lemma exists_mem_dedupBls (env : Surroundings) {r : BlsEntry → BlsEntry → Prop}
    {l : List BlsEntry} (hl : l.Pairwise r) {a : BlsEntry} (h : a ∈ l) :
    ∃ b ∈ (dedupBlsEntries l).2, confKey env b = confKey env a ∧ (b = a ∨ r b a) := by
  induction l using reverseRecOn with
  | nil => cases h
  | append_singleton l e ih =>
    obtain ⟨hl, -, hlast⟩ := pairwise_append.mp hl
    rw [dedupBlsEntries_concat]
    have hself : ∀ b ∈ (dedupBlsEntries l).2, b ∈ (if repeatsFirst l e then (dedupBlsEntries l).2
        else (dedupBlsEntries l).2 ++ [e]) := by
      intro b hb
      split_ifs
      · exact hb
      · exact mem_append_left _ hb
    rcases mem_append.mp h with h | h
    · obtain ⟨b, hb, hab⟩ := ih hl h
      exact ⟨b, hself b hb, hab⟩
    · obtain rfl := mem_singleton.mp h
      cases hfirst : firstOfName l a with
      | none => exact ⟨a, by simp [repeatsFirst, hfirst], rfl, .inl rfl⟩
      | some f =>
        by_cases hsame : f.sameContent a = true
        · have hkept : firstOfName (dedupBlsEntries l).2 a = some f := by
            rw [firstOfName_dedupBlsEntries, hfirst]
          exact ⟨f, hself f (mem_of_find?_eq_some hkept), confKey_eq_of_sameContent hsame,
            .inr (hlast f (mem_of_find?_eq_some hfirst) a (mem_singleton_self a))⟩
        · exact ⟨a, by simp [repeatsFirst, hfirst, hsame], rfl, .inl rfl⟩

/-- For the file of each entry, the menu shows an entry that stands no later. -/
lemma exists_mem_shownBls
    (hplace : (scannedBls env policy volumes).Pairwise (NoLater env policy volumes rank))
    (h : a ∈ confEntries env policy volumes) :
    ∃ b ∈ shownBls env policy volumes, confKey env b = confKey env a ∧
      NoLater env policy volumes rank b a := by
  have hle {b a : BlsEntry} (h : b = a ∨ NoLater env policy volumes rank b a) :
      NoLater env policy volumes rank b a := by
    rcases h with rfl | h
    · exact .refl b
    · exact h
  obtain ⟨b, hb, hkey, hba⟩ := exists_mem_dedupBls env hplace (mem_scannedBls_iff.mpr h)
  have hkept : (allBls env policy volumes).2.Pairwise (NoLater env policy volumes rank) :=
    hplace.sublist (dedupBlsEntries_sublist _)
  obtain ⟨c, hc, hkey', hcb⟩ := exists_mem_keepFirst (confKey env) hkept hb
  exact ⟨c, hc, hkey'.trans hkey, (hle hcb).trans (hle hba)⟩

lemma shownBls_sublist : (shownBls env policy volumes).Sublist (scannedBls env policy volumes) :=
  (keepFirst_sublist _ _).trans (dedupBlsEntries_sublist _)

lemma isBad_iff_exhausted {index : Nat} {b : BlsEntry} (h : FoundOn env policy index b) :
    isBad b = true ↔ (toBootEntry b).exhausted = true := by
  have hleft : isBad b = true ↔ b.triesLeft = some 0 := by
    unfold isBad BlsEntry.bootCountState
    cases b.triesLeft with
    | none => simp
    | some n => by_cases hn : n = 0 <;> simp [hn]
  rw [hleft, h.named.triesLeft]
  simp [BootEntry.exhausted, h.toBootEntry_eq.2.1]

lemma find?_isBls_of_pairwise {entries : List BootEntry} {first : BootEntry}
    (h : entries.Pairwise fun a b => a.exhausted = true → b.isBls = true → b.exhausted = true)
    (hfirst : entries.find? BootEntry.isBls = some first)
    (hgood : ∃ e ∈ entries, e.isBls = true ∧ e.exhausted = false) : first.exhausted = false := by
  obtain ⟨hbls, before, after, rfl, hbefore⟩ := List.find?_eq_some_iff_append.mp hfirst
  obtain ⟨e, he, hebls, hegood⟩ := hgood
  rcases mem_append.mp he with he | he
  · have hnot := hbefore e he
    simp [hebls] at hnot
  · rcases mem_cons.mp he with rfl | he
    · exact hegood
    · by_contra hbad
      have hafter := (pairwise_cons.mp (pairwise_append.mp h).2.1).1 e he
      simp [hafter (by simpa using hbad) hebls] at hegood

/-- Only the entry files count, and they come first on the menu. -/
lemma exhaustedLast_iff :
    ExhaustedLast (discoverAllEntries env policy volumes selfImageSha256).entries ↔
      (shownBls env policy volumes).Pairwise fun a b => isBad a = true → isBad b = true := by
  obtain ⟨seen, heq⟩ : ∃ seen, (discoverAllEntries env policy volumes selfImageSha256).entries =
      (shownBls env policy volumes).map toBootEntry ++
        keepFirst (dedupKey env.lower) seen (otherEntries env policy volumes selfImageSha256) := by
    refine ⟨(shownBls env policy volumes).map (confKey env), ?_⟩
    change keepFirst _ [] (offeredEntries env policy volumes selfImageSha256) = _
    rw [offeredEntries_eq, keepFirst_append, keepFirst_map, nil_append, map_map]
    rfl
  have hothers : ∀ b ∈ otherEntries env policy volumes selfImageSha256, b.isBls = false := by
    intro b hb
    obtain ⟨o, ho, h⟩ := comesFrom_of_mem_otherEntries hb
    simp [BootEntry.isBls, h.blsFilename_eq_none ho]
  have hfound : ∀ a ∈ shownBls env policy volumes, FoundOn env policy a.sourceVolumeIndex a :=
    fun a ha => foundOn_of_mem_allBls ((keepFirst_sublist _ _).subset ha)
  have horder : (discoverAllEntries env policy volumes selfImageSha256).entries.Pairwise
      (fun a b => a.exhausted = true → b.isBls = true → b.exhausted = true) ↔
        (shownBls env policy volumes).Pairwise fun a b => isBad a = true → isBad b = true := by
    rw [heq, pairwise_append, pairwise_map]
    have hnot : ∀ a : BootEntry, ∀ b ∈ keepFirst (dedupKey env.lower) seen
        (otherEntries env policy volumes selfImageSha256),
          a.exhausted = true → b.isBls = true → b.exhausted = true := by
      intro a b hb _ hbls
      simp [hothers b ((keepFirst_sublist _ _).subset hb)] at hbls
    rw [and_iff_left ⟨pairwise_of_forall_mem_list fun a _ => hnot a, fun a _ => hnot a⟩]
    refine ⟨fun h => h.imp_of_mem ?_, fun h => h.imp_of_mem ?_⟩
    · intro a b ha hb hab hbad
      rw [isBad_iff_exhausted (hfound a ha)] at hbad
      rw [isBad_iff_exhausted (hfound b hb)]
      exact hab hbad (by simp [BootEntry.isBls, (hfound b hb).toBootEntry_eq.2.1])
    · intro a b ha hb hab hbad _
      rw [← isBad_iff_exhausted (hfound a ha)] at hbad
      rw [← isBad_iff_exhausted (hfound b hb)]
      exact hab hbad
  exact ⟨fun h => horder.mp h.order, fun h => ⟨horder.mpr h, fun _ =>
    find?_isBls_of_pairwise (horder.mpr h)⟩⟩

/-! ### Which orders are possible -/

lemma pairwise_of_not_overtakes (hsort : env.sort.SortsWhereLawful)
    (h : ¬ ∃ a b, Overtakes env policy volumes a b) :
    (shownBls env policy volumes).Pairwise fun a b => isBad a = true → isBad b = true := by
  have hplace : (scannedBls env policy volumes).Pairwise
      (NoLater env policy volumes fun _ => 0) :=
    pairwise_scannedBls hsort fun _ _ _ _ => pairwise_of_forall fun _ _ => le_rfl
  have hkeys := pairwise_keepFirst (confKey env) [] (allBls env policy volumes).2
  have hmem : ∀ a ∈ shownBls env policy volumes, a ∈ confEntries env policy volumes := fun a ha =>
    mem_scannedBls_iff.mp (shownBls_sublist.subset ha)
  have hleast : ∀ a ∈ shownBls env policy volumes, ∀ c ∈ confEntries env policy volumes,
      confKey env c = confKey env a → NoLater env policy volumes (fun _ => 0) a c := by
    intro a ha c hc hkey
    obtain ⟨b, hb, hkey', hle⟩ := exists_mem_shownBls hplace hc
    obtain rfl : b = a := by
      by_contra hne
      rcases hkeys.rel_or_rel hb ha hne with hab | hab
      · exact hab (hkey'.trans hkey)
      · exact hab (hkey'.trans hkey).symm
    exact hle
  refine ((hplace.sublist shownBls_sublist).and hkeys).imp_of_mem fun {a b} ha hb hab hbad => ?_
  by_contra hgood
  rw [Bool.not_eq_true] at hgood
  refine h ⟨a, b, ⟨hmem a ha, hmem b hb⟩, hbad, hgood,
    ⟨fun c hc hkey => (hleast a ha c hc hkey).le, fun c hc hkey => (hleast b hb c hc hkey).le⟩, ?_⟩
  rcases hab.1 with hlt | ⟨heq, -, hsame⟩
  · refine .inl ⟨hlt, or_iff_not_imp_left.mpr fun hu c hc hindex hkey => ?_⟩
    rcases hleast a ha c hc hkey with hlt' | ⟨-, -, hsame⟩
    · exact absurd hindex hlt'.ne'
    · exact hsame hu hbad
  · refine .inr ⟨heq, ?_, hab.2⟩
    by_contra hu
    simp [hsame hu hbad] at hgood

lemma Overtakes.not_pairwise (h : Overtakes env policy volumes a b)
    (hplace : (scannedBls env policy volumes).Pairwise (NoLater env policy volumes rank))
    (hfirst : ∀ c, rank c ≤ rank a → c = a) (hsecond : ∀ c, rank c ≤ rank b → c = a ∨ c = b)
    (hab : rank a < rank b) :
    ¬ (shownBls env policy volumes).Pairwise fun a b => isBad a = true → isBad b = true := by
  intro hgood
  obtain ⟨c, hc, hckey, hca⟩ := exists_mem_shownBls hplace h.mem.1
  obtain ⟨d, hd, hdkey, hdb⟩ := exists_mem_shownBls hplace h.mem.2
  have hmem : ∀ a ∈ shownBls env policy volumes, a ∈ confEntries env policy volumes := fun a ha =>
    mem_scannedBls_iff.mp (shownBls_sublist.subset ha)
  have hcindex : c.sourceVolumeIndex = a.sourceVolumeIndex :=
    le_antisymm hca.le (h.first.1 c (hmem c hc) hckey)
  have hdindex : d.sourceVolumeIndex = b.sourceVolumeIndex :=
    le_antisymm hdb.le (h.first.2 d (hmem d hd) hdkey)
  have hkeys : confKey env a ≠ confKey env b := by
    rcases h.place with ⟨hlt, -⟩ | ⟨-, -, hne⟩
    · exact fun heq => (h.first.2 a h.mem.1 heq).not_gt hlt
    · exact hne
  have hca' : Unordered env policy volumes a.sourceVolumeIndex → c = a := by
    intro hu
    rcases hca with hlt | ⟨-, hle, -⟩
    · exact absurd hcindex hlt.ne
    · exact hfirst c (hle (hcindex ▸ hu))
  have hdb' : Unordered env policy volumes b.sourceVolumeIndex → d = b := by
    intro hu
    rcases hdb with hlt | ⟨-, hle, -⟩
    · exact absurd hdindex hlt.ne
    · rcases hsecond d (hle (hdindex ▸ hu)) with rfl | rfl
      · exact absurd hdkey hkeys
      · rfl
  have hcbad : isBad c = true := by
    rcases h.place with ⟨-, hu | hall⟩ | ⟨-, hu, -⟩
    · exact hca' hu ▸ h.exhausted
    · exact hall c (hmem c hc) hcindex hckey
    · exact hca' hu ▸ h.exhausted
  have hdgood : isBad d = false := by
    by_cases hu : Unordered env policy volumes b.sourceVolumeIndex
    · exact hdb' hu ▸ h.good
    · rcases hdb with hlt | ⟨-, -, hsame⟩
      · exact absurd hdindex hlt.ne
      · rw [← Bool.not_eq_true]
        intro hbad
        exact absurd (hsame (hdindex ▸ hu) hbad) (by simp [h.good])
  have hne : c ≠ d := by
    rintro rfl
    simp [hcbad] at hdgood
  rcases ((hplace.sublist shownBls_sublist).and hgood).rel_or_rel hc hd hne with hcd | hdc
  · simp [hcd.2 hcbad] at hdgood
  · rcases h.place with ⟨hlt, -⟩ | ⟨heq, hu, -⟩
    · have := hdc.1.le
      omega
    · obtain rfl := hca' hu
      obtain rfl := hdb' (heq ▸ hu)
      rcases hdc.1 with hlt | ⟨-, hle, -⟩
      · omega
      · exact absurd hab (hle (heq ▸ hu)).not_gt

lemma overtakes_withSort_iff (sort : SliceSort) :
    Overtakes { env with sort } policy volumes a b ↔ Overtakes env policy volumes a b :=
  ⟨fun h => ⟨h.mem, h.exhausted, h.good, h.first, h.place⟩,
    fun h => ⟨h.mem, h.exhausted, h.good, h.first, h.place⟩⟩

/-- Exhausted entries are last on the menu, whichever order the sort gives to entries its comparator
does not order, exactly where no exhausted entry file can overtake one that is not. -/
theorem discoverAllEntries_exhaustedLast_iff (env : Surroundings) (policy : Policy)
    (volumes : List Volume) (selfImageSha256 : Option Bytes) :
    (∀ sort : SliceSort, sort.SortsWhereLawful →
      ExhaustedLast (discoverAllEntries { env with sort } policy volumes selfImageSha256).entries) ↔
      ¬ ∃ a b, Overtakes env policy volumes a b := by
  simp only [exhaustedLast_iff]
  constructor
  · rintro h ⟨a, b, hab⟩
    -- where the order is not specified, the two entries may come first
    let rank (c : BlsEntry) : Nat := if c = a then 0 else if c = b then 1 else 2
    have hne : b ≠ a := by
      rintro rfl
      exact absurd hab.exhausted (by simp [hab.good])
    let adverse : Surroundings := { env with sort := .adverse rank }
    have hplace : (scannedBls adverse policy volumes).Pairwise
        (NoLater adverse policy volumes rank) := by
      refine pairwise_scannedBls (SliceSort.adverse_sortsWhereLawful rank)
        fun index volume hvolume hu => ?_
      rw [scanVolumeForBls_snd]
      exact SliceSort.adverse_of_not_lawfulOn ((lawfulOn_volumeConfs_iff hvolume).not_left.mpr hu)
    refine ((overtakes_withSort_iff _).mpr hab).not_pairwise hplace ?_ ?_ ?_
      (h _ (SliceSort.adverse_sortsWhereLawful rank))
    · intro c hc
      by_contra hca
      by_cases hcb : c = b <;> simp [rank, hca, hcb, hne] at hc
    · intro c hc
      by_contra hcab
      simp [rank, not_or.mp hcab, hne] at hc
    · simp [rank, hne]
  · intro h sort hsort
    have hother : ¬ ∃ a b, Overtakes { env with sort } policy volumes a b := by
      simpa only [overtakes_withSort_iff] using h
    exact pairwise_of_not_overtakes hsort hother

end Scans

/-! ### An exhausted default -/

def volumeWithEntry (name : Text) : Volume :=
  .ofFiles "fat"
    [(["loader", "entries", name ++ ".conf"], "linux /" ++ name)]

/-- An exhausted entry of the ESP is the default before a good entry of another volume. -/
theorem exhausted_entry_first :
    let volumes := [volumeWithEntry "old+0-3", volumeWithEntry "new"]
    let entries := (discoverAllEntries .plain {} volumes none).entries
    (entries.map fun e => (e.id, e.exhausted)) =
        [("bls-old".toList, true), ("bls-new".toList, false)] ∧
      ¬ ExhaustedLast entries := by
  intro volumes entries
  refine ⟨by decide +kernel, fun h => ?_⟩
  have hbad : ¬ entries.Pairwise fun a b =>
      a.exhausted = true → b.isBls = true → b.exhausted = true := by decide +kernel
  exact hbad h.order

end LamBoot
