import LamBoot.Discovery.Permitted
import LamBoot.Inspect.Boots

/-!
# No entries

Each volume whose entries directory can be listed reports how many entries it has, and at the end
the boot loader reports how many there are in all. The inspector looks at the first report of each
kind.
-/

namespace LamBoot.Inspect

open List Text Python

section Discover

variable (env : Surroundings) (policy : Policy) (volumes : List Volume)
  (selfImageSha256 : Option Bytes)

/-- The report of `main.rs` at the end of discovery. -/
def entriesDiscovered (total extraVolumes : Nat) : TrustEvent :=
  { event := "entries_discovered"
    note := "total=" ++ decimal total ++ " extra_volumes=" ++ decimal extraVolumes }

/-- The log of a boot that discovered the entries of some volumes. Before and after it recorded
events of other names. -/
structure SingleBoot (log : List (Nat × TrustEvent)) : Prop where
  increasing : log.Pairwise fun a b => a.1 < b.1
  events : ∃ before after, (∀ ev ∈ before ++ after,
      ev.event ≠ "bls_entries_found".toList ∧ ev.event ≠ "entries_discovered".toList) ∧
    log.map Prod.snd =
      before ++ (discoverAllEntries env policy volumes selfImageSha256).events ++
        entriesDiscovered (discoverAllEntries env policy volumes selfImageSha256).entries.length
          (volumes.length - 1) :: after

/-- The number of entries that are accepted on the first volume whose entries directory can be
listed. -/
def firstCount : Option Nat :=
  (volumes.mapIdx fun index volume =>
    (volume.readDirStr "/loader/entries").toOption.map fun _ =>
      (scanVolumeForBls env policy volume index).2.length).findSome? id

end Discover

/-- The tags of the backends are short words such as `ext4-view@0.9.3`. -/
def PlainTag (tag : BackendTag) : Prop :=
  ∀ c ∈ tag, c.toNat < 0x80 ∧ c ≠ '='

/-! ### Notes -/

lemma isDigit_of_mem_decimal {n : Nat} {c : Char} (h : c ∈ decimal n) : c.isDigit = true :=
  Nat.isDigit_of_mem_toDigits (by decide) (by decide) h

lemma notMem_decimal {c : Char} (hc : c.isDigit = false) (n : Nat) : c ∉ decimal n := by
  intro h
  rw [isDigit_of_mem_decimal h] at hc
  cases hc

lemma zero_prefix_decimal_iff {n : Nat} {t : Text} : ['0'] <+: decimal n ++ t ↔ n = 0 := by
  constructor
  · rintro ⟨r, hr⟩
    have hhead : (decimal n).head? = some '0' := by
      rw [← head?_append_of_ne_nil (decimal n) Nat.toDigits_ne_nil, ← hr]
      rfl
    obtain ⟨c, hc⟩ := length_eq_one_iff.mp (Json.length_toDigits_of_head?_zero hhead)
    have hone : decimal n = [c] := hc
    rw [hone] at hhead
    refine decimal_injective (hone.trans ?_)
    rw [Option.some.inj hhead]
    rfl
  · rintro rfl
    exact cons_prefix_cons.mpr ⟨rfl, nil_prefix⟩

section Notes

variable (py : Python)

lemma searchWord_decimal {w a t : Text} (hw : '=' ∉ w) (ha : '=' ∉ a) (hsuffix : w <:+ a)
    (hword : t.head?.any py.isWord = false) (n : Nat) :
    searchWord py (w ++ '=' :: ['0']) (a ++ '=' :: (decimal n ++ t)) = true ↔
      n = 0 ∨ searchWord py (w ++ '=' :: ['0']) (decimal n ++ t) = true := by
  rw [searchWord_append_cons hw ha, zero_prefix_decimal_iff]
  refine or_congr_left ⟨fun h => h.2.1, ?_⟩
  rintro rfl
  exact ⟨hsuffix, rfl, hword⟩

lemma searchWord_skip {w z a t : Text} (hw : '=' ∉ w) (ha : '=' ∉ a) (hsuffix : ¬ w <:+ a) :
    searchWord py (w ++ '=' :: z) (a ++ '=' :: t) = searchWord py (w ++ '=' :: z) t := by
  rw [Bool.eq_iff_iff, searchWord_append_cons hw ha]
  exact or_iff_right fun h => hsuffix h.1

lemma not_suffix_append {w b : Text} (h : ¬ w <:+ b) (h' : ¬ b <:+ w) (a : Text) :
    ¬ w <:+ a ++ b :=
  fun hw => (suffix_or_suffix_of_suffix hw (suffix_append a b)).elim h h'

lemma searchWord_count {tag : BackendTag} (htag : PlainTag tag) (index count : Nat) :
    searchWord py "count=0"
        ("volume_index=" ++ decimal index ++ " backend=" ++ tag ++ " count=" ++ decimal count) =
      true ↔ count = 0 := by
  have hbackend : '=' ∉ decimal index ++ " backend" := by
    rw [mem_append, not_or]
    exact ⟨notMem_decimal rfl index, by decide⟩
  have htag' : '=' ∉ tag ++ " count" := by
    rw [mem_append, not_or]
    exact ⟨fun hmem => (htag _ hmem).2 rfl, by decide⟩
  have hcount : '=' ∉ decimal count ++ [] := by
    rw [append_nil]
    exact notMem_decimal rfl count
  have hnote : "volume_index=" ++ decimal index ++ " backend=" ++ tag ++ " count=" ++
      decimal count = "volume_index" ++ '=' :: ((decimal index ++ " backend") ++ '=' ::
        ((tag ++ " count") ++ '=' :: (decimal count ++ []))) := by
    rw [show "volume_index=" = "volume_index" ++ ['='] from rfl,
      show " backend=" = " backend" ++ ['='] from rfl,
      show " count=" = " count" ++ ['='] from rfl]
    simp only [append_assoc, cons_append, nil_append, append_nil]
  rw [hnote, show "count=0" = "count" ++ '=' :: ['0'] from rfl,
    searchWord_skip py (by decide) (by decide) (by decide),
    searchWord_skip py (by decide) hbackend (not_suffix_append (by decide) (by decide) _),
    searchWord_decimal py (by decide) htag' ?_ rfl, searchWord_of_notMem hcount]
  · exact or_iff_left Bool.false_ne_true
  · exact List.IsSuffix.trans (by decide) (suffix_append tag _)

lemma searchWord_total (hspace : py.isWord ' ' = false) (total extraVolumes : Nat) :
    searchWord py "total=0" (entriesDiscovered total extraVolumes).note = true ↔ total = 0 := by
  have htotal : '=' ∉ decimal total ++ " extra_volumes" := by
    rw [mem_append, not_or]
    exact ⟨notMem_decimal rfl total, by decide⟩
  have hnote : (entriesDiscovered total extraVolumes).note =
      "total" ++ '=' :: (decimal total ++ (" extra_volumes" ++ '=' :: decimal extraVolumes)) := by
    change "total=" ++ decimal total ++ " extra_volumes=" ++ decimal extraVolumes = _
    rw [show "total=" = "total" ++ ['='] from rfl,
      show " extra_volumes=" = " extra_volumes" ++ ['='] from rfl]
    simp only [append_assoc, cons_append, nil_append]
  have hword :
      (" extra_volumes" ++ '=' :: decimal extraVolumes).head?.any py.isWord = false :=
    hspace
  rw [hnote, show "total=0" = "total" ++ '=' :: ['0'] from rfl,
    searchWord_decimal py (by decide) (by decide) suffix_rfl hword, ← append_assoc,
    searchWord_skip py (by decide) htotal (not_suffix_append (by decide) (by decide) _),
    searchWord_of_notMem (notMem_decimal rfl extraVolumes)]
  exact or_iff_left Bool.false_ne_true

end Notes

/-! ### Events -/

def named (name : Text) (events : List TrustEvent) : List TrustEvent :=
  events.filter fun ev => ev.event = name ∧ Framed ev

lemma named_append (name : Text) (events events' : List TrustEvent) :
    named name (events ++ events') = named name events ++ named name events' :=
  filter_append _ _

variable {name : Text}

lemma named_eq_nil {events : List TrustEvent} (h : ∀ ev ∈ events, ev.event ≠ name) :
    named name events = [] :=
  filter_eq_nil_iff.mpr fun ev hev hname => h ev hev (of_decide_eq_true hname).1

lemma map_firstRecord {log : List (Nat × TrustEvent)} (h : log.Pairwise fun a b => a.1 < b.1)
    (name : Text) :
    (firstRecord name log).map Prod.snd = (named name (log.map Prod.snd)).head? := by
  have hhead : (records name log).argmin Prod.fst = (records name log).head? := by
    have hpairwise : (records name log).Pairwise fun a b => a.1 < b.1 := h.filter _
    cases hrecords : records name log with
    | nil => rfl
    | cons first rest =>
      rw [hrecords, pairwise_cons] at hpairwise
      refine argmin_eq_some_iff.mpr ⟨mem_cons_self, fun e he => ?_, fun e _ _ => ?_⟩
      · rcases mem_cons.mp he with rfl | he
        · exact le_rfl
        · exact (hpairwise.1 e he).le
      · simp
  rw [firstRecord, hhead, named, filter_map, head?_map]
  rfl

lemma framed_of_ascii {event note : Text} (hevent : ∀ c ∈ event, c.toNat < 0x80)
    (hnote : ∀ c ∈ note, c.toNat < 0x80) : Framed { event, note } := by
  intro s hs c hc
  have hascii : c.toNat < 0x80 := by
    rw [TrustEvent.strings] at hs
    grind
  omega

lemma toNat_lt_of_mem_decimal {n : Nat} {c : Char} (h : c ∈ decimal n) : c.toNat < 0x80 := by
  have hrange : 48 ≤ c.toNat ∧ c.toNat ≤ 57 :=
    Char.isDigit_iff_toNat.mp (isDigit_of_mem_decimal h)
  omega

section Discovery

variable {env : Surroundings} {policy : Policy} {volumes : List Volume}
  {selfImageSha256 : Option Bytes} {log : List (Nat × TrustEvent)}

lemma event_scanConf {volume : Volume} {index : Nat} {filename : Text} {ev : TrustEvent}
    (h : (scanConf env policy volume index filename).1 = some ev) :
    ev.event = "bls_entry_read_failed" ∨ ev.event = "bls_entry_invalid" := by
  unfold scanConf at h
  dsimp only at h
  split at h
  · exact nomatch h
  · split at h
    · exact .inl (congrArg TrustEvent.event (Option.some.inj h)).symm
    · split at h
      · exact nomatch h
      · exact .inr (congrArg TrustEvent.event (Option.some.inj h)).symm

lemma named_scanConf (hname : name ≠ "bls_entry_read_failed")
    (hname' : name ≠ "bls_entry_invalid") (volume : Volume) (index : Nat) (filenames : List Text) :
    named name ((filenames.map (scanConf env policy volume index)).filterMap (·.1)) = [] := by
  refine named_eq_nil fun ev hev heq => ?_
  obtain ⟨scan, hscan, hsome⟩ := mem_filterMap.mp hev
  obtain ⟨filename, -, rfl⟩ := mem_map.mp hscan
  exact (event_scanConf hsome).elim (hname ∘ heq.symm.trans) (hname' ∘ heq.symm.trans)

lemma named_scanVolumeForBls {volume : Volume} (htag : PlainTag volume.backendTag) (index : Nat) :
    named "bls_entries_found" (scanVolumeForBls env policy volume index).1 =
      match volume.readDirStr "/loader/entries" with
      | .error _ => []
      | .ok _ =>
        [{ event := "bls_entries_found",
           note := "volume_index=" ++ decimal index ++ " backend=" ++ volume.backendTag ++
            " count=" ++ decimal (scanVolumeForBls env policy volume index).2.length }] := by
  rw [scanVolumeForBls]
  cases volume.readDirStr "/loader/entries" with
  | error e => rfl
  | ok filenames =>
    dsimp only
    rw [named_append, named_scanConf (by decide) (by decide), nil_append,
      (env.sort.perm _ _).length_eq]
    refine filter_cons_of_pos (decide_eq_true ⟨rfl, framed_of_ascii (by decide) ?_⟩)
    simp only [forall_mem_append]
    exact ⟨⟨⟨⟨⟨by decide, fun c => toNat_lt_of_mem_decimal⟩, by decide⟩, fun c hc => (htag c hc).1⟩,
      by decide⟩, fun c => toNat_lt_of_mem_decimal⟩

lemma event_dedupBlsEntries (entries : List BlsEntry) :
    ∀ ev ∈ (dedupBlsEntries entries).1, ev.event = "bls_duplicate_filename" := by
  have hstep : ∀ (done : List TrustEvent × List BlsEntry) entry,
      (∀ ev ∈ done.1, ev.event = "bls_duplicate_filename") →
        ∀ ev ∈ (dedupBlsStep done entry).1, ev.event = "bls_duplicate_filename" := by
    intro done entry hdone
    unfold dedupBlsStep
    split
    · exact hdone
    · split_ifs
      · exact hdone
      · exact forall_mem_append.mpr ⟨hdone, forall_mem_singleton.mpr rfl⟩
  refine foldlRecOn entries dedupBlsStep
    (motive := fun done => ∀ ev ∈ done.1, ev.event = "bls_duplicate_filename".toList) ?_ ?_
  · exact fun ev hev => nomatch hev
  · exact fun done hdone entry _ => hstep done entry hdone

lemma named_events (hname : name ∉ ["bls_duplicate_filename".toList,
      "cohort_split_detected".toList, "iso_optical_discovered".toList])
    (selfImageSha256 : Option Bytes) :
    named name (discoverAllEntries env policy volumes selfImageSha256).events =
      volumes.zipIdx.flatMap fun v => named name (scanVolumeForBls env policy v.1 v.2).1 := by
  simp only [mem_cons, not_mem_nil, or_false, not_or] at hname
  obtain ⟨hdedup, hcohort, hoptical⟩ := hname
  have hduplicates : ∀ entries, named name (dedupBlsEntries entries).1 = [] := fun entries =>
    named_eq_nil fun ev hev heq => hdedup (heq.symm.trans (event_dedupBlsEntries entries ev hev))
  have hsplit : ∀ split : Option CohortSplit,
      named name (split.map cohortSplitEvent).toList = [] := by
    refine fun split => named_eq_nil fun ev hev heq => hcohort ?_
    obtain ⟨split, -, rfl⟩ := Option.map_eq_some_iff.mp (Option.mem_toList.mp hev)
    exact heq.symm
  have hdiscs :
      named name (if policy.isoOpticalEnabled then (discoverOptical env).1 else []) = [] := by
    refine named_eq_nil fun ev hev heq => ?_
    split_ifs at hev
    · obtain ⟨disc, -, rfl⟩ := mem_map.mp hev
      exact hoptical heq.symm
    · exact nomatch hev
  rw [discoverAllEntries, allBls]
  dsimp only
  rw [named_append, named_append, named_append, hduplicates, hsplit, hdiscs, append_nil,
    append_nil, append_nil, mapIdx_eq_zipIdx_map, flatMap_map, named, filter_flatMap]
  rfl

lemma any_named_iff (py : Python) (zs : List (Volume × Nat))
    (htags : ∀ v ∈ zs, PlainTag v.1.backendTag) :
    (zs.flatMap fun v =>
      named "bls_entries_found" (scanVolumeForBls env policy v.1 v.2).1).head?.any
        (fun ev => searchWord py "count=0" ev.note) = true ↔
      zs.findSome? (fun v => (v.1.readDirStr "/loader/entries").toOption.map fun _ =>
        (scanVolumeForBls env policy v.1 v.2).2.length) = some 0 := by
  induction zs with
  | nil => exact iff_of_false Bool.false_ne_true nofun
  | cons v zs ih =>
    obtain ⟨htag, htags⟩ := forall_mem_cons.mp htags
    rw [flatMap_cons, named_scanVolumeForBls htag, findSome?_cons]
    cases v.1.readDirStr "/loader/entries" with
    | error e => exact ih htags
    | ok filenames => exact (searchWord_count py htag v.2 _).trans Option.some_inj.symm

lemma named_entriesDiscovered (total extraVolumes : Nat) :
    named "entries_discovered" [entriesDiscovered total extraVolumes] =
      [entriesDiscovered total extraVolumes] := by
  refine filter_cons_of_pos (decide_eq_true ⟨rfl, framed_of_ascii (by decide) ?_⟩)
  simp only [forall_mem_append]
  exact ⟨⟨⟨by decide, fun c => toNat_lt_of_mem_decimal⟩, by decide⟩,
    fun c => toNat_lt_of_mem_decimal⟩

lemma named_scanVolumeForBls_discovered (volume : Volume) (index : Nat) :
    named "entries_discovered" (scanVolumeForBls env policy volume index).1 = [] := by
  rw [scanVolumeForBls]
  cases volume.readDirStr "/loader/entries" with
  | error e => rfl
  | ok filenames =>
    dsimp only
    rw [named_append, named_scanConf (by decide) (by decide), nil_append]
    refine named_eq_nil fun ev hev => ?_
    rw [mem_singleton.mp hev]
    exact (by decide : "bls_entries_found".toList ≠ "entries_discovered".toList)

lemma SingleBoot.named_log (hlog : SingleBoot env policy volumes selfImageSha256 log)
    (hname : name = "bls_entries_found" ∨ name = "entries_discovered") :
    named name (log.map Prod.snd) =
      (volumes.zipIdx.flatMap fun v => named name (scanVolumeForBls env policy v.1 v.2).1) ++
        named name
          [entriesDiscovered (discoverAllEntries env policy volumes selfImageSha256).entries.length
            (volumes.length - 1)] := by
  obtain ⟨before, after, hother, hevents⟩ := hlog.events
  have hnone : ∀ ev ∈ before ++ after, ev.event ≠ name := by
    rcases hname with rfl | rfl
    · exact fun ev hev => (hother ev hev).1
    · exact fun ev hev => (hother ev hev).2
  have hevent : name ∉ ["bls_duplicate_filename".toList, "cohort_split_detected".toList,
      "iso_optical_discovered".toList] := by
    rcases hname with rfl | rfl <;> decide
  rw [forall_mem_append] at hnone
  rw [hevents, append_cons, named_append, named_append, named_append, named_eq_nil hnone.1,
    named_eq_nil hnone.2, named_events hevent, nil_append, append_nil]

lemma noneFound_iff {py : Python} (hspace : py.isWord ' ' = false)
    (hlog : SingleBoot env policy volumes selfImageSha256 log)
    (htags : ∀ volume ∈ volumes, PlainTag volume.backendTag) :
    noneFound py log = true ↔ firstCount env policy volumes = some 0 ∨
      (discoverAllEntries env policy volumes selfImageSha256).entries = [] := by
  have hany : ∀ (o : Option (Nat × TrustEvent)) (word : Text),
      o.any (fun e => searchWord py word e.2.note) =
        (o.map Prod.snd).any fun ev => searchWord py word ev.note := by
    intro o word
    cases o <;> rfl
  have hother : named "bls_entries_found" [entriesDiscovered
      (discoverAllEntries env policy volumes selfImageSha256).entries.length (volumes.length - 1)] =
      [] := by
    refine named_eq_nil fun ev hev => ?_
    rw [mem_singleton.mp hev]
    exact (by decide : "entries_discovered".toList ≠ "bls_entries_found".toList)
  have hscans : (volumes.zipIdx.flatMap fun v =>
      named "entries_discovered" (scanVolumeForBls env policy v.1 v.2).1) = [] :=
    flatMap_eq_nil_iff.mpr fun v _ => named_scanVolumeForBls_discovered v.1 v.2
  rw [noneFound, Bool.or_eq_true, hany, hany, map_firstRecord hlog.increasing,
    map_firstRecord hlog.increasing, hlog.named_log (.inl rfl), hlog.named_log (.inr rfl), hother,
    hscans, append_nil, nil_append, named_entriesDiscovered, any_named_iff py _ ?_,
    firstCount, mapIdx_eq_zipIdx_map, findSome?_map]
  · refine or_congr Iff.rfl ((searchWord_total py hspace _ _).trans length_eq_zero_iff)
  · exact fun v hv => htags v.1 (mem_of_getElem? (mem_zipIdx_iff_getElem?.mp hv))

end Discovery

lemma exists_noEntries_iff (py : Python) (log : List (Nat × TrustEvent)) :
    (∃ f ∈ evaluate py (readLog py log), f.id = "boot.no_entries") ↔ noneFound py log = true := by
  have hrule : (plainRules py (readLog py log)).filter (·.1 = "boot.no_entries".toList) =
      [("boot.no_entries".toList, ruleNoEntries py (readLog py log))] := rfl
  have hfilter : (evaluate py (readLog py log)).filter (·.id = "boot.no_entries".toList) =
      ruleNoEntries py (readLog py log) := by
    rw [filter_evaluate (by decide), hrule, flatMap_singleton]
  have hexists : (∃ f ∈ evaluate py (readLog py log), f.id = "boot.no_entries") ↔
      ruleNoEntries py (readLog py log) ≠ [] := by
    rw [← hfilter, ne_eq, filter_eq_nil_iff]
    push Not
    exact exists_congr fun f => and_congr_right fun _ => decide_eq_true_iff.symm
  rw [hexists, ruleNoEntries, noneFound_readLog, ne_eq, ite_eq_right_iff]
  simp

/-- A boot without entries is reported, and a boot with entries is not, just if it has none or the
first volume whose entries directory can be listed has some. -/
theorem noEntries_iff (py : Python) (hspace : py.isWord ' ' = false) {env : Surroundings}
    {policy : Policy} {volumes : List Volume} {selfImageSha256 : Option Bytes}
    {log : List (Nat × TrustEvent)} (hlog : SingleBoot env policy volumes selfImageSha256 log)
    (htags : ∀ volume ∈ volumes, PlainTag volume.backendTag) :
    ((∃ f ∈ evaluate py (parse py (utf8 (logText log))), f.id = "boot.no_entries") ↔
        (discoverAllEntries env policy volumes selfImageSha256).entries = []) ↔
      (discoverAllEntries env policy volumes selfImageSha256).entries = [] ∨
        firstCount env policy volumes ≠ some 0 := by
  have hfound := noneFound_iff hspace hlog htags
  have hrule := exists_noEntries_iff py log
  rw [readLog] at hrule
  rw [hrule, hfound]
  by_cases hentries : (discoverAllEntries env policy volumes selfImageSha256).entries = []
  · exact iff_of_true (iff_of_true (.inr hentries) hentries) (.inl hentries)
  · rw [or_iff_left hentries, iff_false_right hentries, or_iff_right hentries]

def discoveryLog (volumes : List Volume) : List TrustEvent :=
  let result := discoverAllEntries .plain {} volumes none
  result.events ++ [entriesDiscovered result.entries.length (volumes.length - 1)]

lemma singleBoot_discoveryLog {volumes : List Volume} (h : (discoveryLog volumes).length ≤ 2 ^ 64) :
    SingleBoot .plain {} volumes none (numbered 0 (discoveryLog volumes)) := by
  have hsnd : (numbered 0 (discoveryLog volumes)).map Prod.snd = discoveryLog volumes :=
    ext_getElem (by simp [numbered]) fun i _ _ => by simp [numbered]
  refine ⟨pairwise_iff_getElem.mpr fun i j hi hj hij => ?_, [], [], by simp, hsnd⟩
  have hlt : j < (discoveryLog volumes).length := by simpa [numbered] using hj
  simp only [numbered, getElem_mapIdx, UInt64.add_zero, UInt64.toNat_ofNat']
  omega

def volumeOfEntries (tag : BackendTag) (names : List Text) : Volume :=
  .ofFiles tag (names.map fun name => (["loader", "entries", name], "linux /vmlinuz"))

/-- A boot with an entry on the first volume. -/
theorem noEntries_iff_espEntry :
    let volumes := [volumeOfEntries "fat" ["a.conf"]]
    ¬ ∃ f ∈ evaluate .minimal (parse .minimal (utf8 (logText (numbered 0 (discoveryLog volumes))))),
      f.id = "boot.no_entries".toList := by
  intro volumes
  have hlog : SingleBoot .plain {} volumes none (numbered 0 (discoveryLog volumes)) :=
    singleBoot_discoveryLog (by decide +kernel)
  have htag : PlainTag "fat" := show ∀ c ∈ "fat".toList, c.toNat < 0x80 ∧ c ≠ '=' by decide
  have hiff := noEntries_iff .minimal rfl hlog (forall_mem_singleton.mpr htag)
  exact mt (hiff.mpr (.inr (by decide +kernel))).mp (by decide +kernel)

/-- An empty entries directory on the first volume is reported as a boot without entries. -/
theorem noEntries_emptyEsp :
    let volumes := [volumeOfEntries "fat" [], volumeOfEntries "ext4-view@0.9.3" ["a.conf"]]
    SingleBoot .plain {} volumes none (numbered 0 (discoveryLog volumes)) ∧
      (discoverAllEntries .plain {} volumes none).entries.length = 1 ∧
      ∃ f ∈ evaluate .minimal (parse .minimal (utf8 (serializeEvents (discoveryLog volumes) 0))),
        f.id = "boot.no_entries".toList := by
  intro volumes
  refine ⟨singleBoot_discoveryLog (by decide +kernel), by decide +kernel, ?_⟩
  rw [serializeEvents_eq_logText]
  exact (exists_noEntries_iff .minimal _).mpr (by decide +kernel)

end LamBoot.Inspect
