import LamBoot.Discovery.Bls
import LamBoot.Library.Utf8

/-!
# Cohorts of entries

What `detect_cohort_split` reports. One pass over the entries keeps a group for each machine id, and
the first group with entries of both kinds is that of the least machine id.
-/

namespace LamBoot

open List Text Option

/-! ### One group -/

def versionsWithout (entries : List BlsEntry) : List Text :=
  (entries.filter fun e => e.sortKey.isNone).filterMap BlsEntry.version

lemma takeHigher_some (current : Option Text) (v : Text) :
    takeHigher current (some v) = pickGreater versionCompareStr current v := by
  cases current with
  | none => rfl
  | some cur => rfl

lemma foldl_add (l : List BlsEntry) (g : CohortGroup) :
    (l.foldl CohortGroup.add g).withSortKey =
      g.withSortKey + (l.filter fun e => e.sortKey.isSome).length ∧
    (l.foldl CohortGroup.add g).withoutSortKey =
      g.withoutSortKey + (l.filter fun e => e.sortKey.isNone).length ∧
    (l.foldl CohortGroup.add g).highestVersionInWithout =
      (versionsWithout l).foldl (pickGreater versionCompareStr) g.highestVersionInWithout := by
  induction l generalizing g with
  | nil => exact ⟨rfl, rfl, rfl⟩
  | cons e l ih =>
    obtain ⟨hwith, hwithout, hversion⟩ := ih (g.add e)
    rw [foldl_cons, hwith, hwithout, hversion]
    cases hkey : e.sortKey with
    | some key =>
      have hadd : (g.add e).withSortKey = g.withSortKey + 1 ∧
          (g.add e).withoutSortKey = g.withoutSortKey ∧
          (g.add e).highestVersionInWithout = g.highestVersionInWithout := by
        simp [CohortGroup.add, hkey]
      simp only [hadd, versionsWithout, filter_cons, hkey, isSome_some, isNone_some,
        if_true, length_cons]
      exact ⟨by omega, rfl, rfl⟩
    | none =>
      have hadd : (g.add e).withSortKey = g.withSortKey ∧
          (g.add e).withoutSortKey = g.withoutSortKey + 1 ∧
          (g.add e).highestVersionInWithout = takeHigher g.highestVersionInWithout e.version := by
        simp [CohortGroup.add, hkey]
      simp only [hadd, versionsWithout, filter_cons, hkey, isSome_none, isNone_none,
        if_true, length_cons]
      refine ⟨rfl, by omega, ?_⟩
      cases hv : e.version with
      | none => rw [filterMap_cons_none hv]; rfl
      | some v => rw [filterMap_cons_some hv, foldl_cons, takeHigher_some]

/-- A version that is the highest of some: `none` where there is none. -/
def IsHighest (version : Option Text) (versions : List Text) : Prop :=
  match version with
  | none => versions = []
  | some v => v ∈ versions ∧ ∀ w ∈ versions, (versionCompareStr w v).isLE = true

lemma isHighest_foldl (versions : List Text) :
    IsHighest (versions.foldl (pickGreater versionCompareStr) none) versions := by
  cases versions with
  | nil => rfl
  | cons v versions =>
    obtain ⟨w, hfold, hgreatest⟩ :
        ∃ w, (v :: versions).foldl (pickGreater versionCompareStr) none = some w ∧
          FirstGreatest versionCompareStr (v :: versions) w := foldl_pickGreater v versions
    rw [hfold]
    exact ⟨hgreatest.firstIn.mem, fun x hx => hgreatest.isLE hx⟩

/-! ### The groups -/

variable {entries : List BlsEntry} {mid : Text}

def entriesOf (entries : List BlsEntry) (mid : Text) : List BlsEntry :=
  entries.filter fun e => e.machineId = some mid

lemma entriesOf_concat (entries : List BlsEntry) (e : BlsEntry) (mid : Text) :
    entriesOf (entries ++ [e]) mid =
      if e.machineId = some mid then entriesOf entries mid ++ [e] else entriesOf entries mid := by
  rw [entriesOf, filter_append, filter_singleton]
  by_cases h : e.machineId = some mid
  · simp [h, entriesOf]
  · simp [h, entriesOf]

lemma cohortGroups_concat (entries : List BlsEntry) (e : BlsEntry) :
    cohortGroups (entries ++ [e]) =
      match e.machineId.getD [] with
      | [] => cohortGroups entries
      | mid => (cohortGroups entries).alter mid fun g => some ((g.getD {}).add e) := by
  rw [cohortGroups, foldl_append]
  rfl

lemma getElem?_cohortGroups (entries : List BlsEntry) (mid : Text) :
    (cohortGroups entries)[mid]? =
      if mid = [] ∨ entriesOf entries mid = [] then none
      else some ((entriesOf entries mid).foldl CohortGroup.add {}) := by
  induction entries using reverseRecOn generalizing mid with
  | nil => simp [cohortGroups, entriesOf]
  | append_singleton entries e ih =>
    rw [cohortGroups_concat, entriesOf_concat]
    split
    · next hempty =>
      -- an entry without a machine id, or with an empty one, is in no group
      rw [ih]
      by_cases hmid : mid = []
      · rw [if_pos (.inl hmid), if_pos (.inl hmid)]
      · have hne : e.machineId ≠ some mid := by
          intro h
          rw [h] at hempty
          exact hmid hempty
        rw [if_neg hne]
    · next mid' hmid' =>
      have hsome : e.machineId = some (e.machineId.getD []) := by
        cases h : e.machineId with
        | none => simp [h] at hmid'
        | some m => rfl
      rw [Std.TreeMap.getElem?_alter]
      by_cases heq : e.machineId.getD [] = mid
      · have hnil : mid ≠ [] := by
          intro h
          exact hmid' (heq.trans h)
        have hconcat : ¬ (mid = [] ∨ entriesOf entries mid ++ [e] = []) := by simp [hnil]
        rw [if_pos (Std.LawfulEqCmp.compare_eq_iff_eq.mpr heq), heq, ih,
          if_pos (hsome.trans (congrArg some heq)), if_neg hconcat, foldl_append]
        by_cases hgroup : entriesOf entries mid = []
        · rw [if_pos (.inr hgroup), hgroup]
          rfl
        · rw [if_neg (not_or.mpr ⟨hnil, hgroup⟩)]
          rfl
      · have hne : e.machineId ≠ some mid := by
          intro h
          rw [h] at heq
          exact heq rfl
        rw [if_neg (mt Std.LawfulEqCmp.compare_eq_iff_eq.mp heq), ih, if_neg hne]

lemma values_eq_map_toList {κ ν : Type} {cmp : κ → κ → Ordering} (t : Std.TreeMap κ ν cmp) :
    t.values = t.toList.map Prod.snd := by
  have hfoldr : t.values = t.foldr (fun _ v l => v :: l) [] := rfl
  rw [hfoldr, Std.TreeMap.foldr_eq_foldr_toList]
  exact map_eq_foldr.symm

/-! ### The report -/

def withSortKeyOf (entries : List BlsEntry) (mid : Text) : List BlsEntry :=
  (entriesOf entries mid).filter fun e => e.sortKey.isSome

def withoutSortKeyOf (entries : List BlsEntry) (mid : Text) : List BlsEntry :=
  (entriesOf entries mid).filter fun e => e.sortKey.isNone

/-- Of the entries of a machine some have a sort key and some have none. -/
def Mixed (entries : List BlsEntry) (mid : Text) : Prop :=
  mid ≠ [] ∧ (∃ e ∈ entries, e.machineId = some mid ∧ e.sortKey.isSome = true) ∧
    ∃ e ∈ entries, e.machineId = some mid ∧ e.sortKey.isNone = true

def groupOf (entries : List BlsEntry) (mid : Text) : CohortGroup :=
  (entriesOf entries mid).foldl CohortGroup.add {}

def CohortGroup.IsMixed (g : CohortGroup) : Prop :=
  0 < g.withSortKey ∧ 0 < g.withoutSortKey
deriving Decidable

lemma groupOf_withSortKey (entries : List BlsEntry) (mid : Text) :
    (groupOf entries mid).withSortKey = (withSortKeyOf entries mid).length :=
  (foldl_add _ _).1.trans (Nat.zero_add _)

lemma groupOf_withoutSortKey (entries : List BlsEntry) (mid : Text) :
    (groupOf entries mid).withoutSortKey = (withoutSortKeyOf entries mid).length :=
  (foldl_add _ _).2.1.trans (Nat.zero_add _)

lemma isHighest_groupOf (entries : List BlsEntry) (mid : Text) :
    IsHighest (groupOf entries mid).highestVersionInWithout
      ((withoutSortKeyOf entries mid).filterMap BlsEntry.version) := by
  have hversion : (groupOf entries mid).highestVersionInWithout =
      (versionsWithout (entriesOf entries mid)).foldl (pickGreater versionCompareStr) none :=
    (foldl_add _ _).2.2
  rw [hversion]
  exact isHighest_foldl _

lemma length_filter_entriesOf_pos {q : BlsEntry → Bool} :
    0 < ((entriesOf entries mid).filter q).length ↔
      ∃ e ∈ entries, e.machineId = some mid ∧ q e = true := by
  simp [length_pos_iff_exists_mem, entriesOf, and_comm]

lemma mem_toList_and_isMixed_iff {g : CohortGroup} :
    (mid, g) ∈ (cohortGroups entries).toList ∧ g.IsMixed ↔
      g = groupOf entries mid ∧ Mixed entries mid := by
  rw [Std.TreeMap.mem_toList_iff_getElem?_eq_some, getElem?_cohortGroups, ← groupOf]
  have hmixed : (groupOf entries mid).IsMixed ↔
      (∃ e ∈ entries, e.machineId = some mid ∧ e.sortKey.isSome = true) ∧
        ∃ e ∈ entries, e.machineId = some mid ∧ e.sortKey.isNone = true := by
    rw [CohortGroup.IsMixed, groupOf_withSortKey, groupOf_withoutSortKey]
    exact and_congr length_filter_entriesOf_pos length_filter_entriesOf_pos
  constructor
  · rintro ⟨hget, hg⟩
    split_ifs at hget with hempty
    obtain rfl := some.inj hget
    exact ⟨rfl, fun h => hempty (.inl h), hmixed.mp hg⟩
  · rintro ⟨rfl, hmid, hentries⟩
    obtain ⟨e, he, hid, -⟩ := hentries.1
    have hmem : e ∈ entriesOf entries mid := mem_filter.mpr ⟨he, decide_eq_true hid⟩
    rw [if_neg (not_or.mpr ⟨hmid, ne_nil_of_mem hmem⟩)]
    exact ⟨rfl, hmixed.mpr hentries⟩

lemma detectCohortSplit_eq (entries : List BlsEntry) :
    detectCohortSplit entries =
      ((cohortGroups entries).toList.find? fun p => p.2.IsMixed).map (·.2.split) := by
  rw [detectCohortSplit, values_eq_map_toList, find?_map, Option.map_map]
  rfl

lemma detectCohortSplit_isSome_iff :
    (detectCohortSplit entries).isSome = true ↔ ∃ mid, Mixed entries mid := by
  rw [detectCohortSplit_eq, isSome_map, find?_isSome]
  constructor
  · rintro ⟨⟨mid, g⟩, hmem, hg⟩
    exact ⟨mid, (mem_toList_and_isMixed_iff.mp ⟨hmem, of_decide_eq_true hg⟩).2⟩
  · rintro ⟨mid, hmixed⟩
    obtain ⟨hmem, hg⟩ := mem_toList_and_isMixed_iff.mpr ⟨rfl, hmixed⟩
    exact ⟨(mid, groupOf entries mid), hmem, decide_eq_true hg⟩

lemma exists_of_detectCohortSplit {split : CohortSplit}
    (h : detectCohortSplit entries = some split) :
    ∃ mid, split = (groupOf entries mid).split ∧ Mixed entries mid ∧
      ∀ mid', Mixed entries mid' → (Text.cmp mid mid').isLE = true := by
  rw [detectCohortSplit_eq, map_eq_some_iff] at h
  obtain ⟨⟨mid, g⟩, hfind, rfl⟩ := h
  obtain ⟨hg, before, after, hlist, hbefore⟩ := find?_eq_some_iff_append.mp hfind
  have hmem : (mid, g) ∈ (cohortGroups entries).toList := by
    rw [hlist]
    exact mem_append_right _ (mem_cons_self ..)
  obtain ⟨rfl, hmixed⟩ := mem_toList_and_isMixed_iff.mp ⟨hmem, of_decide_eq_true hg⟩
  refine ⟨mid, rfl, hmixed, fun mid' hmixed' => ?_⟩
  obtain ⟨hmem', hg'⟩ := mem_toList_and_isMixed_iff.mpr ⟨rfl, hmixed'⟩
  have hordered := Std.TreeMap.ordered_keys_toList (t := cohortGroups entries)
  rw [hlist] at hmem' hordered
  rcases mem_append.mp hmem' with hmem' | hmem'
  · have hnot := hbefore _ hmem'
    rw [decide_eq_true hg'] at hnot
    cases hnot
  · rcases mem_cons.mp hmem' with heq | hmem'
    · have hrefl : Text.cmp mid mid = .eq := Std.ReflCmp.compare_self
      rw [(Prod.mk.inj heq).1, hrefl]
      rfl
    · have hlt := rel_of_pairwise_cons (pairwise_append.mp hordered).2.1 hmem'
      rw [hlt]
      rfl

/-- A split is reported just when a machine has entries of both kinds, for the least such id, with
the numbers of each kind and the highest version without a sort-key. -/
theorem detectCohortSplit_spec (entries : List BlsEntry) :
    ((detectCohortSplit entries).isSome = true ↔ ∃ mid, Mixed entries mid) ∧
    ∀ split, detectCohortSplit entries = some split →
      ∃ mid, Mixed entries mid ∧
        (∀ mid', Mixed entries mid' → (Text.cmp mid mid').isLE = true) ∧
        split.withSortKey = (withSortKeyOf entries mid).length ∧
        split.withoutSortKey = (withoutSortKeyOf entries mid).length ∧
        IsHighest split.highestVersionWithout
          ((withoutSortKeyOf entries mid).filterMap BlsEntry.version) := by
  refine ⟨detectCohortSplit_isSome_iff, fun split hsplit => ?_⟩
  obtain ⟨mid, rfl, hmixed, hleast⟩ := exists_of_detectCohortSplit hsplit
  exact ⟨mid, hmixed, hleast, groupOf_withSortKey entries mid, groupOf_withoutSortKey entries mid,
    isHighest_groupOf entries mid⟩

end LamBoot
