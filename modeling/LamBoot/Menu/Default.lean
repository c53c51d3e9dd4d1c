import LamBoot.Library.Selection
import LamBoot.Bls.Sort
import LamBoot.Boot.Types
import LamBoot.Policy.Basic

/-!
# The default entry

`select_default_entry` of `policy.rs`: of the eligible entries that match `default_pattern` the one
with the greatest version, else the one that `default_entry` names.
-/

namespace LamBoot

open List Text Option

section SelectDefault

variable (lower : Lowercase) (entries : List BootEntry) (eligible : List (Fin entries.length))
  (policy : Policy)

def compareIds (i j : Fin entries.length) : Ordering :=
  versionCompareStr (entries.get i).id (entries.get j).id

instance : Std.TransCmp (compareIds entries) :=
  Comparator.transCmp_comap (fun i : Fin entries.length => (entries.get i).id) versionCompareStr

def pickMatching (pattern : Text) (best : Option (Fin entries.length)) (idx : Fin entries.length) :
    Option (Fin entries.length) :=
  if pathMatchesPattern lower (entries.get idx).id pattern then
    pickGreater (compareIds entries) best idx
  else best

/-- Select the default entry index honoring policy precedence: the highest version that matches
`default_pattern`, else the first entry with the id `default_entry`. -/
def selectDefaultEntry : Option (Fin entries.length) :=
  let best := policy.defaultPattern.bind fun pattern =>
    eligible.foldl (pickMatching lower entries pattern) none
  match best with
  | some idx => some idx
  | none =>
    policy.defaultEntry.bind fun defaultId =>
      eligible.find? fun idx => (entries.get idx).id == defaultId

def MatchesPattern (idx : Fin entries.length) : Prop :=
  ∃ pattern, policy.defaultPattern = some pattern ∧
    pathMatchesPattern lower (entries.get idx).id pattern = true

/-- No eligible match has a greater version. -/
def MaximalMatch (idx : Fin entries.length) : Prop :=
  MatchesPattern lower entries policy idx ∧
    ∀ j ∈ eligible, MatchesPattern lower entries policy j →
      versionCompareStr (entries.get j).id (entries.get idx).id ≠ .gt

def IsDefaultEntry (idx : Fin entries.length) : Prop :=
  policy.defaultEntry = some (entries.get idx).id

end SelectDefault

section Spec

variable {lower : Lowercase} {entries : List BootEntry} {eligible : List (Fin entries.length)}
  {policy : Policy}

lemma foldl_pickMatching (pattern : Text) (best : Option (Fin entries.length)) :
    eligible.foldl (pickMatching lower entries pattern) best =
      (eligible.filter fun i => pathMatchesPattern lower (entries.get i).id pattern).foldl
        (pickGreater (compareIds entries)) best := by
  rw [foldl_filter]
  rfl

lemma selectDefaultEntry_of_matches
    (h : ∃ i ∈ eligible, MatchesPattern lower entries policy i) :
    ∃ i, selectDefaultEntry lower entries eligible policy = some i ∧
      FirstIn eligible (MaximalMatch lower entries eligible policy) i := by
  obtain ⟨i, hi, pattern, hpattern, hmatch⟩ := h
  have hiff : ∀ j, MatchesPattern lower entries policy j ↔
      pathMatchesPattern lower (entries.get j).id pattern = true := by
    intro j
    simp [MatchesPattern, hpattern]
  have hne : (eligible.filter fun j => pathMatchesPattern lower (entries.get j).id pattern) ≠ [] :=
    ne_nil_of_mem (mem_filter.mpr ⟨hi, hmatch⟩)
  obtain ⟨x, xs, hfilter⟩ := exists_cons_of_ne_nil hne
  obtain ⟨b, hfold, hb⟩ : ∃ b, (x :: xs).foldl (pickGreater (compareIds entries)) none = some b ∧
      FirstGreatest (compareIds entries) (x :: xs) b := foldl_pickGreater x xs
  rw [← hfilter] at hfold hb
  refine ⟨b, ?_, ?_⟩
  · simp only [selectDefaultEntry, hpattern, bind_some, foldl_pickMatching, hfold]
  · refine hb.firstIn.of_filter.congr fun j => ?_
    simp only [MaximalMatch, hiff, compareIds, mem_filter, and_imp]

lemma selectDefaultEntry_of_not_matches
    (h : ∀ i ∈ eligible, ¬ MatchesPattern lower entries policy i) :
    selectDefaultEntry lower entries eligible policy =
      policy.defaultEntry.bind fun defaultId =>
        eligible.find? fun idx => (entries.get idx).id == defaultId := by
  have hbest : (policy.defaultPattern.bind fun pattern =>
      eligible.foldl (pickMatching lower entries pattern) none) = none := by
    cases hpattern : policy.defaultPattern with
    | none => rfl
    | some pattern =>
      rw [bind_some, foldl_pickMatching, filter_eq_nil_iff.mpr, foldl_nil]
      exact fun i hi hmatch => h i hi ⟨pattern, hpattern, hmatch⟩
  simp only [selectDefaultEntry, hbest]

lemma selectDefaultEntry_of_isDefaultEntry
    (h : ∀ i ∈ eligible, ¬ MatchesPattern lower entries policy i)
    (hdefault : ∃ i ∈ eligible, IsDefaultEntry entries policy i) :
    ∃ i, selectDefaultEntry lower entries eligible policy = some i ∧
      FirstIn eligible (IsDefaultEntry entries policy) i := by
  obtain ⟨i, hi, hid⟩ := hdefault
  rw [IsDefaultEntry] at hid
  obtain ⟨j, hj⟩ : ∃ j, (eligible.find? fun idx => (entries.get idx).id == (entries.get i).id) =
      some j := by
    rw [← isSome_iff_exists, List.find?_isSome]
    exact ⟨i, hi, beq_self_eq_true (entries.get i).id⟩
  refine ⟨j, ?_, (find?_eq_some_iff_firstIn.mp hj).congr fun k => ?_⟩
  · rw [selectDefaultEntry_of_not_matches h, hid, bind_some, hj]
  · rw [IsDefaultEntry, hid, some_inj, beq_iff_eq, eq_comm]

lemma selectDefaultEntry_eq_none (h : ∀ i ∈ eligible, ¬ MatchesPattern lower entries policy i)
    (hnone : ∀ i ∈ eligible, ¬ IsDefaultEntry entries policy i) :
    selectDefaultEntry lower entries eligible policy = none := by
  rw [selectDefaultEntry_of_not_matches h]
  cases hdefault : policy.defaultEntry with
  | none => rfl
  | some defaultId =>
    rw [bind_some, List.find?_eq_none]
    intro i hi hid
    exact hnone i hi (by rw [IsDefaultEntry, hdefault, beq_iff_eq.mp hid])

end Spec

/-- **The default entry.** The first eligible match of the pattern whose id is maximal among the
matches; otherwise the first eligible entry with the id `default_entry`; otherwise none. -/
theorem selectDefaultEntry_spec (lower : Lowercase) (entries : List BootEntry)
    (eligible : List (Fin entries.length)) (policy : Policy) :
    ((∃ i ∈ eligible, MatchesPattern lower entries policy i) →
      ∃ i, selectDefaultEntry lower entries eligible policy = some i ∧
        FirstIn eligible (MaximalMatch lower entries eligible policy) i) ∧
    ((∀ i ∈ eligible, ¬ MatchesPattern lower entries policy i) →
      ((∃ i ∈ eligible, IsDefaultEntry entries policy i) →
        ∃ i, selectDefaultEntry lower entries eligible policy = some i ∧
          FirstIn eligible (IsDefaultEntry entries policy) i) ∧
      ((∀ i ∈ eligible, ¬ IsDefaultEntry entries policy i) →
        selectDefaultEntry lower entries eligible policy = none)) :=
  ⟨selectDefaultEntry_of_matches, fun h =>
    ⟨selectDefaultEntry_of_isDefaultEntry h, selectDefaultEntry_eq_none h⟩⟩

end LamBoot
