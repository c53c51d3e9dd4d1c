import LamBoot.Bls.Entry
import LamBoot.Bls.Version

/-!
# Sorting BLS entries

`bls_sort_compare` of `bls_parse.rs`. It first separates entries into cohorts, by boot-count state
and by machine id or sort key, which is a lawful order (`cohortCompare`).
-/

namespace LamBoot

open Comparator Text

/-- Compare optional strings (`None` sorts after `Some`). -/
def cmpOptStr : Option Text → Option Text → Ordering :=
  noneLast Text.cmp

/-- `version_compare` on strings. -/
def versionCompareStr (a b : Text) : Ordering :=
  versionCompare (utf8 a) (utf8 b)

instance : Std.TransCmp versionCompareStr :=
  transCmp_comap utf8 versionCompare

/-- The filename fallback of `bls_sort_compare`. -/
def filenameFallback (a b : BlsEntry) : Ordering :=
  if a.version.isSome && b.version.isSome then (versionCompareStr a.id b.id).swap
  else Text.cmp a.id b.id

/-- BLS sort comparison. Each `then` is one "return unless equal" of the source. -/
def blsSortCompare (a b : BlsEntry) (ignoreSortKey : Bool) : Ordering :=
  let aBad := a.bootCountState == .bad
  let bBad := b.bootCountState == .bad
  if aBad != bBad then
    if aBad then .gt else .lt
  else if ignoreSortKey then
    (cmpOptStr a.machineId b.machineId).then <|
      (if a.version.isSome && b.version.isSome then
        (versionCompareStr (a.version.getD []) (b.version.getD [])).swap
      else .eq).then <|
      filenameFallback a b
  else
    let aHasSk := a.sortKey.isSome
    let bHasSk := b.sortKey.isSome
    if aHasSk != bHasSk then
      if aHasSk then .lt else .gt
    else if aHasSk && bHasSk then
      (cmpOptStr a.sortKey b.sortKey).then <|
        (cmpOptStr a.machineId b.machineId).then <|
        (versionCompareStr (a.version.getD []) (b.version.getD [])).swap.then <|
        filenameFallback a b
    else filenameFallback a b

/-! ### Cohorts -/

instance : Std.TransCmp cmpOptStr :=
  inferInstanceAs (Std.TransCmp (noneLast Text.cmp))

def newestFirst (a b : Text) : Ordering :=
  versionCompareStr b a

instance : Std.TransCmp newestFirst :=
  inferInstanceAs (Std.TransCmp fun a b => versionCompareStr b a)

lemma versionCompareStr_swap (a b : Text) : (versionCompareStr a b).swap = newestFirst a b :=
  Std.OrientedCmp.eq_swap.symm

/-- What entries with a sort-key are told apart by: the sort-key, the machine id, the version. -/
abbrev SortKey := Text × Option Text × Text

def sortKeyOf (e : BlsEntry) : Option SortKey :=
  e.sortKey.map fun key => (key, e.machineId, e.version.getD [])

def sortKeyCompare : SortKey → SortKey → Ordering :=
  compareLex (fun x y => Text.cmp x.1 y.1) <|
    compareLex (fun x y => cmpOptStr x.2.1 y.2.1) fun x y => newestFirst x.2.2 y.2.2

instance : Std.TransCmp sortKeyCompare :=
  have := transCmp_comap (fun x : SortKey => x.1) Text.cmp
  have := transCmp_comap (fun x : SortKey => x.2.1) cmpOptStr
  have := transCmp_comap (fun x : SortKey => x.2.2) newestFirst
  inferInstanceAs (Std.TransCmp (compareLex _ (compareLex _ _)))

def isBad (e : BlsEntry) : Bool :=
  e.bootCountState == .bad

/-- The comparison of the cohorts two entries belong to: failed entries last, then by machine
id, or by sort-key where those count. -/
def cohortCompare (ignoreSortKey : Bool) : BlsEntry → BlsEntry → Ordering :=
  compareLex (compareOn isBad) fun a b =>
    if ignoreSortKey then cmpOptStr a.machineId b.machineId
    else noneLast sortKeyCompare (sortKeyOf a) (sortKeyOf b)

instance (ignoreSortKey : Bool) : Std.TransCmp (cohortCompare ignoreSortKey) := by
  have := transCmp_comap BlsEntry.machineId cmpOptStr
  have := transCmp_comap sortKeyOf (noneLast sortKeyCompare)
  cases ignoreSortKey
  · exact inferInstanceAs (Std.TransCmp (compareLex _ fun a b => noneLast _ _ _))
  · exact inferInstanceAs (Std.TransCmp (compareLex _ fun a b => cmpOptStr _ _))

/-! ### Within a cohort -/

def hasVersion (e : BlsEntry) : Bool :=
  e.version.isSome

def versionOrder (ignoreSortKey : Bool) : BlsEntry → BlsEntry → Ordering :=
  compareLex
    (fun a b => if ignoreSortKey then newestFirst (a.version.getD []) (b.version.getD []) else .eq)
    fun a b => newestFirst a.id b.id

def idOrder (a b : BlsEntry) : Ordering :=
  Text.cmp a.id b.id

instance (ignoreSortKey : Bool) : Std.TransCmp (versionOrder ignoreSortKey) := by
  have := transCmp_comap (fun e : BlsEntry => e.version.getD []) newestFirst
  have := transCmp_comap BlsEntry.id newestFirst
  have : Std.TransCmp fun _ _ : BlsEntry => Ordering.eq :=
    { eq_swap := rfl, isLE_trans := fun _ _ => rfl }
  cases ignoreSortKey
  · exact inferInstanceAs (Std.TransCmp (compareLex (fun _ _ => .eq) fun a b => newestFirst _ _))
  · exact inferInstanceAs (Std.TransCmp (compareLex (fun a b => newestFirst _ _) _))

instance : Std.TransCmp idOrder :=
  transCmp_comap BlsEntry.id Text.cmp

def cohortOrder (ignoreSortKey : Bool) : BlsEntry → BlsEntry → Ordering :=
  switchOn hasVersion (versionOrder ignoreSortKey) idOrder

lemma filenameFallback_eq (a b : BlsEntry) : filenameFallback a b = cohortOrder false a b := by
  simp only [filenameFallback, cohortOrder, switchOn, hasVersion, versionOrder, compareLex,
    versionCompareStr_swap]
  rfl

lemma blsSortCompare_eq (a b : BlsEntry) (ignoreSortKey : Bool) :
    blsSortCompare a b ignoreSortKey =
      compareLex (cohortCompare ignoreSortKey) (cohortOrder ignoreSortKey) a b := by
  simp only [blsSortCompare, compareLex, cohortCompare, compareOn, filenameFallback_eq]
  rw [show (a.bootCountState == .bad) = isBad a from rfl,
    show (b.bootCountState == .bad) = isBad b from rfl]
  cases hab : isBad a <;> cases hbb : isBad b
  case false.true => rfl
  case true.false => rfl
  all_goals
    cases ignoreSortKey
    · cases ha : a.sortKey <;> cases hb : b.sortKey <;>
        simp [ha, hb, sortKeyOf, noneLast, sortKeyCompare, compareLex, cmpOptStr,
          versionCompareStr_swap, Ordering.then_assoc]
    · cases ha : a.version <;> cases hb : b.version <;>
        simp [ha, hb, cohortOrder, switchOn, hasVersion, versionOrder, compareLex, idOrder,
          versionCompareStr_swap]

/-! ### The laws of the comparator -/

/-- Three entries of one cohort of which exactly two have a version, with the id of the third
between their ids against the order their versions put them in. -/
def VersionClash (ignoreSortKey : Bool) (a b c : BlsEntry) : Prop :=
  cohortCompare ignoreSortKey a b = .eq ∧ cohortCompare ignoreSortKey b c = .eq ∧
    SwitchClash hasVersion (versionOrder ignoreSortKey) idOrder a b c

lemma blsSortCompare_swap (a b : BlsEntry) (ignoreSortKey : Bool) :
    blsSortCompare a b ignoreSortKey = (blsSortCompare b a ignoreSortKey).swap := by
  have : Std.OrientedCmp (cohortOrder ignoreSortKey) :=
    inferInstanceAs (Std.OrientedCmp (switchOn _ _ _))
  rw [blsSortCompare_eq, blsSortCompare_eq]
  exact Std.OrientedCmp.eq_swap

lemma transAt_blsSortCompare_iff (a b c : BlsEntry) (ignoreSortKey : Bool) :
    TransAt (fun a b => blsSortCompare a b ignoreSortKey) a b c ↔
      ¬ VersionClash ignoreSortKey a b c := by
  have htrans :
      TransAt (compareLex (cohortCompare ignoreSortKey) (cohortOrder ignoreSortKey)) a b c ↔
        ¬ VersionClash ignoreSortKey a b c := by
    rw [transAt_compareLex_iff, cohortOrder, transAt_switchOn_iff, VersionClash]
    tauto
  rw [← htrans, TransAt, TransAt]
  simp only [blsSortCompare_eq]

/-- Swapping two entries always reverses their comparison, and transitivity fails exactly at
the triples whose ids and versions clash. -/
theorem blsSortCompare_total_preorder_iff (a b c : BlsEntry) (ignoreSortKey : Bool) :
    (blsSortCompare a b ignoreSortKey = (blsSortCompare b a ignoreSortKey).swap ∧
        ((blsSortCompare a b ignoreSortKey).isLE = true →
          (blsSortCompare b c ignoreSortKey).isLE = true →
            (blsSortCompare a c ignoreSortKey).isLE = true)) ↔
      ¬ VersionClash ignoreSortKey a b c := by
  rw [and_iff_right (blsSortCompare_swap a b ignoreSortKey)]
  exact transAt_blsSortCompare_iff a b c ignoreSortKey

lemma blsSortCompare_of_isBad {a b : BlsEntry} (ha : isBad a = true) (hb : isBad b = false)
    (ignoreSortKey : Bool) : blsSortCompare a b ignoreSortKey = .gt := by
  simp only [isBad] at ha hb
  simp [blsSortCompare, ha, hb]

/-- Two kernels with a version and a rescue entry without one, in the order of their ids. -/
def kernel69 : BlsEntry :=
  { id := "fedora-6.9", filename := "fedora-6.9.conf", version := some "6.9",
    linux := some "\\vmlinuz-6.9" }

def kernel68 : BlsEntry :=
  { id := "fedora-6.8", filename := "fedora-6.8.conf", version := some "6.8",
    linux := some "\\vmlinuz-6.8" }

def rescue68 : BlsEntry :=
  { id := "fedora-6.8-rescue", filename := "fedora-6.8-rescue.conf",
    linux := some "\\vmlinuz-6.8" }

/-- The newer kernel sorts before the older one, that one before its rescue entry, and the rescue
entry before the newer kernel. -/
theorem blsSortCompare_cycle :
    (blsSortCompare kernel69 kernel68 false = .lt ∧
      blsSortCompare kernel68 rescue68 false = .lt ∧
        blsSortCompare kernel69 rescue68 false = .gt) ∧
    blsSortCompare kernel69 kernel68 true = .lt ∧
      blsSortCompare kernel68 rescue68 true = .lt ∧
        blsSortCompare kernel69 rescue68 true = .gt := by
  decide +kernel

end LamBoot
