import LamBoot.Boot.Iso
import LamBoot.Library.Selection
import LamBoot.Library.Utf8

/-!
# The initrds of a recipe

`resolve_recipe` picks the kernel and the initrds of a recognised ISO independently of each other.
This file says when the initrds are those of the kernel that was picked.
-/

namespace LamBoot

open List Text Option

/-! ### Candidates -/

def listing (iso : Volume) (dir : Text) : List Text :=
  (iso.readDirStr dir).toOption.getD []

/-- The greatest of the names that start with `name` is the one with the version. -/
structure Newest (names : List Text) (name version : Text) : Prop where
  mem : name ++ version ∈ names
  ne_gt : ∀ v, name ++ v ∈ names → Text.cmp (name ++ v) (name ++ version) ≠ .gt

section Candidates

variable {iso : Volume} {names : List Text} {candidate dir name v w : Text}

lemma globPick_eq_foldl (names : List Text) (name : Text) : globPick names name =
    (names.filter (name.isPrefixOf ·)).foldl (pickLast Text.cmp) none := by
  unfold globPick
  congr 1
  funext best n
  cases best <;> rfl

lemma globPick_cases (names : List Text) (name : Text) :
    (∃ v, Newest names name v ∧ globPick names name = some (name ++ v)) ∨
      (∀ v, name ++ v ∉ names) ∧ globPick names name = none := by
  have hmem : ∀ n, n ∈ names.filter (name.isPrefixOf ·) ↔ n ∈ names ∧ name <+: n := fun n => by
    rw [mem_filter, isPrefixOf_iff_prefix]
  rw [globPick_eq_foldl]
  rcases hfilter : names.filter (name.isPrefixOf ·) with _ | ⟨n, rest⟩
  · refine .inr ⟨fun v hv => ?_, rfl⟩
    exact nomatch hfilter ▸ (hmem _).mpr ⟨hv, prefix_append name v⟩
  · obtain ⟨best, hfold, hbest⟩ : ∃ b, (n :: rest).foldl (pickLast Text.cmp) none = some b ∧ _ :=
      foldl_pickLast n rest
    rw [← hfilter] at hbest
    obtain ⟨hin, v, rfl⟩ := (hmem best).mp hbest.mem
    refine .inl ⟨v, ⟨hin, fun w hw => ?_⟩, hfold⟩
    exact hbest.ne_gt _ ((hmem _).mpr ⟨hw, prefix_append name w⟩)

lemma Newest.unique (hv : Newest names name v) (hw : Newest names name w) : v = w := by
  have hle := hv.ne_gt w hw.mem
  cases h : Text.cmp (name ++ v) (name ++ w) with
  | lt => exact absurd (Std.OrientedCmp.gt_iff_lt.mpr h) hle
  | eq => exact append_cancel_left (Std.LawfulEqCmp.eq_of_compare h)
  | gt => exact absurd h (hw.ne_gt v hv.mem)

lemma resolveCandidate_exact (h : splitGlob candidate = none) :
    resolveCandidate iso candidate = if iso.existsStr candidate then some candidate else none := by
  rw [resolveCandidate, h]

lemma resolveCandidate_glob (h : splitGlob candidate = some (dir, name)) :
    resolveCandidate iso candidate =
      (globPick (listing iso dir) name).map (dir ++ '/' :: ·) := by
  rw [resolveCandidate, h, listing]
  dsimp only
  cases iso.readDirStr dir with
  | error e => rfl
  | ok names => cases h : globPick names name <;> simp [Except.toOption, h]

end Candidates

/-! ### Recipes -/

/-- The path is that of a candidate with a version for its `*`, of which the condition holds. -/
def Versioned (candidates : List Text) (version path : Text) (holds : Text → Text → Prop) : Prop :=
  ∃ candidate ∈ candidates, ∃ dir name, splitGlob candidate = some (dir, name) ∧
    holds dir (name ++ version) ∧ path = dir ++ '/' :: (name ++ version)

/-- The initrds of a recipe are different ones. Where the ISO has one with the version of the
kernel, the list is as required of it. -/
def InitrdsAgree (iso : Volume) (recipe : DistroRecipe) (required : List Text → Text → Prop) :
    Prop :=
  ∀ kernel initrds, resolveRecipe iso recipe = some (kernel, initrds) →
    initrds.Nodup ∧ ∀ version path, Versioned recipe.kernel version kernel (fun _ _ => True) →
      Versioned recipe.initrd version path (fun dir name => name ∈ listing iso dir) →
      required initrds path

/-- Candidates of one name, first with any version and then as it is. -/
structure Stamped (candidates : List Text) (dir name : Text) : Prop where
  eq : candidates = [dir ++ '/' :: (name ++ ['*']), dir ++ '/' :: name]
  glob : splitGlob (dir ++ '/' :: (name ++ ['*'])) = some (dir, name)
  plain : splitGlob (dir ++ '/' :: name) = none

/-- The version that a pattern picks: the newest that is listed, or none with the bare name. -/
def Picks (iso : Volume) (dir name version : Text) : Prop :=
  Newest (listing iso dir) name version ∨ (∀ v, name ++ v ∉ listing iso dir) ∧
    iso.existsStr (dir ++ '/' :: name) = true ∧ version = []

section Stamped

variable {iso : Volume} {candidates : List Text} {dir name version path : Text}

lemma Stamped.versioned_iff (h : Stamped candidates dir name) (holds : Text → Text → Prop) :
    Versioned candidates version path holds ↔
      holds dir (name ++ version) ∧ path = dir ++ '/' :: (name ++ version) := by
  constructor
  · rintro ⟨candidate, hmem, dir', name', hsplit, hholds, rfl⟩
    rw [h.eq] at hmem
    rcases mem_pair.mp hmem with rfl | rfl
    · obtain ⟨rfl, rfl⟩ := Prod.mk.inj (some.inj (h.glob.symm.trans hsplit))
      exact ⟨hholds, rfl⟩
    · exact nomatch h.plain.symm.trans hsplit
  · rintro ⟨hholds, rfl⟩
    exact ⟨_, h.eq ▸ mem_cons_self, dir, name, h.glob, hholds, rfl⟩

lemma Stamped.findSome?_eq_some_iff (h : Stamped candidates dir name) :
    candidates.findSome? (resolveCandidate iso) = some path ↔
      ∃ version, Picks iso dir name version ∧ path = dir ++ '/' :: (name ++ version) := by
  rw [h.eq, findSome?_cons, findSome?_singleton, resolveCandidate_glob h.glob,
    resolveCandidate_exact h.plain]
  rcases globPick_cases (listing iso dir) name with ⟨v, hv, hpick⟩ | ⟨hnone, hpick⟩
  · rw [hpick]
    constructor
    · rintro ⟨⟩
      exact ⟨v, .inl hv, rfl⟩
    · rintro ⟨w, hw | ⟨hnone, -⟩, rfl⟩
      · rw [hv.unique hw]
        rfl
      · exact absurd hv.mem (hnone v)
  · rw [hpick]
    constructor
    · intro hsome
      dsimp only [map_none] at hsome
      split_ifs at hsome with hexists
      obtain rfl := some.inj hsome
      exact ⟨[], .inr ⟨hnone, hexists, rfl⟩, by rw [append_nil]⟩
    · rintro ⟨w, hw | ⟨-, hexists, rfl⟩, rfl⟩
      · exact absurd hw.mem (hnone w)
      · rw [append_nil]
        exact if_pos hexists

lemma Stamped.filterMap_eq (h : Stamped candidates dir name) :
    candidates.filterMap (resolveCandidate iso) =
      ((globPick (listing iso dir) name).map (dir ++ '/' :: ·)).toList ++
        if iso.existsStr (dir ++ '/' :: name) then [dir ++ '/' :: name] else [] := by
  rw [h.eq, filterMap_cons, filterMap_cons, resolveCandidate_glob h.glob,
    resolveCandidate_exact h.plain]
  cases globPick (listing iso dir) name <;> split_ifs <;> rfl

lemma path_inj {v w : Text} :
    dir ++ '/' :: (name ++ v) = dir ++ '/' :: (name ++ w) ↔ v = w := by
  simp

lemma Stamped.nodup_iff (h : Stamped candidates dir name) :
    (candidates.filterMap (resolveCandidate iso)).Nodup ↔
      ¬ (iso.existsStr (dir ++ '/' :: name) = true ∧ Newest (listing iso dir) name []) := by
  rw [h.filterMap_eq]
  rcases globPick_cases (listing iso dir) name with ⟨v, hv, hpick⟩ | ⟨hnone, hpick⟩
  · have hnil : Newest (listing iso dir) name [] ↔ v = [] := ⟨hv.unique, fun h => h ▸ hv⟩
    rw [hpick, hnil]
    split_ifs with hexists <;> simp [hexists]
  · rw [hpick]
    refine iff_of_true ?_ fun h => hnone [] h.2.mem
    split_ifs <;> simp

lemma Stamped.eq_singleton_iff (h : Stamped candidates dir name)
    (hheld : name ++ version ∈ listing iso dir) :
    candidates.filterMap (resolveCandidate iso) = [dir ++ '/' :: (name ++ version)] ↔
      Newest (listing iso dir) name version ∧ iso.existsStr (dir ++ '/' :: name) = false := by
  rw [h.filterMap_eq]
  rcases globPick_cases (listing iso dir) name with ⟨v, hv, hpick⟩ | ⟨hnone, -⟩
  · have hversion : Newest (listing iso dir) name version ↔ v = version :=
      ⟨hv.unique, fun h => h ▸ hv⟩
    rw [hpick, hversion]
    split_ifs with hexists <;> simp [hexists]
  · exact absurd hheld (hnone version)

lemma Stamped.mem_iff (h : Stamped candidates dir name)
    (hheld : name ++ version ∈ listing iso dir) :
    dir ++ '/' :: (name ++ version) ∈ candidates.filterMap (resolveCandidate iso) ↔
      Newest (listing iso dir) name version ∨
        iso.existsStr (dir ++ '/' :: name) = true ∧ version = [] := by
  rw [h.filterMap_eq]
  rcases globPick_cases (listing iso dir) name with ⟨v, hv, hpick⟩ | ⟨hnone, -⟩
  · have hversion : Newest (listing iso dir) name version ↔ version = v :=
      ⟨fun h => h.unique hv, fun h => h ▸ hv⟩
    rw [hpick, hversion]
    split_ifs with hexists <;> simp [hexists]
  · exact absurd hheld (hnone version)

lemma initrdsAgree_iff {recipe : DistroRecipe} {kernelName initrdName : Text}
    (hkernel : Stamped recipe.kernel dir kernelName)
    (hinitrd : Stamped recipe.initrd dir initrdName) (required : List Text → Text → Prop) :
    InitrdsAgree iso recipe required ↔ ∀ version, Picks iso dir kernelName version →
      ¬ (iso.existsStr (dir ++ '/' :: initrdName) = true ∧ Newest (listing iso dir) initrdName []) ∧
      (initrdName ++ version ∈ listing iso dir →
        required (recipe.initrd.filterMap (resolveCandidate iso))
          (dir ++ '/' :: (initrdName ++ version))) := by
  have hresolve : ∀ kernel initrds, resolveRecipe iso recipe = some (kernel, initrds) ↔
      recipe.kernel.findSome? (resolveCandidate iso) = some kernel ∧
        recipe.initrd.filterMap (resolveCandidate iso) = initrds := by
    intro kernel initrds
    simp [resolveRecipe, bind_eq_some_iff]
  simp only [InitrdsAgree, hresolve, hkernel.findSome?_eq_some_iff, hkernel.versioned_iff,
    hinitrd.versioned_iff, ← hinitrd.nodup_iff]
  constructor
  · intro h version hpicks
    obtain ⟨hnodup, hrequired⟩ := h _ _ ⟨⟨version, hpicks, rfl⟩, rfl⟩
    exact ⟨hnodup, fun hheld => hrequired version _ ⟨trivial, rfl⟩ ⟨hheld, rfl⟩⟩
  · rintro h _ _ ⟨⟨version, hpicks, rfl⟩, rfl⟩
    obtain ⟨hnodup, hrequired⟩ := h version hpicks
    refine ⟨hnodup, ?_⟩
    rintro v _ ⟨-, hversion⟩ ⟨hheld, rfl⟩
    obtain rfl := path_inj.mp hversion
    exact hrequired hheld

end Stamped

lemma initrdsAgree_of_exact {iso : Volume} {recipe : DistroRecipe}
    (h : ∀ candidate ∈ recipe.initrd, splitGlob candidate = none) (hnodup : recipe.initrd.Nodup)
    (required : List Text → Text → Prop) : InitrdsAgree iso recipe required := by
  intro kernel initrds hresolve
  obtain ⟨_, -, heq⟩ := bind_eq_some_iff.mp hresolve
  obtain ⟨-, rfl⟩ := Prod.mk.inj (some.inj heq)
  constructor
  · have hfilter : recipe.initrd.filterMap (resolveCandidate iso) =
        recipe.initrd.filter fun c => iso.existsStr c := by
      rw [← filterMap_eq_filter]
      refine filterMap_congr fun c hc => ?_
      rw [resolveCandidate_exact (h c hc)]
      rfl
    rw [hfilter]
    exact hnodup.filter _
  · rintro version path - ⟨candidate, hmem, dir, name, hsplit, -⟩
    exact nomatch (h candidate hmem).symm.trans hsplit

lemma distroTable_cases {recipe : DistroRecipe} (h : recipe ∈ distroTable) :
    (recipe.family ≠ "debian-live" ∧ (∀ c ∈ recipe.initrd, splitGlob c = none) ∧
        recipe.initrd.Nodup) ∨
      recipe.family = "debian-live" ∧ Stamped recipe.kernel "/live" "vmlinuz" ∧
        Stamped recipe.initrd "/live" "initrd.img" := by
  rcases mem_cons.mp h with rfl | h
  · exact .inl (by decide)
  rcases mem_cons.mp h with rfl | h
  · exact .inl (by decide)
  rcases mem_cons.mp h with rfl | h
  · exact .inr ⟨rfl, ⟨rfl, by decide, by decide⟩, ⟨rfl, by decide, by decide⟩⟩
  rcases mem_cons.mp h with rfl | h
  · exact .inl (by decide)
  rcases mem_pair.mp h with rfl | rfl <;> exact .inl (by decide)

/-- The initrds of a recipe are different ones, and the one of the kernel's version is the only one,
just if the recipe is not that for Debian, or the newest initrd has the kernel's version, where one
has, and the one without a version is not there too. -/
theorem resolveRecipe_iff (iso : Volume) {recipe : DistroRecipe} (hrecipe : recipe ∈ distroTable) :
    (InitrdsAgree iso recipe (fun initrds path => initrds = [path]) ↔
      (recipe.family = "debian-live" → ∀ version, Picks iso "/live" "vmlinuz" version →
        ¬ (iso.existsStr "/live/initrd.img" = true ∧ Newest (listing iso "/live") "initrd.img" []) ∧
        ("initrd.img" ++ version ∈ listing iso "/live" →
          Newest (listing iso "/live") "initrd.img" version ∧
            iso.existsStr "/live/initrd.img" = false))) ∧
    (InitrdsAgree iso recipe (fun initrds path => path ∈ initrds) ↔
      (recipe.family = "debian-live" → ∀ version, Picks iso "/live" "vmlinuz" version →
        ¬ (iso.existsStr "/live/initrd.img" = true ∧ Newest (listing iso "/live") "initrd.img" []) ∧
        ("initrd.img" ++ version ∈ listing iso "/live" →
          Newest (listing iso "/live") "initrd.img" version ∨
            iso.existsStr "/live/initrd.img" = true ∧ version = []))) := by
  rcases distroTable_cases hrecipe with ⟨hfamily, hexact, hnodup⟩ | ⟨hfamily, hkernel, hinitrd⟩
  · exact ⟨iff_of_true (initrdsAgree_of_exact hexact hnodup _) fun h => absurd h hfamily,
      iff_of_true (initrdsAgree_of_exact hexact hnodup _) fun h => absurd h hfamily⟩
  · rw [initrdsAgree_iff hkernel hinitrd, initrdsAgree_iff hkernel hinitrd,
      imp_iff_right hfamily, imp_iff_right hfamily]
    refine ⟨forall₂_congr fun version _ => and_congr_right fun _ => forall_congr' fun hheld => ?_,
      forall₂_congr fun version _ => and_congr_right fun _ => forall_congr' fun hheld => ?_⟩
    · exact hinitrd.eq_singleton_iff hheld
    · exact hinitrd.mem_iff hheld

def liveIso (names : List Text) : Volume where
  backendTag := "iso9660"
  read _ := .error .notFound
  fileExists path :=
    .ok (path.segments = ["live".toList] ||
      names.any fun name => path.segments = ["live".toList, name])
  readDir path :=
    if path.segments = ["live".toList] then .ok (names.map (⟨·, .regular⟩)) else .error .notFound

/-- One kernel and its initrd. -/
theorem resolveRecipe_iff_oneVersion : ∃ recipe ∈ distroTable, recipe.family = "debian-live" ∧
    InitrdsAgree (liveIso ["vmlinuz-6.1", "initrd.img-6.1"]) recipe
      (fun initrds path => initrds = [path]) := by
  have hmem := mem_of_getElem? (show distroTable[2]? = some _ from rfl)
  refine ⟨_, hmem, rfl, ((resolveRecipe_iff _ hmem).1).mpr fun _ version _ => ?_⟩
  have hexists :
      (liveIso ["vmlinuz-6.1", "initrd.img-6.1"]).existsStr "/live/initrd.img" = false := by
    decide
  have hlisting : listing (liveIso ["vmlinuz-6.1", "initrd.img-6.1"]) "/live" =
      ["vmlinuz-6.1".toList, "initrd.img".toList ++ "-6.1".toList] := by decide
  have hversion : ∀ v, "initrd.img".toList ++ v ∈
      ["vmlinuz-6.1".toList, "initrd.img".toList ++ "-6.1".toList] → v = "-6.1" := by
    intro v hv
    rcases mem_pair.mp hv with h | h
    · exact absurd (congrArg head? h) (by simp)
    · exact append_cancel_left h
  rw [hexists, hlisting]
  refine ⟨fun h => Bool.false_ne_true h.1, fun hheld => ⟨⟨hheld, fun v hv => ?_⟩, rfl⟩⟩
  rw [hversion v hv, hversion version hheld]
  decide

/-- One initrd without a version is listed twice, and the initrd of a later version is listed in the
place of the one that belongs to the kernel. -/
theorem resolveRecipe_liveIso : ∃ recipe ∈ distroTable,
    (fingerprint (liveIso ["vmlinuz", "initrd.img"]).existsStr = some recipe ∧
      resolveRecipe (liveIso ["vmlinuz", "initrd.img"]) recipe =
        some ("/live/vmlinuz".toList, ["/live/initrd.img".toList, "/live/initrd.img".toList])) ∧
    fingerprint (liveIso ["vmlinuz-6.1", "initrd.img-6.1", "initrd.img-6.9"]).existsStr =
        some recipe ∧
      resolveRecipe (liveIso ["vmlinuz-6.1", "initrd.img-6.1", "initrd.img-6.9"]) recipe =
        some ("/live/vmlinuz-6.1".toList, ["/live/initrd.img-6.9".toList]) := by
  refine ⟨_, mem_of_getElem? (show distroTable[2]? = some _ from rfl), ⟨rfl, ?_⟩, rfl, ?_⟩
  · decide
  · decide

end LamBoot
