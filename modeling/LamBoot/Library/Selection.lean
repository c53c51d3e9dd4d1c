import LamBoot.Library.Comparator

/-!
# Sorting and keeping first occurrences

`sort_by` of a slice, as far as its documentation goes, and the removal of elements whose key has
been seen; first and greatest elements; lists of choices; and folds in which the last assignment
wins.
-/

/-- `slice::sort_by`. Whatever the comparator, the elements are all kept; where the comparator is
an order the sort is stable, and where it is not the order they come out in is not specified. -/
structure SliceSort where
  apply : {α : Type} → (α → α → Ordering) → List α → List α
  perm : ∀ {α : Type} (cmp : α → α → Ordering) (l : List α), (apply cmp l).Perm l
  stable : ∀ {α : Type} (cmp : α → α → Ordering) [Std.TransCmp cmp] (l : List α),
    apply cmp l = l.mergeSort fun a b => (cmp a b).isLE

namespace SliceSort

open List

variable {α : Type} {cmp : α → α → Ordering} {l : List α}

@[simp] lemma mem_apply (sort : SliceSort) {a : α} : a ∈ sort.apply cmp l ↔ a ∈ l :=
  (sort.perm cmp l).mem_iff

def merge : SliceSort where
  apply cmp l := l.mergeSort fun a b => (cmp a b).isLE
  perm _ l := mergeSort_perm l _
  stable _ _ _ := rfl

lemma orderedInsert_append {r : α → α → Prop} [DecidableRel r] {a : α}
    {before after : List α} (hbefore : ∀ b ∈ before, ¬ r a b) (hafter : ∀ b ∈ after, r a b) :
    (before ++ after).orderedInsert r a = before ++ a :: after := by
  induction before with
  | nil =>
    cases after with
    | nil => rfl
    | cons b after => simp [hafter b mem_cons_self]
  | cons b before ih =>
    have hb : ¬ r a b := hbefore b mem_cons_self
    simp [orderedInsert_cons, hb, ih fun c hc => hbefore c (mem_cons_of_mem b hc)]

lemma pairwise_orderedInsert {r : α → α → Prop} [DecidableRel r] {a : α} {l : List α}
    (hl : l.Pairwise r) (htotal : ∀ b ∈ l, ¬ r a b → r b a)
    (htrans : ∀ b ∈ l, ∀ c ∈ l, r a b → r b c → r a c) : (l.orderedInsert r a).Pairwise r := by
  induction l with
  | nil => simp
  | cons b l ih =>
    obtain ⟨hb, hl⟩ := pairwise_cons.mp hl
    rw [orderedInsert_cons]
    split_ifs with hab
    · refine pairwise_cons.mpr ⟨fun c hc => ?_, pairwise_cons.mpr ⟨hb, hl⟩⟩
      rcases mem_cons.mp hc with rfl | hc
      · exact hab
      · exact htrans b mem_cons_self c (mem_cons_of_mem b hc) hab (hb c hc)
    · have hrest := ih hl (fun c hc => htotal c (mem_cons_of_mem b hc))
        fun c hc d hd => htrans c (mem_cons_of_mem b hc) d (mem_cons_of_mem b hd)
      refine pairwise_cons.mpr ⟨fun c hc => ?_, hrest⟩
      rcases (mem_orderedInsert r).mp hc with rfl | hc
      · exact htotal b mem_cons_self hab
      · exact hb c hc

lemma insertionSort_eq_mergeSort {cmp : α → α → Ordering} [Std.TransCmp cmp]
    (l : List α) :
    l.insertionSort (fun a b => (cmp a b).isLE) = l.mergeSort fun a b => (cmp a b).isLE := by
  have htrans : ∀ a b c, (cmp a b).isLE → (cmp b c).isLE → (cmp a c).isLE := fun _ _ _ =>
    Std.TransCmp.isLE_trans
  have htotal : ∀ a b, ((cmp a b).isLE || (cmp b a).isLE) = true := by
    intro a b
    have hswap : cmp b a = (cmp a b).swap := Std.OrientedCmp.eq_swap
    rw [hswap]
    cases cmp a b <;> rfl
  induction l with
  | nil => simp
  | cons a l ih =>
    obtain ⟨before, after, hcons, hl, hbefore⟩ := mergeSort_cons htrans htotal a l
    have hsorted := pairwise_mergeSort htrans htotal (a :: l)
    rw [hcons] at hsorted
    have hafter := (pairwise_cons.mp (pairwise_append.mp hsorted).2.1).1
    rw [insertionSort_cons, ih, hcons, hl]
    exact orderedInsert_append (by simpa using hbefore) hafter

def insertion : SliceSort where
  apply cmp l := l.insertionSort fun a b => (cmp a b).isLE
  perm _ l := perm_insertionSort _ l
  stable _ _ l := insertionSort_eq_mergeSort l

/-- The comparator is an order among the elements of a list. -/
def LawfulOn (cmp : α → α → Ordering) (l : List α) : Prop :=
  (∀ a b, cmp a b = (cmp b a).swap) ∧ ∀ a ∈ l, ∀ b ∈ l, ∀ c ∈ l, Comparator.TransAt cmp a b c

/-- The sort also sorts where the comparator is an order among the elements of the list only. -/
def SortsWhereLawful (sort : SliceSort) : Prop :=
  ∀ {α : Type} (cmp : α → α → Ordering) (l : List α), LawfulOn cmp l →
    (sort.apply cmp l).Pairwise fun a b => (cmp a b).isLE = true

lemma insertion_sortsWhereLawful : insertion.SortsWhereLawful := by
  rintro α cmp l ⟨hswap, htrans⟩
  induction l with
  | nil => exact List.Pairwise.nil
  | cons a l ih =>
    have hl := ih fun b hb c hc d hd =>
      htrans b (mem_cons_of_mem a hb) c (mem_cons_of_mem a hc) d
        (mem_cons_of_mem a hd)
    have hmem : ∀ b ∈ insertion.apply cmp l, b ∈ a :: l := fun b hb =>
      mem_cons_of_mem a ((insertion.mem_apply).mp hb)
    refine pairwise_orderedInsert hl (fun b _ hab => ?_)
      fun b hb c hc => htrans a mem_cons_self b (hmem b hb) c (hmem c hc)
    have hlt : cmp b a = .lt := by simpa [hswap a b] using hab
    rw [hlt]
    rfl

open Classical in
/-- A sort that brings the elements of one type into the order of a rank wherever the comparator is
not an order among them. -/
noncomputable def adverse {β : Type} (rank : β → Nat) : SliceSort where
  apply {α} cmp l :=
    if LawfulOn cmp l then insertion.apply cmp l
    else if h : α = β then l.insertionSort fun a b => rank (cast h a) ≤ rank (cast h b) else l
  perm cmp l := by
    split_ifs
    · exact insertion.perm cmp l
    · exact perm_insertionSort _ l
    · exact .refl l
  stable cmp _ l := by
    rw [if_pos ⟨fun _ _ => Std.OrientedCmp.eq_swap, fun a _ b _ c _ => .of_transCmp cmp a b c⟩]
    exact insertion.stable cmp l

lemma adverse_sortsWhereLawful {β : Type} (rank : β → Nat) : (adverse rank).SortsWhereLawful := by
  intro α cmp l hlawful
  have happly : (adverse rank).apply cmp l = insertion.apply cmp l := if_pos hlawful
  rw [happly]
  exact insertion_sortsWhereLawful cmp l hlawful

lemma adverse_of_not_lawfulOn {rank : α → Nat} {cmp : α → α → Ordering} {l : List α}
    (h : ¬ LawfulOn cmp l) :
    ((adverse rank).apply cmp l).Pairwise fun a b => rank a ≤ rank b := by
  have : Std.Total fun a b : α => rank a ≤ rank b := ⟨fun _ _ => le_total _ _⟩
  have : IsTrans α fun a b => rank a ≤ rank b := ⟨fun _ _ _ => le_trans⟩
  have happly : (adverse rank).apply cmp l = l.insertionSort fun a b => rank a ≤ rank b :=
    (if_neg h).trans (dif_pos rfl)
  rw [happly]
  exact pairwise_insertionSort (fun a b => rank a ≤ rank b) l

end SliceSort

open List

lemma List.Pairwise.rel_or_rel {α : Type} {r : α → α → Prop} {l : List α} (h : l.Pairwise r)
    {a b : α} (ha : a ∈ l) (hb : b ∈ l) (hne : a ≠ b) : r a b ∨ r b a := by
  have : Std.Symm fun a b => r a b ∨ r b a := ⟨fun _ _ => Or.symm⟩
  exact (h.imp Or.inl : l.Pairwise fun a b => r a b ∨ r b a).forall ha hb hne

/-! ### The first element with a property -/

section FirstIn

variable {α : Type} {l : List α} {p : α → Prop} {a b : α}

/-- The element has the property, and none before it has. -/
def FirstIn (l : List α) (p : α → Prop) (a : α) : Prop :=
  ∃ before after, l = before ++ a :: after ∧ p a ∧ ∀ b ∈ before, ¬ p b

lemma FirstIn.mem (h : FirstIn l p a) : a ∈ l := by
  obtain ⟨before, after, rfl, -⟩ := h
  simp

lemma FirstIn.prop (h : FirstIn l p a) : p a := by
  obtain ⟨before, after, -, ha, -⟩ := h
  exact ha

lemma FirstIn.congr {q : α → Prop} (h : FirstIn l p a) (hpq : ∀ b, p b ↔ q b) :
    FirstIn l q a := by
  have heq : p = q := funext fun b => propext (hpq b)
  exact heq ▸ h

lemma find?_eq_some_iff_firstIn {p : α → Bool} :
    l.find? p = some a ↔ FirstIn l (fun a => p a = true) a := by
  rw [find?_eq_some_iff_append]
  constructor
  · rintro ⟨ha, before, after, rfl, hbefore⟩
    exact ⟨before, after, rfl, ha, fun b hb => by simpa using hbefore b hb⟩
  · rintro ⟨before, after, rfl, ha, hbefore⟩
    exact ⟨ha, before, after, rfl, fun b hb => by simpa using hbefore b hb⟩

lemma FirstIn.unique (ha : FirstIn l p a) (hb : FirstIn l p b) : a = b := by
  classical
  have hfind : ∀ c, FirstIn l p c → l.find? (fun c => decide (p c)) = some c := fun c hc =>
    find?_eq_some_iff_firstIn.mpr (hc.congr fun d => by simp)
  exact Option.some.inj ((hfind a ha).symm.trans (hfind b hb))

lemma FirstIn.filter {p' : α → Prop} {q : α → Bool} (h : FirstIn l p a) (hq : q a = true)
    (hp : p' a) (hbefore : ∀ b, ¬ p b → q b = true → ¬ p' b) : FirstIn (l.filter q) p' a := by
  obtain ⟨before, after, rfl, -, hfirst⟩ := h
  refine ⟨before.filter q, after.filter q, ?_, hp, fun b hb => ?_⟩
  · rw [filter_append, filter_cons_of_pos hq]
  · obtain ⟨hb, hqb⟩ := mem_filter.mp hb
    exact hbefore b (hfirst b hb) hqb

lemma FirstIn.of_filter {q : α → Bool} (h : FirstIn (l.filter q) p a) :
    FirstIn l (fun a => q a = true ∧ p a) a := by
  obtain ⟨before, after, hfilter, ha, hbefore⟩ := h
  obtain ⟨l₁, l₂, rfl, rfl, hl₂⟩ := filter_eq_append_iff.mp hfilter
  obtain ⟨l₃, l₄, rfl, hl₃, hq, -⟩ := filter_eq_cons_iff.mp hl₂
  refine ⟨l₁ ++ l₃, l₄, by simp, ⟨hq, ha⟩, fun b hb ⟨hqb, hpb⟩ => ?_⟩
  rcases mem_append.mp hb with hb | hb
  · exact hbefore b (mem_filter.mpr ⟨hb, hqb⟩) hpb
  · exact hl₃ b hb hqb

end FirstIn

/-! ### Keeping the first element with each key -/

section KeepFirst

variable {α κ : Type} (key : α → κ)

/-- Drops each element whose key has been seen. -/
def keepFirst [DecidableEq κ] : List κ → List α → List α
  | _, [] => []
  | seen, a :: l =>
    if key a ∈ seen then keepFirst seen l else a :: keepFirst (seen ++ [key a]) l

/-- The element is the first one with its key. -/
def FirstWithKey (l : List α) (a : α) : Prop :=
  ∃ before after, l = before ++ a :: after ∧ ∀ b ∈ before, key b ≠ key a

variable {key} {l : List α}

lemma FirstWithKey.firstIn {a : α} (h : FirstWithKey key l a) :
    FirstIn l (fun b => key b = key a) a := by
  obtain ⟨before, after, heq, hbefore⟩ := h
  exact ⟨before, after, heq, rfl, hbefore⟩

lemma FirstWithKey.mem {a : α} (h : FirstWithKey key l a) : a ∈ l :=
  h.firstIn.mem

lemma firstWithKey_cons_iff {a b : α} :
    FirstWithKey key (b :: l) a ↔ a = b ∨ (FirstWithKey key l a ∧ key b ≠ key a) := by
  constructor
  · rintro ⟨_ | ⟨c, before⟩, after, hl, hbefore⟩
    · exact .inl (cons.inj hl).1.symm
    · obtain ⟨rfl, rfl⟩ := cons.inj hl
      exact .inr ⟨⟨before, after, rfl, fun d hd => hbefore d (mem_cons_of_mem _ hd)⟩,
        hbefore b mem_cons_self⟩
  · rintro (rfl | ⟨⟨before, after, rfl, hbefore⟩, hb⟩)
    · exact ⟨[], l, rfl, by simp⟩
    · refine ⟨b :: before, after, rfl, fun d hd => ?_⟩
      rcases mem_cons.mp hd with rfl | hd
      · exact hb
      · exact hbefore d hd

/-- What is kept is what comes first with a key that had not been seen. -/
lemma mem_keepFirst_iff [DecidableEq κ] {seen : List κ} {a : α} :
    a ∈ keepFirst key seen l ↔ FirstWithKey key l a ∧ key a ∉ seen := by
  induction l generalizing seen with
  | nil => simp [keepFirst, FirstWithKey]
  | cons b l ih =>
    rw [firstWithKey_cons_iff, keepFirst]
    split_ifs with hb
    · rw [ih]
      constructor
      · rintro ⟨h, ha⟩
        exact ⟨.inr ⟨h, fun hba => ha (hba ▸ hb)⟩, ha⟩
      · rintro ⟨rfl | ⟨h, -⟩, ha⟩
        · exact absurd hb ha
        · exact ⟨h, ha⟩
    · rw [mem_cons, ih, mem_append, mem_singleton, not_or]
      constructor
      · rintro (rfl | ⟨h, ha, hab⟩)
        · exact ⟨.inl rfl, hb⟩
        · exact ⟨.inr ⟨h, Ne.symm hab⟩, ha⟩
      · rintro ⟨rfl | ⟨h, hba⟩, ha⟩
        · exact .inl rfl
        · exact .inr ⟨h, ha, Ne.symm hba⟩

lemma FirstWithKey.eq_of_key {a b : α} (ha : FirstWithKey key l a)
    (hb : FirstWithKey key l b) (hkey : key a = key b) : a = b :=
  ha.firstIn.unique (hkey ▸ hb.firstIn)

lemma exists_firstWithKey (key : α → κ) {a : α} (h : a ∈ l) :
    ∃ b, FirstWithKey key l b ∧ key b = key a := by
  induction l with
  | nil => exact absurd h not_mem_nil
  | cons c l ih =>
    by_cases hc : key c = key a
    · exact ⟨c, firstWithKey_cons_iff.mpr (.inl rfl), hc⟩
    · rcases mem_cons.mp h with rfl | h
      · exact absurd rfl hc
      · obtain ⟨b, hb, hkey⟩ := ih h
        exact ⟨b, firstWithKey_cons_iff.mpr (.inr ⟨hb, hkey ▸ hc⟩), hkey⟩

lemma FirstWithKey.append {a : α} (h : FirstWithKey key l a) (rest : List α) :
    FirstWithKey key (l ++ rest) a := by
  obtain ⟨before, after, rfl, hbefore⟩ := h
  exact ⟨before, after ++ rest, by simp, hbefore⟩

/-- In a list in which earlier elements are related to later ones, what is kept for a key is related
to all that has the key. -/
lemma exists_mem_keepFirst [DecidableEq κ] (key : α → κ) {r : α → α → Prop} (hl : l.Pairwise r)
    {a : α} (h : a ∈ l) : ∃ b ∈ keepFirst key [] l, key b = key a ∧ (b = a ∨ r b a) := by
  obtain ⟨b, hfirst, hkey⟩ := exists_firstWithKey key h
  refine ⟨b, mem_keepFirst_iff.mpr ⟨hfirst, not_mem_nil⟩, hkey, ?_⟩
  obtain ⟨before, after, rfl, hbefore⟩ := hfirst
  rcases mem_append.mp h with ha | ha
  · exact absurd hkey.symm (hbefore a ha)
  · rcases mem_cons.mp ha with rfl | ha
    · exact .inl rfl
    · exact .inr ((pairwise_cons.mp (pairwise_append.mp hl).2.1).1 a ha)

lemma keepFirst_append [DecidableEq κ] (seen : List κ) (l l' : List α) :
    keepFirst key seen (l ++ l') =
      keepFirst key seen l ++ keepFirst key (seen ++ (keepFirst key seen l).map key) l' := by
  induction l generalizing seen with
  | nil => simp [keepFirst]
  | cons a l ih =>
    rw [cons_append, keepFirst, keepFirst]
    split_ifs
    · exact ih seen
    · simp [ih]

lemma keepFirst_map {β : Type} [DecidableEq κ] (f : β → α) (seen : List κ) (l : List β) :
    keepFirst key seen (l.map f) = (keepFirst (key ∘ f) seen l).map f := by
  induction l generalizing seen with
  | nil => rfl
  | cons b l ih =>
    by_cases hb : key (f b) ∈ seen <;> simp [keepFirst, hb, ih]

lemma keepFirst_sublist [DecidableEq κ] (seen : List κ) (l : List α) :
    (keepFirst key seen l).Sublist l := by
  induction l generalizing seen with
  | nil => exact List.Sublist.slnil
  | cons a l ih =>
    rw [keepFirst]
    split_ifs
    · exact (ih seen).cons a
    · exact (ih _).cons_cons a

lemma pairwise_keepFirst [DecidableEq κ] (key : α → κ) (seen : List κ) (l : List α) :
    (keepFirst key seen l).Pairwise fun a b => key a ≠ key b := by
  induction l generalizing seen with
  | nil => exact List.Pairwise.nil
  | cons a l ih =>
    rw [keepFirst]
    split_ifs
    · exact ih seen
    · refine pairwise_cons.mpr ⟨fun b hb hab => ?_, ih _⟩
      exact (mem_keepFirst_iff.mp hb).2 (by simp [hab])

end KeepFirst

/-! ### The greatest element -/

/-- What a fold keeps that begins with nothing and chooses between what it has and each element has
every property of a list and an element that a choice keeps. -/
lemma foldl_choose {α : Type} {pick : Option α → α → Option α} {choose : α → α → α}
    {P : List α → α → Prop} (hnone : ∀ a, pick none a = some a)
    (hsome : ∀ a b, pick (some b) a = some (choose b a)) (hone : ∀ a, P [a] a)
    (hstep : ∀ l a b, P l a → P (l ++ [b]) (choose a b)) (a : α) (l : List α) :
    ∃ b, (a :: l).foldl pick none = some b ∧ P (a :: l) b := by
  induction l using reverseRecOn with
  | nil => exact ⟨a, hnone a, hone a⟩
  | append_singleton l c ih =>
    obtain ⟨b, hfold, hb⟩ := ih
    refine ⟨choose b c, ?_, hstep _ b c hb⟩
    rw [← cons_append, foldl_append, hfold, foldl_cons, foldl_nil, hsome]

section PickGreater

variable {α : Type} (cmp : α → α → Ordering)

/-- Keeps the earlier of two equal elements. -/
def pickGreater (best : Option α) (a : α) : Option α :=
  match best with
  | none => some a
  | some b => if cmp a b = .gt then some a else some b

/-- The first of the greatest elements. -/
def FirstGreatest (l : List α) (a : α) : Prop :=
  ∃ before after, l = before ++ a :: after ∧ (∀ b ∈ before, cmp b a = .lt) ∧
    ∀ b ∈ after, (cmp b a).isLE = true

variable {cmp} {l : List α} {a b : α}

lemma FirstGreatest.isLE [Std.ReflCmp cmp] (h : FirstGreatest cmp l a) (hb : b ∈ l) :
    (cmp b a).isLE = true := by
  obtain ⟨before, after, rfl, hbefore, hafter⟩ := h
  rcases mem_append.mp hb with hb | hb
  · rw [hbefore b hb]
    rfl
  · rcases mem_cons.mp hb with rfl | hb
    · have hrefl : cmp b b = .eq := Std.ReflCmp.compare_self
      rw [hrefl]
      rfl
    · exact hafter b hb

lemma FirstGreatest.firstIn [Std.OrientedCmp cmp] (h : FirstGreatest cmp l a) :
    FirstIn l (fun a => ∀ b ∈ l, cmp b a ≠ .gt) a := by
  have hle : ∀ b ∈ l, cmp b a ≠ .gt := fun b hb => Ordering.ne_gt_iff_isLE.mpr (h.isLE hb)
  obtain ⟨before, after, rfl, hbefore, -⟩ := h
  refine ⟨before, after, rfl, hle, fun b hb hmax => ?_⟩
  exact hmax a (by simp) (Std.OrientedCmp.gt_iff_lt.mpr (hbefore b hb))

lemma FirstGreatest.concat [Std.TransCmp cmp] (h : FirstGreatest cmp l a) (b : α) :
    FirstGreatest cmp (l ++ [b]) (if cmp b a = .gt then b else a) := by
  split_ifs with hb
  · have hlt : cmp a b = .lt := Std.OrientedCmp.gt_iff_lt.mp hb
    exact ⟨l, [], rfl, fun c hc => Std.TransCmp.lt_of_isLE_of_lt (h.isLE hc) hlt, by simp⟩
  · obtain ⟨before, after, rfl, hbefore, hafter⟩ := h
    refine ⟨before, after ++ [b], by simp, hbefore, fun c hc => ?_⟩
    rcases mem_append.mp hc with hc | hc
    · exact hafter c hc
    · rw [mem_singleton.mp hc]
      exact Ordering.ne_gt_iff_isLE.mp hb

lemma foldl_pickGreater [Std.TransCmp cmp] (a : α) (l : List α) :
    ∃ b, (a :: l).foldl (pickGreater cmp) none = some b ∧ FirstGreatest cmp (a :: l) b :=
  foldl_choose (fun _ => rfl) (fun _ _ => (apply_ite some _ _ _).symm)
    (fun _ => ⟨[], [], rfl, by simp, by simp⟩) (fun _ _ b h => h.concat b) a l

end PickGreater

section PickLast

variable {α : Type} (cmp : α → α → Ordering)

/-- Keeps the later of two equal elements. -/
def pickLast (best : Option α) (a : α) : Option α :=
  match best with
  | none => some a
  | some b => if cmp a b = .lt then some b else some a

/-- An element of the list than which none is greater. -/
structure Greatest (l : List α) (a : α) : Prop where
  mem : a ∈ l
  ne_gt : ∀ b ∈ l, cmp b a ≠ .gt

variable {cmp} {l : List α} {a b : α}

lemma Greatest.singleton [Std.ReflCmp cmp] (a : α) : Greatest cmp [a] a := by
  have hrefl : cmp a a = .eq := Std.ReflCmp.compare_self
  refine ⟨mem_singleton_self a, ?_⟩
  rw [forall_mem_singleton, hrefl]
  nofun

lemma Greatest.concat [Std.TransCmp cmp] (h : Greatest cmp l a) (b : α) :
    Greatest cmp (l ++ [b]) (if cmp b a = .lt then a else b) := by
  split_ifs with hb
  · refine ⟨mem_append_left _ h.mem, forall_mem_append.mpr ⟨h.ne_gt, ?_⟩⟩
    rw [forall_mem_singleton, hb]
    nofun
  · have hself : Greatest cmp [b] b := .singleton b
    refine ⟨mem_append_right _ hself.mem,
      forall_mem_append.mpr ⟨fun c hc => ?_, hself.ne_gt⟩⟩
    have hab : (cmp a b).isLE = true :=
      Ordering.ne_gt_iff_isLE.mp fun hgt => hb (Std.OrientedCmp.gt_iff_lt.mp hgt)
    exact Ordering.ne_gt_iff_isLE.mpr
      (Std.TransCmp.isLE_trans (Ordering.ne_gt_iff_isLE.mp (h.ne_gt c hc)) hab)

lemma foldl_pickLast [Std.TransCmp cmp] (a : α) (l : List α) :
    ∃ b, (a :: l).foldl (pickLast cmp) none = some b ∧ Greatest cmp (a :: l) b :=
  foldl_choose (fun _ => rfl) (fun _ _ => (apply_ite some _ _ _).symm) Greatest.singleton
    (fun _ _ b h => h.concat b) a l

end PickLast

/-! ### Two choices for each element -/

/-- Two partial choices that are defined alike give a part of the same list exactly where they
agree. -/
lemma filterMap_initial_iff {α β : Type} {f g : α → Option β} {part l : List α} (hpart : part <+: l)
    (hsome : ∀ a ∈ l, (f a).isSome = (g a).isSome) :
    part.filterMap f <+: l.filterMap g ↔ ∀ a ∈ part, f a = g a := by
  obtain ⟨rest, rfl⟩ := hpart
  induction part with
  | nil => simp
  | cons a part ih =>
    rw [cons_append, forall_mem_cons] at hsome
    have ih := ih hsome.2
    cases hf : f a with
    | none =>
      have hg : g a = none := by simpa [hf] using hsome.1
      simpa [hf, hg] using ih
    | some b =>
      obtain ⟨c, hg⟩ : ∃ c, g a = some c := by
        simpa [hf, Option.isSome_iff_exists] using hsome.1.symm
      simpa [hf, hg, cons_prefix_cons] using fun _ => ih

/-- Two flat maps, one of them longer everywhere, agree only where the functions do. -/
lemma flatMap_eq_flatMap_iff {α β : Type} {f g : α → List β} {l : List α}
    (hle : ∀ a, (f a).length ≤ (g a).length) :
    l.flatMap f = l.flatMap g ↔ ∀ a ∈ l, f a = g a := by
  refine ⟨fun h => ?_, flatMap_congr⟩
  induction l with
  | nil => nofun
  | cons a l ih =>
    have hrest : (l.flatMap f).length ≤ (l.flatMap g).length := by
      simp only [length_flatMap]
      exact sum_le_sum fun a _ => hle a
    rw [flatMap_cons, flatMap_cons] at h
    have hlen := congrArg length h
    rw [length_append, length_append] at hlen
    have ha := hle a
    obtain ⟨heq, htail⟩ := append_inj h (by omega)
    exact forall_mem_cons.mpr ⟨heq, ih htail⟩

/-! ### Positions among the chosen -/

section Positions

variable {α β : Type} {f : α → Option β} {l : List α} {k : Nat}

/-- How many elements are chosen. -/
def chosen (f : α → Option β) (l : List α) : Nat :=
  (l.filterMap f).length

lemma chosen_le_length (f : α → Option β) (l : List α) : chosen f l ≤ l.length :=
  length_filterMap_le f l

lemma getElem?_filterMap_eq_some_iff {b : β} : (l.filterMap f)[k]? = some b ↔
    ∃ j a, l[j]? = some a ∧ f a = some b ∧ chosen f (l.take j) = k := by
  induction l generalizing k with
  | nil => simp
  | cons a l ih =>
    have hcons : (∃ j a', (a :: l)[j]? = some a' ∧ f a' = some b ∧
        chosen f ((a :: l).take j) = k) ↔ (f a = some b ∧ k = 0) ∨
        ∃ j a', l[j]? = some a' ∧ f a' = some b ∧ chosen f (a :: l.take j) = k := by
      constructor
      · rintro ⟨_ | j, a', ha', hb, hk⟩
        · obtain rfl : a = a' := by simpa using ha'
          exact .inl ⟨hb, hk.symm⟩
        · exact .inr ⟨j, a', by simpa using ha', hb, hk⟩
      · rintro (⟨hb, rfl⟩ | ⟨j, a', ha', hb, hk⟩)
        · exact ⟨0, a, rfl, hb, rfl⟩
        · exact ⟨j + 1, a', by simpa using ha', hb, hk⟩
    rw [hcons]
    cases ha : f a with
    | none =>
      rw [filterMap_cons_none ha, ih]
      simp [chosen, filterMap_cons_none ha]
    | some b' =>
      rw [filterMap_cons_some ha]
      cases k with
      | zero => simp [chosen, filterMap_cons_some ha]
      | succ k => simp [chosen, filterMap_cons_some ha, ih]

/-- What is chosen of the element at a position stands at that position among the chosen: all up to
there are chosen, or nothing is at either place, or the same element comes again at the right place.
-/
def Stays (f : α → Option β) (l : List α) (k : Nat) : Prop :=
  (∀ a ∈ l.take (k + 1), (f a).isSome) ∨
    (chosen f l ≤ k ∧ ∀ a, l[k]? = some a → f a = none) ∨
    ∃ j a, k < j ∧ l[k]? = some a ∧ l[j]? = some a ∧ (f a).isSome ∧ chosen f (l.take j) = k

lemma chosen_eq_length (h : ∀ a ∈ l, (f a).isSome) : chosen f l = l.length := by
  induction l with
  | nil => rfl
  | cons a l ih =>
    obtain ⟨b, hb⟩ := Option.isSome_iff_exists.mp (h a mem_cons_self)
    have hl := ih fun a' ha' => h a' (mem_cons_of_mem a ha')
    rw [chosen, filterMap_cons_some hb, length_cons, length_cons, ← hl, chosen]

lemma isSome_of_chosen_eq_length (h : chosen f l = l.length) : ∀ a ∈ l, (f a).isSome := by
  induction l with
  | nil => nofun
  | cons a l ih =>
    cases hb : f a with
    | none =>
      rw [chosen, filterMap_cons_none hb, length_cons] at h
      have := chosen_le_length f l
      rw [chosen] at this
      omega
    | some b =>
      rw [chosen, filterMap_cons_some hb, length_cons, length_cons] at h
      exact forall_mem_cons.mpr ⟨by rw [hb]; rfl, ih (by rw [chosen]; omega)⟩

/-- Choosing keeps the element at a position there exactly if the element stays. -/
lemma getElem?_filterMap_eq_iff (hinj : ∀ a a' b, f a = some b → f a' = some b → a = a') :
    (l.filterMap f)[k]? = l[k]?.bind f ↔ Stays f l k := by
  constructor
  · intro h
    cases hb : l[k]?.bind f with
    | none =>
      rw [hb, getElem?_eq_none_iff] at h
      refine .inr (.inl ⟨h, fun a ha => ?_⟩)
      rwa [ha] at hb
    | some b =>
      obtain ⟨a, ha, hab⟩ := Option.bind_eq_some_iff.mp hb
      obtain ⟨j, a', ha', hab', hj⟩ := getElem?_filterMap_eq_some_iff.mp (h.trans hb)
      obtain rfl := hinj a a' b hab hab'
      have hle : k ≤ j := hj ▸ (chosen_le_length f _).trans (length_take_le j l)
      rcases hle.eq_or_lt with rfl | hlt
      · -- nothing is left out before the element
        have hk : k < l.length := (List.getElem?_eq_some_iff.mp ha).1
        have hall := isSome_of_chosen_eq_length
          (hj.trans (length_take_of_le hk.le).symm)
        refine .inl fun a' ha' => ?_
        rw [take_add_one, ha] at ha'
        rcases mem_append.mp ha' with ha' | ha'
        · exact hall a' ha'
        · obtain rfl : a' = a := by simpa using ha'
          rw [hab]
          rfl
      · exact .inr (.inr ⟨j, a, hlt, ha, ha', by rw [hab]; rfl, hj⟩)
  · rintro (h | ⟨hle, h⟩ | ⟨j, a, -, ha, ha', hsome, hj⟩)
    · cases ha : l[k]? with
      | none =>
        have hk : l.length ≤ k := getElem?_eq_none_iff.mp ha
        exact getElem?_eq_none ((chosen_le_length f l).trans hk)
      | some a =>
        have hk : k < l.length := (List.getElem?_eq_some_iff.mp ha).1
        have htake : l.take (k + 1) = l.take k ++ [a] := by rw [take_add_one, ha]; rfl
        rw [htake] at h
        obtain ⟨b, hb⟩ := Option.isSome_iff_exists.mp (h a (by simp))
        have hchosen : chosen f (l.take k) = k := by
          rw [chosen_eq_length fun a' ha' => h a' (mem_append_left _ ha'),
            length_take_of_le hk.le]
        exact (getElem?_filterMap_eq_some_iff.mpr ⟨k, a, ha, hb, hchosen⟩).trans hb.symm
    · rw [getElem?_eq_none hle]
      cases ha : l[k]? with
      | none => rfl
      | some a => exact (h a ha).symm
    · obtain ⟨b, hb⟩ := Option.isSome_iff_exists.mp hsome
      rw [ha]
      exact (getElem?_filterMap_eq_some_iff.mpr ⟨j, a, ha', hb, hj⟩).trans hb.symm

end Positions

/-! ### The last assignment -/

/-- A fold that assigns ends with the last value assigned. -/
lemma get_foldl_eq {σ α β γ : Type} {f : σ → α → σ} {get : σ → β} {assigns : α → Option γ}
    {value : γ → β} (h : ∀ x a, get (f x a) = ((assigns a).map value).getD (get x)) (l : List α)
    (x : σ) : get (l.foldl f x) = ((l.filterMap assigns).getLast?.map value).getD (get x) := by
  induction l generalizing x with
  | nil => rfl
  | cons a l ih =>
    rw [foldl_cons, ih, h]
    cases ha : assigns a with
    | none => rw [filterMap_cons_none ha]; rfl
    | some c =>
      rw [filterMap_cons_some ha, getLast?_cons]
      cases (l.filterMap assigns).getLast? <;> rfl
