import LamBoot.Discovery.Origin

/-!
# Copies of boot loader entries

`dedup_bls_entries` looks up the first entry kept under a file name, up to case, and drops an entry
that has the same content as that one.
-/

namespace LamBoot

open List Text

def BlsEntry.SameName (a b : BlsEntry) : Prop :=
  eqIgnoreAsciiCase a.filename b.filename = true

/-- The same file name, in any case of letters, and the same content. -/
def BlsEntry.CopyOf (a b : BlsEntry) : Prop :=
  a.SameName b ∧ a.sameContent b = true

namespace BlsEntry

variable {a b c : BlsEntry}

/-- What `eq` compares: all of an entry except where it was found. -/
def content (a : BlsEntry) : BlsEntry :=
  { a with sourceVolumeIndex := 0, sourceBackendTag := [] }

lemma sameContent_iff : a.sameContent b = true ↔ a.content = b.content := by
  simp only [sameContent, content, Bool.and_eq_true, beq_iff_eq, mk.injEq]
  tauto

lemma sameName_iff : a.SameName b ↔ toAsciiLowercase a.filename = toAsciiLowercase b.filename := by
  simp [SameName, eqIgnoreAsciiCase]

lemma copyOf_iff : a.CopyOf b ↔
    toAsciiLowercase a.filename = toAsciiLowercase b.filename ∧ a.content = b.content := by
  rw [CopyOf, sameName_iff, sameContent_iff]

lemma CopyOf.refl (a : BlsEntry) : a.CopyOf a :=
  copyOf_iff.mpr ⟨rfl, rfl⟩

lemma CopyOf.trans (hab : a.CopyOf b) (hbc : b.CopyOf c) : a.CopyOf c := by
  rw [copyOf_iff] at hab hbc ⊢
  exact ⟨hab.1.trans hbc.1, hab.2.trans hbc.2⟩

end BlsEntry

/-! ### One more entry -/

def firstOfName (l : List BlsEntry) (e : BlsEntry) : Option BlsEntry :=
  l.find? fun a => eqIgnoreAsciiCase a.filename e.filename

def repeatsFirst (l : List BlsEntry) (e : BlsEntry) : Bool :=
  (firstOfName l e).any (·.sameContent e)

section Concat

variable {l : List BlsEntry} {e f : BlsEntry}

lemma firstOfName_eq_some_iff : firstOfName l e = some f ↔ FirstIn l (·.SameName e) f :=
  find?_eq_some_iff_firstIn

lemma repeatsFirst_iff :
    repeatsFirst l e = true ↔ ∃ f, firstOfName l e = some f ∧ f.CopyOf e := by
  rw [repeatsFirst, Option.any_eq_true]
  refine exists_congr fun f => and_congr_right fun hf => ?_
  obtain ⟨before, after, -, hname, -⟩ := firstOfName_eq_some_iff.mp hf
  exact ⟨fun h => ⟨hname, h⟩, fun h => h.2⟩

lemma dedupBlsStep_snd (done : List TrustEvent × List BlsEntry) (e : BlsEntry) :
    (dedupBlsStep done e).2 =
      if repeatsFirst done.2 e then done.2 else done.2 ++ [e] := by
  unfold dedupBlsStep
  split
  · next h =>
    have hrepeats : repeatsFirst done.2 e = false := by
      rw [repeatsFirst, firstOfName, h]
      rfl
    rw [hrepeats]
    rfl
  · next f h =>
    have hrepeats : repeatsFirst done.2 e = f.sameContent e := by
      rw [repeatsFirst, firstOfName, h]
      rfl
    rw [hrepeats]
    split_ifs <;> rfl

lemma firstOfName_dedupBlsEntries (l : List BlsEntry) (q : BlsEntry) :
    firstOfName (dedupBlsEntries l).2 q = firstOfName l q := by
  induction l using reverseRecOn generalizing q with
  | nil => rfl
  | append_singleton l e ih =>
    rw [dedupBlsEntries, foldl_append, foldl_cons, foldl_nil, dedupBlsStep_snd, ← dedupBlsEntries]
    have happend : ∀ k : List BlsEntry,
        firstOfName (k ++ [e]) q = (firstOfName k q).or (firstOfName [e] q) := fun k =>
      find?_append
    split_ifs with h
    · -- A dropped entry has a name under which there is an entry already.
      obtain ⟨f, hf, hcopy⟩ := repeatsFirst_iff.mp h
      rw [happend, ih q]
      by_cases hq : e.SameName q
      · have hmem := (firstOfName_eq_some_iff.mp hf).mem
        have hfq : f.SameName q := by
          rw [BlsEntry.sameName_iff] at hq ⊢
          exact (BlsEntry.copyOf_iff.mp hcopy).1.trans hq
        have hsome : (firstOfName (dedupBlsEntries l).2 q).isSome = true :=
          find?_isSome.mpr ⟨f, hmem, hfq⟩
        rw [ih q] at hsome
        rw [Option.or_of_isSome hsome]
      · have hnone : firstOfName [e] q = none :=
          find?_eq_none.mpr fun a ha => mem_singleton.mp ha ▸ hq
        rw [hnone, Option.or_none]
    · rw [happend, happend, ih q]

lemma dedupBlsEntries_concat (l : List BlsEntry) (e : BlsEntry) :
    (dedupBlsEntries (l ++ [e])).2 =
      if repeatsFirst l e then (dedupBlsEntries l).2 else (dedupBlsEntries l).2 ++ [e] := by
  rw [dedupBlsEntries, foldl_append, foldl_cons, foldl_nil, dedupBlsStep_snd,
    ← dedupBlsEntries, repeatsFirst, firstOfName_dedupBlsEntries, ← repeatsFirst]

lemma dedupBlsEntries_isPrefix_append (l rest : List BlsEntry) :
    (dedupBlsEntries l).2 <+: (dedupBlsEntries (l ++ rest)).2 := by
  induction rest using reverseRecOn with
  | nil => rw [append_nil]
  | append_singleton rest e ih =>
    rw [← append_assoc, dedupBlsEntries_concat]
    split_ifs
    · exact ih
    · exact ih.trans (prefix_append _ _)

lemma exists_copyOf_mem_dedupBlsEntries {b : BlsEntry} (hb : b ∈ l) :
    ∃ k ∈ (dedupBlsEntries l).2, k.CopyOf b := by
  induction l using reverseRecOn with
  | nil => cases hb
  | append_singleton l e ih =>
    have hkept := (dedupBlsEntries_isPrefix_append l [e]).subset
    rcases mem_append.mp hb with hb | hb
    · obtain ⟨k, hk, hcopy⟩ := ih hb
      exact ⟨k, hkept hk, hcopy⟩
    · obtain rfl := mem_singleton.mp hb
      rw [dedupBlsEntries_concat]
      split_ifs with h
      · obtain ⟨f, hf, hcopy⟩ := repeatsFirst_iff.mp h
        rw [← firstOfName_dedupBlsEntries] at hf
        exact ⟨f, (firstOfName_eq_some_iff.mp hf).mem, hcopy⟩
      · exact ⟨b, by simp, BlsEntry.CopyOf.refl b⟩

end Concat

/-! ### The list kept -/

/-- The first of each class of copies is kept, so is every entry that differs from those of its name
before, in order, and no two entries are copies. -/
structure KeepsFirstCopies (entries : List BlsEntry) : Prop where
  order : (dedupBlsEntries entries).2.Sublist entries
  first : ∀ before e after, entries = before ++ e :: after → (∀ b ∈ before, ¬ b.CopyOf e) →
    e ∈ (dedupBlsEntries entries).2
  differing : ∀ before e after, entries = before ++ e :: after →
    (∀ k ∈ (dedupBlsEntries before).2, k.SameName e → k.sameContent e = false) →
      e ∈ (dedupBlsEntries entries).2
  distinct : (dedupBlsEntries entries).2.Pairwise fun a b => ¬ a.CopyOf b

/-- An entry that is a copy of an earlier one is a copy of the first entry of its name. -/
def CopiesOfFirst (entries : List BlsEntry) : Prop :=
  ∀ before e after, entries = before ++ e :: after → (∃ b ∈ before, b.CopyOf e) →
    ∃ f, FirstIn before (·.SameName e) f ∧ f.CopyOf e

lemma mem_dedupBlsEntries_of_not_repeatsFirst {before after : List BlsEntry} {e : BlsEntry}
    (h : repeatsFirst before e = false) : e ∈ (dedupBlsEntries (before ++ e :: after)).2 := by
  have hkept := dedupBlsEntries_isPrefix_append (before ++ [e]) after
  rw [append_assoc, singleton_append, dedupBlsEntries_concat, h] at hkept
  exact hkept.subset (by simp)

lemma keepsFirstCopies_iff_pairwise (entries : List BlsEntry) :
    KeepsFirstCopies entries ↔
      (dedupBlsEntries entries).2.Pairwise fun a b => ¬ a.CopyOf b := by
  refine ⟨KeepsFirstCopies.distinct, fun h => ⟨dedupBlsEntries_sublist entries, ?_, ?_, h⟩⟩
  · rintro before e after rfl hnew
    refine mem_dedupBlsEntries_of_not_repeatsFirst (Bool.eq_false_iff.mpr fun hrepeats => ?_)
    obtain ⟨f, hf, hcopy⟩ := repeatsFirst_iff.mp hrepeats
    exact hnew f (firstOfName_eq_some_iff.mp hf).mem hcopy
  · rintro before e after rfl hdiffers
    refine mem_dedupBlsEntries_of_not_repeatsFirst (Bool.eq_false_iff.mpr fun hrepeats => ?_)
    obtain ⟨f, hf, hname, hsame⟩ := repeatsFirst_iff.mp hrepeats
    rw [← firstOfName_dedupBlsEntries] at hf
    rw [hdiffers f (firstOfName_eq_some_iff.mp hf).mem hname] at hsame
    cases hsame

/-- **Copies of boot loader entries.** The list is without copies exactly if every entry that is a
copy of an earlier one is a copy of the first entry of its name. -/
theorem keepsFirstCopies_iff (entries : List BlsEntry) :
    KeepsFirstCopies entries ↔ CopiesOfFirst entries := by
  simp only [keepsFirstCopies_iff_pairwise, CopiesOfFirst, ← firstOfName_eq_some_iff,
    ← repeatsFirst_iff]
  constructor
  · rintro h before e after rfl ⟨b, hb, hcopy⟩
    by_contra hnot
    -- The entry is kept, and a copy of it was.
    obtain ⟨k, hk, hkb⟩ := exists_copyOf_mem_dedupBlsEntries hb
    have hkept := dedupBlsEntries_isPrefix_append (before ++ [e]) after
    rw [append_assoc, singleton_append, dedupBlsEntries_concat, if_neg hnot] at hkept
    have hpair := h.sublist hkept.sublist
    exact (pairwise_append.mp hpair).2.2 k hk e mem_cons_self (hkb.trans hcopy)
  · intro h
    induction entries using reverseRecOn with
    | nil => exact List.Pairwise.nil
    | append_singleton l e ih =>
      have hl := ih fun before d after heq =>
        h before d (after ++ [e]) (by rw [heq]; simp)
      rw [dedupBlsEntries_concat]
      split_ifs with hrepeats
      · exact hl
      · refine pairwise_append.mpr ⟨hl, pairwise_singleton _ _, fun k hk d hd hcopy => ?_⟩
        obtain rfl := mem_singleton.mp hd
        exact hrepeats (h l d [] rfl ⟨k, (dedupBlsEntries_sublist l).subset hk, hcopy⟩)

/-- An entry of the file `a.conf` with a kernel, on a volume. -/
def entryOfKernel (kernel : Text) (volume : Nat) : BlsEntry :=
  { id := "a", filename := "a.conf", linux := some kernel,
    sourceVolumeIndex := volume }

/-- Three volumes have a file `a.conf`; the copy of the second one is kept. -/
theorem not_keepsFirstCopies_of_later_copy :
    ¬ KeepsFirstCopies [entryOfKernel "/old" 0, entryOfKernel "/new" 1,
      entryOfKernel "/new" 2] := by
  intro h
  have hkept : (dedupBlsEntries [entryOfKernel "/old" 0, entryOfKernel "/new" 1,
      entryOfKernel "/new" 2]).2 = [entryOfKernel "/old" 0,
        entryOfKernel "/new" 1, entryOfKernel "/new" 2] := by
    decide
  have hdistinct := h.distinct
  rw [hkept] at hdistinct
  simp [BlsEntry.copyOf_iff, entryOfKernel, BlsEntry.content] at hdistinct

end LamBoot
