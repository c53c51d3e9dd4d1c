import LamBoot.Bls.Counting
import LamBoot.Bls.Written
import LamBoot.Discovery.Bls

/-!
# Names of entry files

The scanner takes any case of the extension `.conf`, but `BlsEntry::parse` removes only the lower
case one, as often as it ends the name; and what follows the last plus is taken for a counter
whether or not it is one.
-/

namespace LamBoot

open Text List

/-! ### Stems -/

def stem (filename : Text) : Text :=
  match rsplitOnce '.' filename with
  | some (before, _) => before
  | none => filename

namespace CountedName

def stem (c : CountedName) : Text :=
  c.base ++ '+' :: c.counter

def Fits (c : CountedName) : Prop :=
  c.left.value < 2 ^ 32 ∧ c.doneValue < 2 ^ 32

end CountedName

/-- The name has no counters that fit into 32 bits. -/
def Uncounted (stem : Text) : Prop :=
  ∀ c : CountedName, stem = c.stem → ¬ c.Fits

/-- The id and the counters of an entry are those of a stem: the base and the numbers of a counted
one, and otherwise the stem and none. -/
structure BlsEntry.Recovers (entry : BlsEntry) (stem : Text) : Prop where
  counted : ∀ c : CountedName, stem = c.stem → c.Fits →
    entry.id = c.base ∧ entry.triesLeft = some (UInt32.ofNat c.left.value) ∧
      entry.triesDone = some (UInt32.ofNat c.doneValue)
  uncounted : Uncounted stem →
    entry.id = stem ∧ entry.triesLeft = none ∧ entry.triesDone = none

/-- The extension is in lower case, and the stem has a counter, or neither a plus nor the ending
`.conf`. -/
def PlainConfName (filename : Text) : Prop :=
  ".conf" <:+ filename ∧
    ((∃ c : CountedName, stem filename = c.stem ∧ c.Fits) ∨
      ('+' ∉ stem filename ∧ ¬ ".conf" <:+ stem filename))

section Stem

variable {filename : Text}

lemma stem_append {s ext : Text} (hext : '.' ∉ ext) : stem (s ++ '.' :: ext) = s := by
  rw [stem, rsplitOnce_eq_some_iff.mpr ⟨rfl, hext⟩]

lemma exists_of_isConfName (h : isConfName filename = true) :
    ∃ ext, filename = stem filename ++ '.' :: ext ∧ toAsciiLowercase ext = "conf" := by
  simp only [isConfName, Bool.and_eq_true] at h
  have hext := h.1.1
  unfold hasExtensionIgnoreCase at hext
  split at hext
  · cases hext
  · next before ext hsplit =>
    refine ⟨ext, ?_, (beq_iff_eq.mp hext).trans (by decide)⟩
    rw [stem, hsplit]
    exact (rsplitOnce_eq_some_iff.mp hsplit).1

lemma not_mem_of_toAsciiLowercase {ext : Text} (hext : toAsciiLowercase ext = "conf")
    {c : Char} (hc : c.toLower ∉ "conf".toList) : c ∉ ext := by
  intro h
  exact hc (hext ▸ mem_map_of_mem h)

lemma parseU32_eq_none {s : Text} {c : Char} (hc : c ∈ s) (hdigit : c.isDigit = false)
    (hplus : c ≠ '+') : parseU32 s = none := by
  have hnot : ∀ digits : Text, c ∈ digits → ¬ (digits ≠ [] ∧ digits.all Char.isDigit = true) := by
    rintro digits hmem ⟨-, hall⟩
    rw [all_eq_true.mp hall c hmem] at hdigit
    cases hdigit
  have hmem : c ∈ (if s.head? = some '+' then s.tail else s) := by
    split_ifs with h
    · obtain ⟨t, rfl⟩ := head?_eq_some_iff.mp h
      exact (mem_cons.mp hc).resolve_left hplus
    · exact hc
  simp only [parseU32, parseUnsigned, if_neg (hnot _ hmem), Option.map_none]

end Stem

/-! ### What a name says -/

section OfFilename

lemma exists_of_append_eq_cons {s t before after : Text} {c : Char}
    (h : s ++ t = before ++ c :: after) (hc : c ∉ t) :
    ∃ rest, s = before ++ c :: rest ∧ after = rest ++ t := by
  rcases append_eq_append_cons h with h | ⟨x, -, ht⟩
  · exact h
  · exact absurd (ht ▸ by simp) hc

lemma ofFilename_of_not_suffix {s ext : Text} (hext : toAsciiLowercase ext = "conf")
    (hsuffix : ¬ ".conf" <:+ s ++ '.' :: ext) :
    (BlsEntry.ofFilename (s ++ '.' :: ext)).id ≠ s ∧
      ((BlsEntry.ofFilename (s ++ '.' :: ext)).triesLeft = none ∨
        (BlsEntry.ofFilename (s ++ '.' :: ext)).triesDone = none) := by
  have hplus : '+' ∉ '.' :: ext := by
    simpa using not_mem_of_toAsciiLowercase hext (c := '+') (by decide)
  have hdash : '-' ∉ '.' :: ext := by
    simpa using not_mem_of_toAsciiLowercase hext (c := '-') (by decide)
  simp only [BlsEntry.ofFilename, trimEndMatches_eq_self hsuffix]
  cases hsplit : rsplitOnce '+' (s ++ '.' :: ext) with
  | none => exact ⟨by simp, .inl rfl⟩
  | some parts =>
    obtain ⟨before, after⟩ := parts
    obtain ⟨rest, hs, hafter⟩ :=
      exists_of_append_eq_cons (rsplitOnce_eq_some_iff.mp hsplit).1 hplus
    have hid : before ≠ s := by
      rw [hs]
      simp
    have hdot : ∀ t : Text, parseU32 (t ++ '.' :: ext) = none := fun t =>
      parseU32_eq_none (c := '.') (by simp) rfl (by decide)
    cases hcount : splitOnce '-' after with
    | none =>
      simp only [hcount]
      refine ⟨hid, .inl ?_⟩
      rw [hafter]
      exact hdot rest
    | some numbers =>
      obtain ⟨left, done⟩ := numbers
      have heq := (splitOnce_eq_some_iff.mp hcount).1
      rw [hafter] at heq
      obtain ⟨rest', -, hdone⟩ := exists_of_append_eq_cons heq hdash
      simp only [hcount]
      refine ⟨hid, .inr ?_⟩
      rw [hdone]
      exact hdot rest'

end OfFilename

/-! ### Names and entries -/

section Recovers

variable {filename : Text} {entry : BlsEntry}

lemma eq_stem_append_of_suffix (h : ".conf" <:+ filename) :
    filename = stem filename ++ ".conf" := by
  obtain ⟨s, rfl⟩ := h
  rw [show s ++ ".conf" = s ++ '.' :: "conf" from rfl, stem_append (by decide)]
  rfl

lemma BlsEntry.Recovers.plainConfName (hname : isConfName filename = true)
    (hentry : entry.NamedBy filename) (h : entry.Recovers (stem filename)) :
    PlainConfName filename := by
  by_cases hsuffix : ".conf" <:+ filename
  · refine ⟨hsuffix, ?_⟩
    by_cases hcounted : ∃ c : CountedName, stem filename = c.stem ∧ c.Fits
    · exact .inl hcounted
    · have hplain := h.uncounted fun c hc hfits => hcounted ⟨c, hc, hfits⟩
      rw [hentry.id, hentry.triesLeft, hentry.triesDone] at hplain
      refine .inr ((BlsEntry.ofFilename_plain_iff _).mp ?_)
      rwa [← eq_stem_append_of_suffix hsuffix]
  · exfalso
    obtain ⟨ext, heq, hext⟩ := exists_of_isConfName hname
    rw [heq] at hsuffix
    have hnot := ofFilename_of_not_suffix hext hsuffix
    rw [← heq, ← hentry.id, ← hentry.triesLeft, ← hentry.triesDone] at hnot
    refine hnot.1 (h.uncounted fun c hc hfits => ?_).1
    obtain ⟨-, hleft, hdone⟩ := h.counted c hc hfits
    simp [hleft, hdone] at hnot

lemma PlainConfName.recovers (hentry : entry.NamedBy filename) (h : PlainConfName filename) :
    entry.Recovers (stem filename) := by
  obtain ⟨hsuffix, hstem⟩ := h
  have heq := eq_stem_append_of_suffix hsuffix
  have hcounted : ∀ c : CountedName, stem filename = c.stem → c.Fits →
      entry.id = c.base ∧ entry.triesLeft = some (UInt32.ofNat c.left.value) ∧
        entry.triesDone = some (UInt32.ofNat c.doneValue) := by
    intro c hc hfits
    have hfilename : filename = c.filename := by
      rw [heq, hc]
      rfl
    rw [hentry.id, hentry.triesLeft, hentry.triesDone, hfilename, CountedName.ofFilename_eq]
    refine ⟨rfl, CountedName.readU32_of_lt hfits.1, ?_⟩
    have hdone := hfits.2
    unfold CountedName.doneValue at hdone ⊢
    unfold CountedName.readDone
    cases hd : c.done with
    | none => rfl
    | some d =>
      rw [hd] at hdone
      exact CountedName.readU32_of_lt hdone
  rcases hstem with ⟨c, hc, hfits⟩ | ⟨hplus, hends⟩
  · exact ⟨hcounted, fun hnot => absurd hfits (hnot c hc)⟩
  · have hplain := (BlsEntry.ofFilename_plain_iff _).mpr ⟨hplus, hends⟩
    rw [← heq, ← hentry.id, ← hentry.triesLeft, ← hentry.triesDone] at hplain
    exact ⟨hcounted, fun _ => hplain⟩

lemma recovers_iff (hname : isConfName filename = true) (hentry : entry.NamedBy filename) :
    entry.Recovers (stem filename) ↔ PlainConfName filename :=
  ⟨BlsEntry.Recovers.plainConfName hname hentry, PlainConfName.recovers hentry⟩

end Recovers

/-- **Names of entry files.** Two entries have the ids and counters of their stems, and different
ids for different stems without counters, exactly if both names have the extension in lower case and
a stem with a counter, or with neither a plus nor the ending `.conf`. -/
theorem recovers_conf_iff (filename filename' content content' : Text) (entry entry' : BlsEntry)
    (hname : isConfName filename = true) (hname' : isConfName filename' = true)
    (hparse : BlsEntry.parse filename content = some entry)
    (hparse' : BlsEntry.parse filename' content' = some entry') :
    (entry.Recovers (stem filename) ∧ entry'.Recovers (stem filename') ∧
      (Uncounted (stem filename) → Uncounted (stem filename') → stem filename ≠ stem filename' →
        entry.id ≠ entry'.id)) ↔
      PlainConfName filename ∧ PlainConfName filename' := by
  rw [← recovers_iff hname (BlsEntry.parse_namedBy hparse),
    ← recovers_iff hname' (BlsEntry.parse_namedBy hparse')]
  constructor
  · rintro ⟨h, h', -⟩
    exact ⟨h, h'⟩
  · rintro ⟨h, h'⟩
    refine ⟨h, h', fun huncounted huncounted' hne => ?_⟩
    rw [(h.uncounted huncounted).1, (h'.uncounted huncounted').1]
    exact hne

/-- The entry with an id and counters from a file that says `linux a`. -/
def entryNamed (id filename : Text) (triesLeft triesDone : Option UInt32) : BlsEntry :=
  { id, filename, triesLeft, triesDone, linux := some "\\a" }

/-- `arch+3-1.conf` and `fedora.conf`. -/
theorem recovers_conf_of_counted_and_plain :
    (entryNamed "arch" "arch+3-1.conf" (some 3) (some 1)).Recovers
        (stem "arch+3-1.conf") ∧
      (entryNamed "fedora" "fedora.conf" none none).Recovers
        (stem "fedora.conf") := by
  have hcounted : PlainConfName "arch+3-1.conf" := by
    refine ⟨by decide, .inl ⟨⟨"arch", ⟨"3", by decide, by decide⟩,
      some ⟨"1", by decide, by decide⟩⟩, by decide, by decide, by decide⟩⟩
  have hplain : PlainConfName "fedora.conf" := ⟨by decide, .inr ⟨by decide, by decide⟩⟩
  have hboth := (recovers_conf_iff "arch+3-1.conf" "fedora.conf" "linux a"
    "linux a" (entryNamed "arch" "arch+3-1.conf" (some 3) (some 1))
    (entryNamed "fedora" "fedora.conf" none none) (by decide) (by decide) (by decide)
    (by decide)).mpr ⟨hcounted, hplain⟩
  exact ⟨hboth.1, hboth.2.1⟩

/-- A version with a plus: the id loses what follows it, and there is a counter of tries done. -/
theorem not_recovers_of_plus :
    isConfName "6.1+deb12.conf" = true ∧
    BlsEntry.parse "6.1+deb12.conf" "linux a" =
      some (entryNamed "6.1" "6.1+deb12.conf" none (some 0)) ∧
    ¬ (entryNamed "6.1" "6.1+deb12.conf" none (some 0)).Recovers
      (stem "6.1+deb12.conf") := by
  refine ⟨by decide, by decide, fun h => ?_⟩
  have huncounted : Uncounted (stem "6.1+deb12.conf") := by
    intro c hc _
    have hsplit := c.rsplitOnce_plus
    have hname : rsplitOnce '+' (stem "6.1+deb12.conf") =
        some ("6.1".toList, "deb12".toList) := by
      decide
    rw [← CountedName.stem, ← hc, hname] at hsplit
    have hcounter : "deb12" = c.counter := congrArg Prod.snd (Option.some.inj hsplit)
    have hletter : 'd' ∉ c.counter := CountedName.not_mem_counter rfl (by decide)
    rw [← hcounter] at hletter
    exact hletter (by decide)
  have hid := (h.uncounted huncounted).1
  exact absurd hid (by decide)

end LamBoot
