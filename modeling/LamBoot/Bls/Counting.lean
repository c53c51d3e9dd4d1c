import LamBoot.Bls.Entry
import LamBoot.Library.Digits

/-!
# Boot counting

`decrement_boot_count` of `bls.rs` counts in the names of entry files, `<base>+<left>-<done>.conf`.
-/

namespace LamBoot

open List Text Option

/-! ### Counted names -/

/-- The name of a counted entry file. -/
structure CountedName where
  base : Text
  left : Digits
  done : Option Digits

namespace CountedName

variable (c : CountedName)

def counter : Text :=
  match c.done with
  | some done => c.left.text ++ '-' :: done.text
  | none => c.left.text

def filename : Text :=
  c.base ++ '+' :: c.counter ++ ".conf"

def doneValue : Nat :=
  match c.done with
  | some done => done.value
  | none => 0

def dashDigits (s : Text) : Nat :=
  match rsplitOnce '-' s with
  | some (_, after) => (after.takeWhile Char.isDigit).length
  | none => 0

def doneWidth : Nat :=
  match c.done with
  | some done => done.length
  | none => dashDigits c.base

variable {c}

lemma exists_getLast?_counter : ∃ d : Digits, c.counter.getLast? = d.text.getLast? := by
  unfold counter
  cases c.done with
  | none => exact ⟨c.left, rfl⟩
  | some done =>
    refine ⟨done, ?_⟩
    dsimp only
    rw [getLast?_append_of_ne_nil _ (cons_ne_nil _ _),
      getLast?_cons_of_ne_nil done.ne_nil]

lemma not_mem_counter {ch : Char} (hdigit : ch.isDigit = false) (hdash : ch ≠ '-') :
    ch ∉ c.counter := by
  unfold counter
  cases c.done with
  | none => exact c.left.not_mem hdigit
  | some done =>
    simp only [mem_append, mem_cons, not_or]
    exact ⟨c.left.not_mem hdigit, hdash, done.not_mem hdigit⟩

lemma trimEndMatches_filename (c : CountedName) :
    trimEndMatches ".conf" c.filename = c.base ++ '+' :: c.counter := by
  refine trimEndMatches_append (by decide) fun hsuffix => ?_
  obtain ⟨d, hd⟩ := exists_getLast?_counter (c := c)
  obtain ⟨before, hbefore⟩ := hsuffix
  have hcounter : c.counter ≠ [] := by
    intro hnil
    rw [hnil, getLast?_nil, eq_comm, getLast?_eq_none_iff] at hd
    exact d.ne_nil hd
  have hlast : some 'f' = c.counter.getLast? := by
    have h := congrArg getLast? hbefore
    rw [getLast?_append_of_ne_nil _ (by decide),
      getLast?_append_of_ne_nil _ (cons_ne_nil _ _),
      getLast?_cons_of_ne_nil hcounter] at h
    exact h
  rw [hd] at hlast
  have hdigit := d.isDigit 'f' (mem_of_getLast? hlast.symm)
  exact absurd hdigit (by decide)

lemma rsplitOnce_plus (c : CountedName) :
    rsplitOnce '+' (c.base ++ '+' :: c.counter) = some (c.base, c.counter) :=
  rsplitOnce_eq_some_iff.mpr ⟨rfl, not_mem_counter rfl (by decide)⟩

/-! ### Reading a name -/

def readU32 (d : Digits) : Option UInt32 :=
  if d.value < 2 ^ 32 then some (UInt32.ofNat d.value) else none

lemma readU32_of_lt {d : Digits} (h : d.value < 2 ^ 32) :
    readU32 d = some (UInt32.ofNat d.value) :=
  if_pos h

lemma readU32_of_not_lt {d : Digits} (h : ¬ d.value < 2 ^ 32) : readU32 d = none :=
  if_neg h

lemma parseU32_digits (d : Digits) : parseU32 d.text = readU32 d := by
  rw [parseU32, d.parseUnsigned_eq, readU32]
  split_ifs <;> rfl

def readDone (c : CountedName) : Option UInt32 :=
  match c.done with
  | some done => readU32 done
  | none => some 0

lemma ofFilename_eq (c : CountedName) :
    BlsEntry.ofFilename c.filename =
      { id := c.base, filename := c.filename, triesLeft := readU32 c.left,
        triesDone := c.readDone } := by
  rw [BlsEntry.ofFilename]
  simp only [trimEndMatches_filename, rsplitOnce_plus]
  unfold counter readDone
  cases c.done with
  | none =>
    simp only [splitOnce_eq_none_iff.mpr (c.left.not_mem (c := '-') rfl), parseU32_digits]
  | some done =>
    have hsplit : splitOnce '-' (c.left.text ++ '-' :: done.text) =
        some (c.left.text, done.text) :=
      splitOnce_eq_some_iff.mpr ⟨rfl, c.left.not_mem rfl⟩
    simp only [hsplit, parseU32_digits]

lemma countDigits_plus (c : CountedName) :
    countDigitsInFilename c.filename '+' = c.left.length := by
  have htake : c.counter.takeWhile Char.isDigit = c.left.text := by
    unfold counter
    cases c.done with
    | none => simpa using c.left.takeWhile_append (s := []) (by simp)
    | some done =>
      refine c.left.takeWhile_append ?_
      rintro _ ⟨⟩
      rfl
  simp only [countDigitsInFilename, trimEndMatches_filename, rsplitOnce_plus, htake]
  rfl

lemma length_takeWhile_plus (s t : Text) :
    ((s ++ '+' :: t).takeWhile Char.isDigit).length = (s.takeWhile Char.isDigit).length := by
  rw [takeWhile_append]
  split_ifs with h
  · rw [takeWhile_cons_of_neg (by decide), append_nil, h]
  · rfl

lemma countDigits_dash (c : CountedName) :
    countDigitsInFilename c.filename '-' = c.doneWidth := by
  simp only [countDigitsInFilename, trimEndMatches_filename]
  unfold counter doneWidth dashDigits
  cases c.done with
  | some done =>
    have hsplit : rsplitOnce '-' (c.base ++ '+' :: (c.left.text ++ '-' :: done.text)) =
        some (c.base ++ '+' :: c.left.text, done.text) :=
      rsplitOnce_eq_some_iff.mpr ⟨by simp, done.not_mem rfl⟩
    have htake := done.takeWhile_append (s := []) (by simp)
    rw [append_nil] at htake
    simp only [hsplit, htake]
    rfl
  | none =>
    cases hbase : rsplitOnce '-' c.base with
    | none =>
      have hsplit : rsplitOnce '-' (c.base ++ '+' :: c.left.text) = none := by
        rw [rsplitOnce_eq_none_iff] at hbase ⊢
        simp [hbase, c.left.not_mem (c := '-') rfl]
      simp only [hsplit]
    | some parts =>
      obtain ⟨before, after⟩ := parts
      obtain ⟨heq, hafter⟩ := rsplitOnce_eq_some_iff.mp hbase
      have hsplit : rsplitOnce '-' (c.base ++ '+' :: c.left.text) =
          some (before, after ++ '+' :: c.left.text) := by
        refine rsplitOnce_eq_some_iff.mpr ⟨by simp [heq], ?_⟩
        simp [hafter, c.left.not_mem (c := '-') rfl]
      simp only [hsplit]
      exact length_takeWhile_plus after c.left.text

/-! ### The next name -/

def next (c : CountedName) : CountedName where
  base := c.base
  left := .padded c.left.length (c.left.value - 1)
  done :=
    if 0 < c.doneWidth then
      some (.padded c.doneWidth (min (2 ^ 32 - 1) ((c.readDone.getD 0).toNat + 1)))
    else none

variable {c : CountedName}

lemma decrementedFilename_eq {e : BlsEntry} (h : e.NamedBy c.filename) :
    e.decrementedFilename =
      if 0 < c.left.value ∧ c.left.value < 2 ^ 32 then some c.next.filename else none := by
  have hleft := c.left.length_pos
  obtain ⟨hid, hname, htriesLeft, htriesDone⟩ := h
  rw [ofFilename_eq] at hid htriesLeft htriesDone
  unfold BlsEntry.decrementedFilename
  rw [htriesLeft, hid, hname, htriesDone, countDigits_plus, countDigits_dash]
  by_cases hfits : c.left.value < 2 ^ 32
  · have hnat : (UInt32.ofNat c.left.value).toNat = c.left.value := UInt32.toNat_ofNat_of_lt' hfits
    rw [readU32_of_lt hfits]
    dsimp only
    by_cases hpos : 0 < c.left.value
    · have hne : UInt32.ofNat c.left.value ≠ 0 := by
        intro h
        rw [h] at hnat
        simp only [UInt32.toNat_zero] at hnat
        omega
      rw [if_neg hne, if_pos (And.intro hpos hfits), hnat, Nat.max_eq_left hleft]
      by_cases hwidth : 0 < c.doneWidth
      · rw [if_pos hwidth, Nat.max_eq_left hwidth]
        simp [next, filename, counter, hwidth, Digits.padded, padZeros]
      · simp [next, filename, counter, hwidth, Digits.padded, padZeros]
    · have hzero : c.left.value = 0 := by omega
      simp [hzero]
  · rw [readU32_of_not_lt hfits, if_neg fun h => hfits h.2]

@[simp] lemma next_left_value (c : CountedName) : c.next.left.value = c.left.value - 1 :=
  Digits.value_padded _ _

lemma next_done_of_width (h : 0 < c.doneWidth) :
    c.next.done =
      some (.padded c.doneWidth (min (2 ^ 32 - 1) ((c.readDone.getD 0).toNat + 1))) :=
  if_pos h

lemma next_done_of_no_width (h : ¬ 0 < c.doneWidth) : c.next.done = none :=
  if_neg h

lemma readDone_of_lt (h : c.doneValue < 2 ^ 32) :
    c.readDone = some (UInt32.ofNat c.doneValue) := by
  unfold readDone
  unfold doneValue at h ⊢
  cases hdone : c.done with
  | none => rfl
  | some done =>
    simp only [hdone] at h
    exact readU32_of_lt h

lemma next_doneValue (hwidth : 0 < c.doneWidth)
    (hfits : c.doneValue + 1 < 2 ^ 32) :
    c.next.doneValue = c.doneValue + 1 ∧ 0 < c.next.doneWidth := by
  have hread := readDone_of_lt (c := c) (by omega)
  have hnat : (UInt32.ofNat c.doneValue).toNat = c.doneValue :=
    UInt32.toNat_ofNat_of_lt' (show c.doneValue < 2 ^ 32 by omega)
  constructor
  · rw [doneValue, next_done_of_width hwidth, hread]
    simp only [Digits.value_padded, getD_some, hnat]
    omega
  · rw [doneWidth, next_done_of_width hwidth]
    exact Digits.length_pos _

end CountedName

/-! ### Counting down -/

/-- The contents of an entry file that names something to boot. -/
structure BootableContent where
  text : Text
  boots : ∀ name, (BlsEntry.parse name text).isSome

def BootableContent.entryOf (content : BootableContent) (name : Text) : BlsEntry :=
  (BlsEntry.parse name content.text).get (content.boots name)

lemma BootableContent.namedBy_entryOf (content : BootableContent) (name : Text) :
    (content.entryOf name).NamedBy name :=
  BlsEntry.parse_namedBy (some_get (content.boots name)).symm

def decrementTimes (content : BootableContent) : Nat → Text → Option Text
  | 0, name => some name
  | k + 1, name => (content.entryOf name).decrementedFilename.bind (decrementTimes content k)

/-- A file of a counted name is read with an id and two counts. -/
structure ReadsAs (content : BootableContent) (c : CountedName) (id : Text) (left done : Nat) :
    Prop where
  id : (content.entryOf c.filename).id = id
  left : (content.entryOf c.filename).triesLeft.map UInt32.toNat = some left
  done : (content.entryOf c.filename).triesDone.map UInt32.toNat = some done

/-- One decrement takes one try from those left to those done, and makes no number narrower. -/
def Decrements (content : BootableContent) (c : CountedName) : Prop :=
  ∃ c' : CountedName, (content.entryOf c.filename).decrementedFilename = some c'.filename ∧
    ReadsAs content c' (content.entryOf c.filename).id (c.left.value - 1) (c.doneValue + 1) ∧
    c.left.length ≤ c'.left.length ∧
    ∀ done ∈ c.done, ∃ done' ∈ c'.done, done.length ≤ done'.length

/-- The tries are used up after as many decrements as there are tries left. -/
structure CountsDown (content : BootableContent) (c : CountedName) : Prop where
  run : ∀ k ≤ c.left.value, ∃ c' : CountedName,
    decrementTimes content k c.filename = some c'.filename ∧
      ReadsAs content c' (content.entryOf c.filename).id (c.left.value - k) (c.doneValue + k)
  ends : decrementTimes content (c.left.value + 1) c.filename = none

section CountsDown

variable (content : BootableContent) {c : CountedName}

lemma readsAs_of_fits (hleft : c.left.value < 2 ^ 32) (hdone : c.doneValue < 2 ^ 32) :
    ReadsAs content c c.base c.left.value c.doneValue := by
  have hnamed := content.namedBy_entryOf c.filename
  refine ⟨?_, ?_, ?_⟩
  · rw [hnamed.id, c.ofFilename_eq]
  · rw [hnamed.triesLeft, c.ofFilename_eq]
    simp only [CountedName.readU32_of_lt hleft, map_some]
    rw [UInt32.toNat_ofNat_of_lt' hleft]
  · rw [hnamed.triesDone, c.ofFilename_eq]
    simp only [CountedName.readDone_of_lt hdone, map_some]
    rw [UInt32.toNat_ofNat_of_lt' hdone]

lemma id_entryOf : (content.entryOf c.filename).id = c.base := by
  rw [(content.namedBy_entryOf c.filename).id, c.ofFilename_eq]

lemma decrementedFilename_entryOf :
    (content.entryOf c.filename).decrementedFilename =
      if 0 < c.left.value ∧ c.left.value < 2 ^ 32 then some c.next.filename else none :=
  CountedName.decrementedFilename_eq (content.namedBy_entryOf c.filename)

lemma fits_of_triesDone_next
    (hread : (content.entryOf c.next.filename).triesDone.map UInt32.toNat =
      some (c.doneValue + 1)) :
    c.doneValue + 1 < 2 ^ 32 ∧ 0 < c.doneWidth := by
  constructor
  · obtain ⟨done, -, hdone⟩ := map_eq_some_iff.mp hread
    rw [← hdone]
    exact done.toNat_lt
  · by_contra hwidth
    rw [(content.namedBy_entryOf _).triesDone, CountedName.ofFilename_eq] at hread
    simp [CountedName.readDone, CountedName.next_done_of_no_width hwidth] at hread

lemma decrements_iff (hpos : 1 ≤ c.left.value) :
    Decrements content c ↔
      c.left.value < 2 ^ 32 ∧ c.doneValue + 1 < 2 ^ 32 ∧ 0 < c.doneWidth := by
  constructor
  · rintro ⟨c', hname, hread, -⟩
    rw [decrementedFilename_entryOf] at hname
    split_ifs at hname with hfits
    have hdone := hread.done
    rw [← some.inj hname] at hdone
    exact ⟨hfits.2, fits_of_triesDone_next content hdone⟩
  · rintro ⟨hleft, hdone, hwidth⟩
    obtain ⟨hnext, -⟩ := CountedName.next_doneValue hwidth hdone
    have hread : ReadsAs content c.next c.next.base c.next.left.value c.next.doneValue := by
      refine readsAs_of_fits content ?_ (by omega)
      rw [c.next_left_value]
      omega
    rw [c.next_left_value, hnext] at hread
    refine ⟨c.next, ?_, ?_, Digits.le_length_padded _ _, fun done hmem => ?_⟩
    · rw [decrementedFilename_entryOf, if_pos ⟨hpos, hleft⟩]
    · rw [id_entryOf]
      exact hread
    · refine ⟨_, CountedName.next_done_of_width hwidth, ?_⟩
      have hlength : c.doneWidth = done.length := by
        rw [CountedName.doneWidth, mem_def.mp hmem]
      exact hlength ▸ Digits.le_length_padded _ _

lemma decrementTimes_eq {k : Nat} (hk : k ≤ c.left.value) (hleft : c.left.value < 2 ^ 32)
    (hdone : c.doneValue + k < 2 ^ 32) (hwidth : 0 < c.doneWidth) :
    ∃ c' : CountedName, decrementTimes content k c.filename = some c'.filename ∧
      c'.base = c.base ∧ c'.left.value = c.left.value - k ∧ c'.doneValue = c.doneValue + k := by
  induction k generalizing c with
  | zero => exact ⟨c, rfl, rfl, rfl, rfl⟩
  | succ k ih =>
    obtain ⟨hnext, hwidth'⟩ := CountedName.next_doneValue (c := c) hwidth (by omega)
    obtain ⟨c', hname, hbase, hleft', hdone'⟩ := ih (c := c.next)
      (by rw [c.next_left_value]; omega) (by rw [c.next_left_value]; omega)
      (by omega) hwidth'
    refine ⟨c', ?_, hbase, ?_, ?_⟩
    · rw [decrementTimes, decrementedFilename_entryOf, if_pos (by omega)]
      exact hname
    · rw [hleft', c.next_left_value]
      omega
    · omega

lemma decrementTimes_succ (k : Nat) (name : Text) :
    decrementTimes content (k + 1) name =
      (decrementTimes content k name).bind fun name' =>
        (content.entryOf name').decrementedFilename := by
  induction k generalizing name with
  | zero => simp [decrementTimes]
  | succ k ih =>
    cases hname : (content.entryOf name).decrementedFilename with
    | none => simp [decrementTimes, hname]
    | some name' =>
      have hstep (j : Nat) :
          decrementTimes content (j + 1) name = decrementTimes content j name' := by
        rw [decrementTimes, hname, bind_some]
      rw [hstep (k + 1), ih, hstep k]

lemma countsDown_iff (hpos : 1 ≤ c.left.value) :
    CountsDown content c ↔
      c.left.value < 2 ^ 32 ∧ c.doneValue + c.left.value < 2 ^ 32 ∧ 0 < c.doneWidth := by
  constructor
  · intro h
    obtain ⟨c₁, hname, hread⟩ := h.run 1 hpos
    obtain ⟨cₙ, -, hreadₙ⟩ := h.run c.left.value le_rfl
    have hname₁ : (content.entryOf c.filename).decrementedFilename = some c₁.filename := by
      simpa [decrementTimes] using hname
    rw [decrementedFilename_entryOf] at hname₁
    split_ifs at hname₁ with hfits
    have hdone := hread.done
    rw [← some.inj hname₁] at hdone
    refine ⟨hfits.2, ?_, (fits_of_triesDone_next content hdone).2⟩
    obtain ⟨done, -, hdoneₙ⟩ := map_eq_some_iff.mp hreadₙ.done
    rw [← hdoneₙ]
    exact done.toNat_lt
  · rintro ⟨hleft, hdone, hwidth⟩
    constructor
    · intro k hk
      obtain ⟨c', hname, hbase, hleft', hdone'⟩ :=
        decrementTimes_eq content hk hleft (by omega) hwidth
      have hread := readsAs_of_fits content (c := c') (by omega) (by omega)
      rw [hbase, hleft', hdone'] at hread
      refine ⟨c', hname, ?_⟩
      rw [id_entryOf]
      exact hread
    · obtain ⟨c', hname, -, hleft', -⟩ :=
        decrementTimes_eq content le_rfl hleft hdone hwidth
      rw [decrementTimes_succ, hname, bind_some, decrementedFilename_entryOf,
        if_neg (by omega)]

end CountsDown

/-- Boot counting works exactly where the numbers fit into 32 bits and the name has digits after its
last dash: those of the tries done, or, without them, digits of the base. -/
theorem decrement_counts_iff (content : BootableContent) (c : CountedName)
    (hpos : 1 ≤ c.left.value) :
    (Decrements content c ↔
      c.left.value < 2 ^ 32 ∧ c.doneValue + 1 < 2 ^ 32 ∧ 0 < c.doneWidth) ∧
    (CountsDown content c ↔
      c.left.value < 2 ^ 32 ∧ c.doneValue + c.left.value < 2 ^ 32 ∧ 0 < c.doneWidth) :=
  ⟨decrements_iff content hpos, countsDown_iff content hpos⟩

def kernelContent : BootableContent where
  text := "linux /vmlinuz"
  boots _ := rfl

/-- With the tries done in its name, an entry is counted down. -/
theorem decrement_counts_foo_3_0 :
    CountsDown kernelContent ⟨"foo", .padded 0 3, some (.padded 0 0)⟩ :=
  (decrement_counts_iff kernelContent ⟨"foo", .padded 0 3, some (.padded 0 0)⟩
    (by decide)).2.mpr (by decide)

def fooThree : CountedName :=
  ⟨"foo", .padded 0 3, none⟩

/-- An entry with three tries, and no dash in its name, is exhausted after three decrements without
a try counted as done. -/
theorem decrement_loses_tries_done :
    fooThree.filename = "foo+3.conf" ∧
      ((range 5).map fun k => decrementTimes kernelContent k fooThree.filename) =
        [some "foo+3.conf".toList, some "foo+2.conf".toList, some "foo+1.conf".toList,
          some "foo+0.conf", none] ∧
      (kernelContent.entryOf "foo+0.conf").triesDone = some 0 ∧
      ¬ Decrements kernelContent fooThree ∧ ¬ CountsDown kernelContent fooThree := by
  have hpos : 1 ≤ fooThree.left.value := by decide
  have hwidth : ¬ 0 < fooThree.doneWidth := by decide
  refine ⟨by decide, by decide +kernel, by decide +kernel, fun h => ?_, fun h => ?_⟩
  · exact hwidth ((decrements_iff kernelContent hpos).mp h).2.2
  · exact hwidth ((countsDown_iff kernelContent hpos).mp h).2.2

end LamBoot
