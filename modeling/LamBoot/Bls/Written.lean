import LamBoot.Bls.Entry
import LamBoot.Library.Words

/-!
# Reading a written entry back

What the parser of entry files makes of lines that a tool wrote as a key, some blanks and a value:
the value without white space around it, if anything of it remains. The fields of an entry depend
on the lines with their own key alone.
-/

namespace LamBoot.BlsEntry

open List Text Option

/-! ### Lines -/

lemma readLine_nil (e : BlsEntry) : e.readLine [] = e := rfl

lemma readLine_stripCr (e : BlsEntry) (line : Text) :
    e.readLine (stripCr line) = e.readLine line := by
  unfold stripCr
  split_ifs with h
  · have hline : line = line.dropLast ++ ['\r'] :=
      (dropLast_append_getLast? _ h).symm
    have htrim : trim line.dropLast = trim line := by
      conv_rhs => rw [hline]
      exact (trimBy_append_right (by decide)).symm
    unfold readLine
    rw [htrim]
  · rfl

def textOf (ls : List Text) : Text :=
  ls.flatMap (· ++ ['\n'])

lemma splitOn_textOf {ls : List Text} (h : ∀ line ∈ ls, '\n' ∉ line) :
    (textOf ls).splitOn '\n' = ls ++ [[]] := by
  induction ls with
  | nil => rfl
  | cons line ls ih =>
    rw [forall_mem_cons] at h
    have hsplit : textOf (line :: ls) = line ++ '\n' :: textOf ls := by simp [textOf]
    rw [hsplit, splitOn_append_of_not_mem h.1, splitOn_cons_eq_if_modifyHead, ih h.2]
    simp

lemma foldl_readLine_textOf {ls : List Text} (h : ∀ line ∈ ls, '\n' ∉ line) (e : BlsEntry) :
    (lines (textOf ls)).foldl readLine e = ls.foldl readLine e := by
  rw [foldl_lines readLine_stripCr readLine_nil, splitOn_textOf h, foldl_append]
  rfl

/-! ### Fields -/

def fieldLine (key value : Text) : Text :=
  key ++ (replicate (11 - key.length) ' ' ++ value)

/-- A key as entry files have it: without white space, no comment, and shorter than its column. -/
def IsKey (key : Text) : Prop :=
  key ≠ [] ∧ key.head? ≠ some '#' ∧ (∀ c ∈ key, isWhitespace c = false) ∧ key.length < 11
deriving Decidable

def setField (e : BlsEntry) (key value : Text) : BlsEntry :=
  if trim value = [] then e else e.setKey key (trim value)

lemma readLine_fieldLine {key : Text} (hkey : IsKey key) (value : Text) (e : BlsEntry) :
    e.readLine (fieldLine key value) = e.setField key value := by
  obtain ⟨hne, hcomment, hwhite, hshort⟩ := hkey
  obtain ⟨blanks, hblanks⟩ : ∃ blanks, 11 - key.length = blanks + 1 :=
    ⟨10 - key.length, by omega⟩
  obtain ⟨d, hd⟩ := ne_none_iff_exists'.mp (mt head?_eq_none_iff.mp hne)
  obtain ⟨l, hl⟩ := ne_none_iff_exists'.mp (mt getLast?_eq_none_iff.mp hne)
  have htrim : trim (fieldLine key value) =
      key ++ trimEnd (replicate (11 - key.length) ' ' ++ value) :=
    trimBy_append_of_ends hd (hwhite d (mem_of_head? hd)) hl
      (hwhite l (mem_of_getLast? hl))
  have hascii : ∀ c ∈ key, (!isAsciiWhitespace c) = true := by
    intro c hc
    have hnot := hwhite c hc
    cases h : isAsciiWhitespace c with
    | false => rfl
    | true =>
      rw [isWhitespace_of_isAsciiWhitespace h] at hnot
      cases hnot
  have hhead : ∀ t, (key ++ t).head? ≠ some '#' := by
    intro t
    rw [head?_append, hd]
    rwa [hd] at hcomment
  unfold readLine setField
  rw [htrim, hblanks]
  dsimp only
  rw [if_neg (not_or.mpr ⟨by simp [hne], hhead _⟩), dropWhile_append_of_pos hascii,
    takeWhile_append_of_pos hascii]
  by_cases hvalue : trim value = []
  · have hblank : trimEnd (replicate (blanks + 1) ' ' ++ value) = [] := by
      refine (rdropWhile_eq_nil_iff).mpr fun c hc => ?_
      rcases mem_append.mp hc with hc | hc
      · rw [eq_of_mem_replicate hc]
        rfl
      · exact trim_eq_nil_iff.mp hvalue c hc
    rw [if_pos hvalue, hblank]
    rfl
  · have hstart : trimStart (replicate (blanks + 1) ' ' ++ trimEnd value) = trim value := by
      rw [trimStart, dropWhile_append_of_pos (by simp [isWhitespace])]
      exact trimStart_trimEnd value
    rw [if_neg hvalue, trimEnd_append_of_trim_ne_nil hvalue, ← hstart, replicate_succ,
      cons_append, dropWhile_cons_of_neg (by decide), takeWhile_cons_of_neg (by decide), append_nil]

def textOfFields (fields : List (Text × Text)) : Text :=
  textOf (fields.map fun f => fieldLine f.1 f.2)

lemma textOfFields_cons (f : Text × Text) (fields : List (Text × Text)) :
    textOfFields (f :: fields) = fieldLine f.1 f.2 ++ '\n' :: textOfFields fields := by
  simp [textOfFields, textOf]

def ofFields (filename : Text) (fields : List (Text × Text)) : BlsEntry :=
  fields.foldl (fun e f => e.setField f.1 f.2) (ofFilename filename)

lemma foldl_readLine_textOfFields {fields : List (Text × Text)} (hkeys : ∀ f ∈ fields, IsKey f.1)
    (hlines : ∀ f ∈ fields, '\n' ∉ f.2) (filename : Text) :
    (lines (textOfFields fields)).foldl readLine (ofFilename filename) =
      ofFields filename fields := by
  have honeLine : ∀ line ∈ fields.map fun f => fieldLine f.1 f.2, '\n' ∉ line := by
    intro line hline
    obtain ⟨f, hf, rfl⟩ := mem_map.mp hline
    have hkey : '\n' ∉ f.1 := fun h => Bool.noConfusion ((hkeys f hf).2.2.1 _ h)
    simp [fieldLine, hkey, hlines f hf]
  rw [textOfFields, foldl_readLine_textOf honeLine, foldl_map, ofFields]
  exact foldl_ext _ _ _ fun e f hf => readLine_fieldLine (hkeys f hf) f.2 e

/-! ### What the fields of an entry depend on -/

lemma foldl_setField {β : Type} (field : BlsEntry → β) {key : Text} (update : β → Text → β)
    (hother : ∀ (e : BlsEntry) (k value : Text), k ≠ key → field (e.setField k value) = field e)
    (hkey : ∀ (e : BlsEntry) (value : Text),
      field (e.setField key value) = update (field e) value)
    (fields : List (Text × Text)) (e : BlsEntry) :
    field (fields.foldl (fun e f => e.setField f.1 f.2) e) =
      (fields.filter (·.1 = key)).foldl (fun b f => update b f.2) (field e) := by
  induction fields generalizing e with
  | nil => rfl
  | cons f fields ih =>
    obtain ⟨k, value⟩ := f
    rw [foldl_cons, ih]
    by_cases hk : k = key
    · rw [hk, hkey, filter_cons_of_pos (by simp)]
      rfl
    · rw [hother e k value hk, filter_cons_of_neg (by simpa using hk)]

lemma version_foldl (fields : List (Text × Text)) (e : BlsEntry) :
    (fields.foldl (fun e f => e.setField f.1 f.2) e).version =
      (fields.filter (·.1 = "version".toList)).foldl
        (fun v f => if trim f.2 = [] then v else some (trim f.2)) e.version := by
  refine foldl_setField BlsEntry.version
    (fun v value => if trim value = [] then v else some (trim value)) (fun e k value hk => ?_)
    (fun e value => ?_) fields e
  · unfold setField setKey
    split_ifs <;> rfl
  · unfold setField
    split_ifs <;> rfl

lemma linux_foldl (fields : List (Text × Text)) (e : BlsEntry) :
    (fields.foldl (fun e f => e.setField f.1 f.2) e).linux =
      (fields.filter (·.1 = "linux".toList)).foldl
        (fun v f => if trim f.2 = [] then v else some (normalizePath (trim f.2))) e.linux := by
  refine foldl_setField BlsEntry.linux (fun v value =>
    if trim value = [] then v else some (normalizePath (trim value)))
    (fun e k value hk => ?_) (fun e value => ?_) fields e
  · unfold setField setKey
    split_ifs <;> rfl
  · unfold setField
    split_ifs <;> rfl

lemma initrd_foldl (fields : List (Text × Text)) (e : BlsEntry) :
    (fields.foldl (fun e f => e.setField f.1 f.2) e).initrd =
      (fields.filter (·.1 = "initrd".toList)).foldl
        (fun l f => l ++ (splitWhitespace f.2).map normalizePath) e.initrd := by
  refine foldl_setField BlsEntry.initrd
    (fun l value => l ++ (splitWhitespace value).map normalizePath) (fun e k value hk => ?_)
    (fun e value => ?_) fields e
  · unfold setField setKey
    split_ifs <;> rfl
  · rw [← splitWhitespace_trim value]
    unfold setField
    split_ifs with h
    · simp [h, splitWhitespace]
    · rfl

lemma version_ofFilename (filename : Text) : (ofFilename filename).version = none := by
  unfold ofFilename
  dsimp only
  split
  · split <;> rfl
  · rfl

lemma initrd_ofFilename (filename : Text) : (ofFilename filename).initrd = [] := by
  unfold ofFilename
  dsimp only
  split
  · split <;> rfl
  · rfl

/-! ### Names without counters -/

lemma isPrefix_trimEndMatches_go (p : Text) (n : Nat) (s : Text) :
    trimEndMatches.go p n s <+: s := by
  induction n generalizing s with
  | zero => exact prefix_refl s
  | succ n ih =>
    unfold trimEndMatches.go
    split
    · next t ht =>
      obtain ⟨q, hq, -⟩ := dropSuffix?_eq_some_iff.mp ht
      exact (ih t).trans (hq ▸ prefix_append t q)
    · exact prefix_refl s

lemma trimEndMatches_go_append (p : Text) (n : Nat) (s : Text) :
    trimEndMatches.go p (n + 1) (s ++ p) = trimEndMatches.go p n s := by
  rw [trimEndMatches.go, dropSuffix?_eq_some_iff.mpr ⟨p, rfl, beq_self_eq_true p⟩]

lemma id_ofFilename_of_plus {filename before after : Text}
    (h : rsplitOnce '+' (trimEndMatches ".conf" filename) = some (before, after)) :
    (ofFilename filename).id = before := by
  unfold ofFilename
  dsimp only
  rw [h]
  dsimp only
  split <;> rfl

lemma isPrefix_id_ofFilename (filename : Text) :
    (ofFilename filename).id <+: trimEndMatches ".conf" filename := by
  cases h : rsplitOnce '+' (trimEndMatches ".conf" filename) with
  | none =>
    unfold ofFilename
    dsimp only
    rw [h]
  | some parts =>
    rw [id_ofFilename_of_plus h, (rsplitOnce_eq_some_iff.mp h).1]
    exact prefix_append _ _

lemma ofFilename_plain_iff (base : Text) :
    ((ofFilename (base ++ ".conf")).id = base ∧
      (ofFilename (base ++ ".conf")).triesLeft = none ∧
      (ofFilename (base ++ ".conf")).triesDone = none) ↔
    '+' ∉ base ∧ ¬ ".conf" <:+ base := by
  constructor
  · rintro ⟨hid, -, -⟩
    have hsuffix : ¬ ".conf" <:+ base := by
      rintro ⟨b, rfl⟩
      have hfront := isPrefix_id_ofFilename (b ++ ".conf" ++ ".conf")
      have hlength : (b ++ ".conf" ++ ".conf").length = b.length + 8 + 1 + 1 := by
        simp
      rw [hid, trimEndMatches, hlength, trimEndMatches_go_append,
        trimEndMatches_go_append] at hfront
      have hle := (hfront.trans (isPrefix_trimEndMatches_go _ _ b)).length_le
      simp at hle
    refine ⟨fun hplus => ?_, hsuffix⟩
    obtain ⟨⟨before, after⟩, hsplit⟩ :=
      ne_none_iff_exists'.mp (mt rsplitOnce_eq_none_iff.mp (not_not.mpr hplus))
    have hbefore : (ofFilename (base ++ ".conf")).id = before :=
      id_ofFilename_of_plus
        (by rw [trimEndMatches_append (by decide) hsuffix, hsplit])
    have hbase := congrArg length (rsplitOnce_eq_some_iff.mp hsplit).1
    rw [← hbefore, hid] at hbase
    simp at hbase
  · rintro ⟨hplus, hsuffix⟩
    unfold ofFilename
    rw [trimEndMatches_append (by decide) hsuffix]
    dsimp only
    rw [rsplitOnce_eq_none_iff.mpr hplus]
    exact ⟨rfl, rfl, rfl⟩

/-! ### Versions -/

lemma version_readLine (e : BlsEntry) (line : Text) :
    (e.readLine line).version = e.version ∨
      ∃ v, (e.readLine line).version = some v ∧ v ⊆ line := by
  have hset : ∀ key value, (e.setKey key value).version = e.version ∨
      (e.setKey key value).version = some value := by
    intro key value
    unfold setKey
    split_ifs <;> simp
  unfold readLine
  dsimp only
  split_ifs
  · exact .inl rfl
  · split
    · exact .inl rfl
    · refine (hset _ _).imp_right fun h => ⟨_, h, ?_⟩
      have hend : trim line <+: trimStart line := rdropWhile_prefix _ _
      have htrim : trim line ⊆ line := List.Subset.trans hend.subset (dropWhile_suffix _).subset
      exact List.Subset.trans (dropWhile_suffix _).subset
        (List.Subset.trans (dropWhile_suffix _).subset htrim)

lemma version_parse_oneLine {filename content version : Text} {entry : BlsEntry}
    (h : BlsEntry.parse filename content = some entry) (hversion : entry.version = some version) :
    '\n' ∉ version := by
  have hfold : ∀ (ls : List Text) (e : BlsEntry), (∀ line ∈ ls, '\n' ∉ line) →
      (∀ v ∈ e.version, '\n' ∉ v) → ∀ v ∈ (ls.foldl readLine e).version, '\n' ∉ v := by
    intro ls
    induction ls with
    | nil => exact fun e _ he => he
    | cons line ls ih =>
      intro e hls he
      rw [forall_mem_cons] at hls
      refine ih _ hls.2 fun v hv => ?_
      rcases version_readLine e line with hsame | ⟨w, hw, hsub⟩
      · exact he v (hsame ▸ hv)
      · rw [hw, mem_some_iff] at hv
        exact fun hmem => hls.1 (hsub (hv ▸ hmem))
  simp only [BlsEntry.parse] at h
  split_ifs at h
  cases h
  rw [foldl_lines readLine_stripCr readLine_nil] at hversion
  exact hfold _ _ (fun _ => not_mem_of_mem_splitOn) (by simp [version_ofFilename]) version hversion

end LamBoot.BlsEntry
