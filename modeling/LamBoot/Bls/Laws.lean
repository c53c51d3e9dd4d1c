import LamBoot.Library.Selection
import LamBoot.Bls.Written

/-!
# Laws of entry files

What may be changed in an entry file without changing the entry: which changes of the text leave the
list of its fields as it is, and which changes of the fields the entry.
-/

namespace LamBoot.BlsEntry

open List Text

/-! ### The fields of a file -/

def keyOf (line : Text) : Text :=
  (trim line).takeWhile (!isAsciiWhitespace ·)

def fieldOf (line : Text) : Option (Text × Text) :=
  if (trim line).head? = some '#' then none
  else
    match (trim line).dropWhile (!isAsciiWhitespace ·) with
    | [] => none
    | rest => some (keyOf line, trimStart rest)

def fields (content : Text) : List (Text × Text) :=
  (content.splitOn '\n').filterMap fieldOf

def valueAt (key : Text) (f : Text × Text) : Option Text :=
  if f.1 = key then some f.2 else none

def values (key content : Text) : List Text :=
  (fields content).filterMap (valueAt key)

/-- The keys that the parser knows. -/
inductive Key where
  | title
  | version
  | machineId
  | sortKey
  | linux
  | efi
  | initrd
  | options
  | architecture
deriving DecidableEq

def Key.name : Key → Text
  | .title => "title"
  | .version => "version"
  | .machineId => "machine-id"
  | .sortKey => "sort-key"
  | .linux => "linux"
  | .efi => "efi"
  | .initrd => "initrd"
  | .options => "options"
  | .architecture => "architecture"

def set (e : BlsEntry) (key : Key) (value : Text) : BlsEntry :=
  match key with
  | .title => { e with title := some value }
  | .version => { e with version := some value }
  | .machineId => { e with machineId := some value }
  | .sortKey => { e with sortKey := some value }
  | .linux => { e with linux := some (normalizePath value) }
  | .efi => { e with efi := some (normalizePath value) }
  | .initrd => { e with initrd := e.initrd ++ (splitWhitespace value).map normalizePath }
  | .options => { e with options := e.options ++ [value] }
  | .architecture => { e with architecture := some value }

lemma setKey_name (e : BlsEntry) (key : Key) (value : Text) :
    e.setKey key.name value = e.set key value := by
  cases key <;> rfl

lemma setKey_of_unknown {name : Text} (h : ∀ key : Key, name ≠ key.name) (e : BlsEntry)
    (value : Text) : e.setKey name value = e := by
  unfold setKey
  split_ifs with h₁ h₂ h₃ h₄ h₅ h₆ h₇ h₈ h₉
  · exact absurd h₁ (h .title)
  · exact absurd h₂ (h .version)
  · exact absurd h₃ (h .machineId)
  · exact absurd h₄ (h .sortKey)
  · exact absurd h₅ (h .linux)
  · exact absurd h₆ (h .efi)
  · exact absurd h₇ (h .initrd)
  · exact absurd h₈ (h .options)
  · exact absurd h₉ (h .architecture)
  · rfl

lemma set_comm {a b : Key} (h : a ≠ b) (e : BlsEntry) (v w : Text) :
    (e.set a v).set b w = (e.set b w).set a v := by
  cases a <;> cases b <;> first | rfl | exact absurd rfl h

lemma setKey_comm {j k : Text} (h : j ≠ k) (e : BlsEntry) (v w : Text) :
    (e.setKey j v).setKey k w = (e.setKey k w).setKey j v := by
  by_cases hj : ∃ a : Key, j = a.name
  · by_cases hk : ∃ b : Key, k = b.name
    · obtain ⟨a, rfl⟩ := hj
      obtain ⟨b, rfl⟩ := hk
      simp only [setKey_name]
      exact set_comm (fun hab => h (congrArg Key.name hab)) e v w
    · rw [not_exists] at hk
      rw [setKey_of_unknown hk, setKey_of_unknown hk]
  · rw [not_exists] at hj
    rw [setKey_of_unknown hj, setKey_of_unknown hj]

def setFields (e : BlsEntry) (fs : List (Text × Text)) : BlsEntry :=
  fs.foldl (fun e f => e.setKey f.1 f.2) e

lemma setFields_append (e : BlsEntry) (fs gs : List (Text × Text)) :
    e.setFields (fs ++ gs) = (e.setFields fs).setFields gs :=
  foldl_append

lemma readLine_eq (e : BlsEntry) (line : Text) :
    e.readLine line = e.setFields (fieldOf line).toList := by
  unfold readLine fieldOf
  dsimp only
  by_cases hnil : trim line = []
  · rw [hnil]
    rfl
  · simp only [hnil, false_or]
    split_ifs
    · rfl
    · cases (trim line).dropWhile (!isAsciiWhitespace ·) <;> rfl

lemma foldl_readLine (e : BlsEntry) (content : Text) :
    (lines content).foldl readLine e = e.setFields (fields content) := by
  rw [foldl_lines readLine_stripCr readLine_nil, fields]
  generalize content.splitOn '\n' = ls
  induction ls generalizing e with
  | nil => rfl
  | cons line ls ih =>
    rw [foldl_cons, readLine_eq, ih, filterMap_cons]
    cases fieldOf line <;> rfl

lemma parse_congr {filename content content' : Text} (h : fields content = fields content') :
    parse filename content = parse filename content' := by
  simp only [parse, foldl_readLine, h]

lemma fields_append_cons (s t : Text) : fields (s ++ '\n' :: t) = fields s ++ fields t := by
  rw [fields, splitOn, splitOnP_append_cons _ _ (by simp), filterMap_append]
  rfl

lemma fields_of_not_mem {s : Text} (h : '\n' ∉ s) : fields s = (fieldOf s).toList := by
  rw [fields, splitOn_eq_singleton h]
  cases hs : fieldOf s <;> simp [hs]

/-! ### Lines -/

/-- A line of a file. -/
structure Line where
  text : Text
  oneLine : '\n' ∉ text

def joinLines (ls : List Line) : Text :=
  intercalate ['\n'] (ls.map (·.text))

lemma exists_joinLines (content : Text) : ∃ ls, content = joinLines ls := by
  refine ⟨(content.splitOn '\n').attach.map fun l => ⟨l.1, not_mem_of_mem_splitOn l.2⟩, ?_⟩
  rw [joinLines, map_map]
  simp [Function.comp_def]

lemma fields_joinLines (ls : List Line) :
    fields (joinLines ls) = ls.flatMap fun line => (fieldOf line.text).toList := by
  cases ls with
  | nil => rfl
  | cons line ls =>
    rw [fields, joinLines, splitOn_intercalate _ (by simp [Line.oneLine]) (by simp),
      filterMap_map, filterMap_eq_flatMap_toList]
    rfl

/-! ### Lines that do not matter -/

def IsBlank (line : Text) : Prop :=
  ∀ c ∈ line, isWhitespace c = true
deriving Decidable

def IsComment (line : Text) : Prop :=
  (trim line).head? = some '#'

def HasUnknownKey (line : Text) : Prop :=
  ∀ key : Key, keyOf line ≠ key.name

lemma fieldOf_key {line : Text} {f : Text × Text} (h : fieldOf line = some f) :
    f.1 = keyOf line := by
  unfold fieldOf at h
  split_ifs at h
  split at h
  · cases h
  · cases h
    rfl

lemma setFields_fieldOf_of_ignored {line : Text}
    (h : IsBlank line ∨ IsComment line ∨ HasUnknownKey line) (e : BlsEntry) :
    e.setFields (fieldOf line).toList = e := by
  rcases h with hblank | hcomment | hunknown
  · have htrim : trim line = [] := trim_eq_nil_iff.mpr hblank
    rw [fieldOf, htrim]
    rfl
  · unfold fieldOf
    rw [IsComment] at hcomment
    rw [if_pos hcomment]
    rfl
  · cases hfield : fieldOf line with
    | none => rfl
    | some f =>
      have hkey := fieldOf_key hfield
      exact setKey_of_unknown (fun key => hkey ▸ hunknown key) e f.2

variable {line line' : Text}

lemma setFields_fieldOf_comm (h : keyOf line ≠ keyOf line') (e : BlsEntry) :
    (e.setFields (fieldOf line').toList).setFields (fieldOf line).toList =
      (e.setFields (fieldOf line).toList).setFields (fieldOf line').toList := by
  cases hfield : fieldOf line with
  | none => rfl
  | some f =>
    cases hfield' : fieldOf line' with
    | none => rfl
    | some f' =>
      rw [← fieldOf_key hfield, ← fieldOf_key hfield'] at h
      exact setKey_comm (Ne.symm h) e f'.2 f.2

lemma parse_insert {line : Line}
    (h : IsBlank line.text ∨ IsComment line.text ∨ HasUnknownKey line.text) (filename : Text)
    (before after : List Line) :
    parse filename (joinLines (before ++ line :: after)) =
      parse filename (joinLines (before ++ after)) := by
  simp only [parse, foldl_readLine, fields_joinLines, flatMap_append, flatMap_cons,
    setFields_append, setFields_fieldOf_of_ignored h]

/-! ### White space -/

/-- The lines differ in the white space around them, or in that between the key and the value, which
begins with ASCII white space. -/
inductive Respaced : Text → Text → Prop where
  | around {before after : Text} (line : Text) (hbefore : IsBlank before) (hafter : IsBlank after) :
      Respaced line (before ++ line ++ after)
  | between {indent key gap gap' : Text} (value : Text) (hindent : IsBlank indent)
      (hkey : ∀ c ∈ key, isAsciiWhitespace c = false)
      (hstart : ∃ c, key.head? = some c ∧ isWhitespace c = false)
      (hgap : IsBlank gap) (hgapStart : ∃ c, gap.head? = some c ∧ isAsciiWhitespace c = true)
      (hgap' : IsBlank gap') (hgapStart' : ∃ c, gap'.head? = some c ∧ isAsciiWhitespace c = true) :
      Respaced (indent ++ key ++ gap ++ value) (indent ++ key ++ gap' ++ value)

lemma fieldOf_of_gap {indent key gap : Text} (value : Text) (hindent : IsBlank indent)
    (hkey : ∀ c ∈ key, isAsciiWhitespace c = false)
    (hstart : ∃ c, key.head? = some c ∧ isWhitespace c = false)
    (hgap : IsBlank gap) (hgapStart : ∃ c, gap.head? = some c ∧ isAsciiWhitespace c = true) :
    fieldOf (indent ++ key ++ gap ++ value) =
      if key.head? = some '#' ∨ IsBlank value then none else some (key, trim value) := by
  obtain ⟨k, hk, hkwhite⟩ := hstart
  obtain ⟨g, hg, hgwhite⟩ := hgapStart
  obtain ⟨key', rfl⟩ := head?_eq_some_iff.mp hk
  obtain ⟨gap', rfl⟩ := head?_eq_some_iff.mp hg
  have hascii : ∀ c ∈ k :: key', (!isAsciiWhitespace c) = true := fun c hc => by simp [hkey c hc]
  have hstart : trimStart (indent ++ k :: key' ++ g :: gap' ++ value) =
      k :: key' ++ (g :: gap' ++ value) := by
    rw [trimStart, append_assoc, append_assoc, dropWhile_append_of_pos hindent,
      cons_append, dropWhile_cons_of_neg (by simp [hkwhite])]
  have htrim : trim (indent ++ k :: key' ++ g :: gap' ++ value) =
      trimEnd (k :: key' ++ (g :: gap' ++ value)) := by
    rw [trim, hstart]
  by_cases hvalue : IsBlank value
  · -- Nothing is left behind the key.
    have hblank : ∀ c ∈ g :: gap' ++ value, isWhitespace c = true := by
      intro c hc
      rcases mem_append.mp hc with hc | hc
      · exact hgap c hc
      · exact hvalue c hc
    have hend : trimEnd (k :: key' ++ (g :: gap' ++ value)) = trimEnd (k :: key') := by
      rw [trimEnd, rdropWhile, reverse_append,
        dropWhile_append_of_pos fun c hc => hblank c (mem_reverse.mp hc)]
      rfl
    have hdrop : (trim (indent ++ k :: key' ++ g :: gap' ++ value)).dropWhile
        (!isAsciiWhitespace ·) = [] := by
      rw [htrim, hend]
      have hpart : trimEnd (k :: key') <+: k :: key' := rdropWhile_prefix _ _
      exact dropWhile_eq_nil_iff.mpr fun c hc => hascii c (hpart.subset hc)
    unfold fieldOf
    rw [hdrop, if_pos (Or.inr hvalue)]
    split_ifs <;> rfl
  · have hne : trim value ≠ [] := fun h => hvalue (trim_eq_nil_iff.mp h)
    have hend : trim (indent ++ k :: key' ++ g :: gap' ++ value) =
        k :: key' ++ g :: (gap' ++ trimEnd value) := by
      rw [htrim, ← append_assoc, trimEnd_append_of_trim_ne_nil hne]
      simp
    unfold fieldOf keyOf
    rw [hend, dropWhile_append_of_pos hascii, takeWhile_append_of_pos hascii,
      dropWhile_cons_of_neg (by simp [hgwhite]), takeWhile_cons_of_neg (by simp [hgwhite])]
    have hvalueText : trimStart (g :: (gap' ++ trimEnd value)) = trim value := by
      rw [trimStart, ← cons_append, dropWhile_append_of_pos hgap]
      exact trimStart_trimEnd value
    simp [hvalue, hvalueText]

def crlf (content : Text) : Text :=
  content.flatMap fun c => if c = '\n' then ['\r', '\n'] else [c]

lemma fieldOf_congr (h : trim line = trim line') :
    fieldOf line = fieldOf line' := by
  unfold fieldOf keyOf
  rw [h]

lemma Respaced.fieldOf_eq (h : Respaced line line') :
    fieldOf line' = fieldOf line := by
  cases h with
  | around line hbefore hafter =>
    refine fieldOf_congr ?_
    rw [trim_eq_trimBy, trimBy_append_right hafter, trimBy_append_left hbefore]
    rfl
  | between value hindent hkey hstart hgap hgapStart hgap' hgapStart' =>
    rw [fieldOf_of_gap value hindent hkey hstart hgap hgapStart,
      fieldOf_of_gap value hindent hkey hstart hgap' hgapStart']

lemma fields_crlf (content : Text) : fields (crlf content) = fields content := by
  induction h : content.length using Nat.strong_induction_on generalizing content with
  | _ n ih =>
    have hsame : ∀ s : Text, '\n' ∉ s → crlf s = s := by
      intro s hs
      have hchars : ∀ c ∈ s, (if c = '\n' then ['\r', '\n'] else [c]) = [c] := by
        intro c hc
        refine if_neg ?_
        rintro rfl
        exact hs hc
      rw [crlf, flatMap_congr hchars, flatMap_singleton']
    cases hsplit : splitOnce '\n' content with
    | none => rw [hsame content (splitOnce_eq_none_iff.mp hsplit)]
    | some parts =>
      obtain ⟨before, after⟩ := parts
      obtain ⟨rfl, hbefore⟩ := splitOnce_eq_some_iff.mp hsplit
      have hcrlf : crlf (before ++ '\n' :: after) = (before ++ ['\r']) ++ '\n' :: crlf after := by
        have hbefore' := hsame before hbefore
        simp only [crlf] at hbefore' ⊢
        rw [flatMap_append, hbefore', flatMap_cons]
        simp
      have hline : fieldOf (before ++ ['\r']) = fieldOf before :=
        fieldOf_congr (trimBy_append_right (by decide))
      rw [hcrlf, fields_append_cons, fields_append_cons, fields_of_not_mem hbefore,
        fields_of_not_mem (by simp [hbefore]), hline,
        ih after.length (by rw [← h]; simp; omega) after rfl]

/-! ### Repeated keys -/

section Values

variable (filename content : Text)

def read : BlsEntry :=
  (ofFilename filename).setFields (fields content)

variable {filename content}

lemma parse_eq : parse filename content =
    if (read filename content).linux.isNone && (read filename content).efi.isNone then none
    else some (read filename content) := by
  simp only [parse, foldl_readLine]
  rfl

section Get

variable {β : Type} {key : Key} {get : BlsEntry → β}

lemma get_setKey_of_ne (hother : ∀ (e : BlsEntry) k v, k ≠ key → get (e.set k v) = get e)
    {name : Text} (hname : name ≠ key.name) (e : BlsEntry) (v : Text) :
    get (e.setKey name v) = get e := by
  by_cases hk : ∃ k : Key, name = k.name
  · obtain ⟨k, rfl⟩ := hk
    rw [setKey_name, hother e k v fun h => hname (h ▸ rfl)]
  · rw [setKey_of_unknown (not_exists.mp hk)]

end Get

lemma get_read (key : Key) (get : BlsEntry → Option Text) (update : Text → Text)
    (hkey : ∀ (e : BlsEntry) v, get (e.set key v) = some (update v))
    (hother : ∀ (e : BlsEntry) k v, k ≠ key → get (e.set k v) = get e)
    (hnone : get (ofFilename filename) = none) :
    get (read filename content) = (values key.name content).getLast?.map update := by
  have hset : ∀ (e : BlsEntry) (f : Text × Text), get (e.setKey f.1 f.2) =
      ((valueAt key.name f).map fun v => some (update v)).getD (get e) := by
    rintro e ⟨name, v⟩
    by_cases hname : name = key.name
    · rw [hname, setKey_name, hkey, valueAt, if_pos rfl]
      rfl
    · rw [get_setKey_of_ne hother hname, valueAt, if_neg hname]
      rfl
  rw [read, setFields, get_foldl_eq hset, hnone, values]
  cases ((fields content).filterMap (valueAt key.name)).getLast? <;> rfl

lemma get_read_append (key : Key) (get : BlsEntry → List Text) (update : Text → List Text)
    (hkey : ∀ (e : BlsEntry) v, get (e.set key v) = get e ++ update v)
    (hother : ∀ (e : BlsEntry) k v, k ≠ key → get (e.set k v) = get e)
    (hnil : get (ofFilename filename) = []) :
    get (read filename content) = (values key.name content).flatMap update := by
  have hfold : ∀ (fs : List (Text × Text)) (e : BlsEntry), get (e.setFields fs) =
      get e ++ (fs.filterMap (valueAt key.name)).flatMap update := by
    intro fs
    induction fs with
    | nil => exact fun e => (append_nil _).symm
    | cons f fs ih =>
      intro e
      rw [setFields, foldl_cons, ← setFields, ih]
      by_cases hname : f.1 = key.name
      · have hvalue : valueAt key.name f = some f.2 := if_pos hname
        rw [hname, setKey_name, hkey, filterMap_cons_some hvalue, flatMap_cons, append_assoc]
      · have hvalue : valueAt key.name f = none := if_neg hname
        rw [get_setKey_of_ne hother hname, filterMap_cons_none hvalue]
  rw [read, hfold, hnil, nil_append, values]

end Values

/-- The fields of an entry are the last values of their keys; the images and options are all values
in file order. -/
structure HasValues (entry : BlsEntry) (content : Text) : Prop where
  title : entry.title = (values "title" content).getLast?
  version : entry.version = (values "version" content).getLast?
  machineId : entry.machineId = (values "machine-id" content).getLast?
  sortKey : entry.sortKey = (values "sort-key" content).getLast?
  linux : entry.linux = (values "linux" content).getLast?.map normalizePath
  efi : entry.efi = (values "efi" content).getLast?.map normalizePath
  architecture : entry.architecture = (values "architecture" content).getLast?
  initrd : entry.initrd =
    (values "initrd" content).flatMap fun value => (splitWhitespace value).map normalizePath
  options : entry.options = values "options" content

lemma ofFilename_fields (filename : Text) : ∃ id left done,
    ofFilename filename = { id, filename, triesLeft := left, triesDone := done } := by
  unfold ofFilename
  dsimp only
  split
  · split
    · exact ⟨_, _, _, rfl⟩
    · exact ⟨_, _, _, rfl⟩
  · exact ⟨_, none, none, rfl⟩

lemma hasValues_read (filename content : Text) : (read filename content).HasValues content := by
  obtain ⟨id, left, done, hname⟩ := ofFilename_fields filename
  have hlast : ∀ (key : Key) (get : BlsEntry → Option Text),
      (∀ (e : BlsEntry) v, get (e.set key v) = some v) →
      (∀ (e : BlsEntry) k v, k ≠ key → get (e.set k v) = get e) →
      get (ofFilename filename) = none →
        get (read filename content) = (values key.name content).getLast? := by
    intro key get hkey hother hnone
    rw [get_read key get (fun v => v) hkey hother hnone, Option.map_id']
  constructor
  case title =>
    refine hlast .title BlsEntry.title (fun _ _ => rfl) (fun e k v hk => ?_) (by rw [hname])
    cases k <;> first | rfl | exact absurd rfl hk
  case version =>
    refine hlast .version BlsEntry.version (fun _ _ => rfl) (fun e k v hk => ?_) (by rw [hname])
    cases k <;> first | rfl | exact absurd rfl hk
  case machineId =>
    refine hlast .machineId BlsEntry.machineId (fun _ _ => rfl) (fun e k v hk => ?_) (by rw [hname])
    cases k <;> first | rfl | exact absurd rfl hk
  case sortKey =>
    refine hlast .sortKey BlsEntry.sortKey (fun _ _ => rfl) (fun e k v hk => ?_) (by rw [hname])
    cases k <;> first | rfl | exact absurd rfl hk
  case architecture =>
    refine hlast .architecture BlsEntry.architecture (fun _ _ => rfl) (fun e k v hk => ?_)
      (by rw [hname])
    cases k <;> first | rfl | exact absurd rfl hk
  case linux =>
    refine get_read .linux BlsEntry.linux normalizePath (fun _ _ => rfl) (fun e k v hk => ?_)
      (by rw [hname])
    cases k <;> first | rfl | exact absurd rfl hk
  case efi =>
    refine get_read .efi BlsEntry.efi normalizePath (fun _ _ => rfl) (fun e k v hk => ?_)
      (by rw [hname])
    cases k <;> first | rfl | exact absurd rfl hk
  case initrd =>
    refine get_read_append .initrd BlsEntry.initrd
      (fun value => (splitWhitespace value).map normalizePath) (fun _ _ => rfl)
      (fun e k v hk => ?_) (by rw [hname])
    cases k <;> first | rfl | exact absurd rfl hk
  case options =>
    rw [get_read_append .options BlsEntry.options (fun value => [value]) (fun _ _ => rfl)
      (fun e k v hk => ?_) (by rw [hname]), flatMap_singleton']
    · rfl
    · cases k <;> first | rfl | exact absurd rfl hk

lemma parse_eq_none_iff {filename content : Text} :
    parse filename content = none ↔ values "linux" content = [] ∧ values "efi" content = [] := by
  have hvalues := hasValues_read filename content
  have hlinux : (read filename content).linux.isNone = true ↔ values "linux" content = [] := by
    rw [hvalues.linux]
    simp
  have hefi : (read filename content).efi.isNone = true ↔ values "efi" content = [] := by
    rw [hvalues.efi]
    simp
  rw [parse_eq, ← hlinux, ← hefi, ← Bool.and_eq_true]
  split_ifs with h <;> simp [h]

/-! ### The laws -/

/-- **Laws of entry files.** An entry does not change with blank lines, comments and unknown keys,
with carriage returns, with white space around lines or behind keys, or with the order of lines of
different keys. The last value of a key counts, but images and options add up; and there is an entry
exactly if a `linux` or an `efi` line has a value. -/
theorem parse_laws (filename : Text) :
    (∀ content, ∃ ls, content = joinLines ls) ∧
    (∀ (before after : List Line) (line : Line),
      IsBlank line.text ∨ IsComment line.text ∨ HasUnknownKey line.text →
        parse filename (joinLines (before ++ line :: after)) =
          parse filename (joinLines (before ++ after))) ∧
    (∀ content, parse filename (crlf content) = parse filename content) ∧
    (∀ (before after : List Line) (line line' : Line), Respaced line.text line'.text →
      parse filename (joinLines (before ++ line' :: after)) =
        parse filename (joinLines (before ++ line :: after))) ∧
    (∀ (before after : List Line) (line line' : Line), keyOf line.text ≠ keyOf line'.text →
      parse filename (joinLines (before ++ line' :: line :: after)) =
        parse filename (joinLines (before ++ line :: line' :: after))) ∧
    (∀ content entry, parse filename content = some entry → entry.HasValues content) ∧
    ∀ content, parse filename content = none ↔
      values "linux" content = [] ∧ values "efi" content = [] := by
  refine ⟨exists_joinLines, fun before after line h => parse_insert h filename before after,
    fun content => parse_congr (fields_crlf content), fun before after line line' h => ?_,
    fun before after line line' h => ?_, fun content entry h => ?_,
    fun content => parse_eq_none_iff⟩
  · refine parse_congr ?_
    simp only [fields_joinLines, flatMap_append, flatMap_cons, h.fieldOf_eq]
  · simp only [parse, foldl_readLine, fields_joinLines, flatMap_append, flatMap_cons,
      setFields_append, setFields_fieldOf_comm h]
  · rw [parse_eq] at h
    split_ifs at h
    cases h
    exact hasValues_read filename content

/-- A no-break space put in behind the key becomes part of it. -/
theorem parse_of_no_break_space :
    IsBlank ['\u00a0'] ∧
    parse "a.conf" ("linux" ++ " " ++ "/a") ≠ none ∧
    parse "a.conf" ("linux" ++ ['\u00a0'] ++ " " ++ "/a") = none := by
  refine ⟨by decide, by decide, by decide⟩

end LamBoot.BlsEntry
