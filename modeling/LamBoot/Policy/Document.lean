import LamBoot.Library.Selection
import LamBoot.Policy.Arrays
import LamBoot.Policy.Filter

/-!
# Policy files in the documented style

A policy file as the configuration guide writes it: settings under section headers, among them
arrays of strings and booleans that may have comments behind them.
-/

namespace LamBoot

open List Text

/-! ### Files -/

/-- A key that needs no quotes. -/
structure BareKey (key : Text) : Prop where
  ne_nil : key ≠ []
  chars : ∀ c ∈ key, c.isAlphanum = true ∨ c = '_' ∨ c = '-' ∨ c = '.'

def ScalarKey (qualifiedKey : Text) : Prop :=
  (∀ k, ConfigKey.ofText qualifiedKey ≠ some (.bool k)) ∧
    ∀ k, ConfigKey.ofText qualifiedKey ≠ some (.list k)

/-- What may stand under a section header. -/
inductive Setting (tomlSection : Text) where
  | blank
  | comment (note : Text) (oneLine : '\n' ∉ note)
  | list (k : ListKey) (here : k.tomlSection = tomlSection) (value : Toml.Array)
  | bool (k : BoolKey) (here : k.tomlSection = tomlSection) (value : Bool)
      (remark : Option Toml.Comment)
  | scalar (key value : Text) (bare : BareKey key) (oneLine : '\n' ∉ value)
      (other : ScalarKey (qualify tomlSection key))

def boolText (value : Bool) : Text :=
  if value then "true" else "false"

def Setting.text {tomlSection : Text} : Setting tomlSection → Text
  | .blank => []
  | .comment note _ => '#' :: note
  | .list k _ value => k.name ++ " = " ++ value.text
  | .bool k _ value remark =>
    k.name ++ " = " ++ (boolText value ++ Toml.commentText remark)
  | .scalar key value _ _ _ => key ++ " = " ++ value

/-- A header with the settings under it. -/
structure TomlSection where
  name : Text
  bare : BareKey name
  settings : List (Setting name)

/-- A file: settings before any header, and sections. -/
structure Document where
  root : List (Setting [])
  sections : List TomlSection

namespace Document

def settingsText {tomlSection : Text} (settings : List (Setting tomlSection)) : Text :=
  settings.flatMap fun setting => setting.text ++ ['\n']

def text (doc : Document) : Text :=
  settingsText doc.root ++
    doc.sections.flatMap fun s => '[' :: s.name ++ ']' :: '\n' :: settingsText s.settings

def settings (doc : Document) : List ((tomlSection : Text) × Setting tomlSection) :=
  doc.root.map (⟨[], ·⟩) ++ doc.sections.flatMap fun s => s.settings.map (⟨s.name, ·⟩)

end Document

/-! ### Lines -/

section Lines

variable (lower : Lowercase)

def Setting.apply {tomlSection : Text} (policy : Policy) : Setting tomlSection → Policy
  | .blank => policy
  | .comment _ _ => policy
  | .list k _ value => k.set (parseTomlArray value.firstLine) policy
  | .bool k _ value remark =>
    k.set (k.read (trimMatches '"' (trim (boolText value ++ Toml.commentText remark)))) policy
  | .scalar key value _ _ _ => applyConfigValue lower policy (qualify tomlSection key) (trim value)

variable {key : Text} {c : Char}

lemma BareKey.not_mem (h : BareKey key) (hc : c.isAlphanum = false)
    (hne : c ≠ '_' ∧ c ≠ '-' ∧ c ≠ '.') : c ∉ key := by
  intro hmem
  rcases h.chars c hmem with halnum | hother
  · rw [hc] at halnum
    cases halnum
  · tauto

lemma isWhitespace_of_isAlphanum (h : c.isAlphanum = true) : isWhitespace c = false := by
  have hclasses : c.isAlpha = true ∨ (48 ≤ c.toNat ∧ c.toNat ≤ 57) := by
    simpa [Char.isAlphanum, Char.isDigit, UInt32.le_iff_toNat_le] using h
  rw [isAlpha_iff] at hclasses
  simp [isWhitespace]
  omega

lemma BareKey.isWhitespace (h : BareKey key) :
    ∀ c ∈ key, Text.isWhitespace c = false := by
  intro c hc
  rcases h.chars c hc with halnum | rfl | rfl | rfl
  · exact isWhitespace_of_isAlphanum halnum
  all_goals decide

lemma BareKey.trim_eq (h : BareKey key) : trim key = key :=
  trimBy_eq_self (fun d hd => h.isWhitespace d (mem_of_head? hd))
    (fun d hd => h.isWhitespace d (mem_of_getLast? hd))

lemma splitOnce_of_not_mem {s t : Text} (h : c ∉ s) :
    splitOnce c (s ++ c :: t) = some (s, t) := by
  have hpos : ∀ d ∈ s, (d != c) = true := fun d hd => by
    simpa using fun hdc : d = c => h (hdc ▸ hd)
  rw [splitOnce, dropWhile_append_of_pos hpos, takeWhile_append_of_pos hpos]
  simp

lemma readPolicyLine_assign (hkey : BareKey key) (value : Text)
    (state : Text × Policy) :
    readPolicyLine lower state (key ++ " = " ++ value) =
      (state.1, applyConfigValue lower state.2 (qualify state.1 key) (trim value)) := by
  obtain ⟨d, hd⟩ : ∃ d, key.head? = some d :=
    Option.isSome_iff_exists.mp (by simpa using hkey.ne_nil)
  have hmem := mem_of_head? hd
  have hline : trim (key ++ " = " ++ value) =
      (key ++ [' ']) ++ '=' :: (' ' :: value).rdropWhile isWhitespace := by
    have hsplit : key ++ " = " ++ value = (key ++ [' ', '=']) ++ (' ' :: value) := by
      simp
    rw [hsplit, trim_eq_trimBy, trimBy_append_of_ends (d := d) (e := '=') (by simp [hd])
      (hkey.isWhitespace d hmem) (by simp) (by decide)]
    simp
  have hkeyTrim : trim (key ++ [' ']) = key := by
    rw [trim_eq_trimBy, trimBy_append_right (by decide)]
    exact hkey.trim_eq
  have hvalueTrim : trim ((' ' :: value).rdropWhile isWhitespace) = trim value := by
    have hends : trim ((' ' :: value).rdropWhile isWhitespace) = trim (' ' :: value) := by
      conv_rhs => rw [← rdropWhile_append_rtakeWhile (p := isWhitespace) (l := ' ' :: value)]
      exact (trimBy_append_right fun c hc => mem_rtakeWhile_imp hc).symm
    rw [hends]
    exact trimBy_append_left (t := [' ']) (by decide)
  have hequals : '=' ∉ key ++ [' '] := by
    simp [hkey.not_mem (c := '=') (by decide) (by decide)]
  have hhead : ∀ c : Char, c.isAlphanum = false → (c ≠ '_' ∧ c ≠ '-' ∧ c ≠ '.') →
      ((key ++ [' ']) ++ '=' :: (' ' :: value).rdropWhile isWhitespace).head? ≠ some c := by
    intro c hc hne hcontra
    rw [append_assoc, head?_append, hd] at hcontra
    cases hcontra
    exact hkey.not_mem hc hne hmem
  unfold readPolicyLine
  simp only [hline, splitOnce_of_not_mem hequals, hkeyTrim, hvalueTrim]
  rw [if_neg, if_neg (hhead '[' (by decide) (by decide))]
  rintro (hnil | hhash)
  · simp at hnil
  · exact hhead '#' (by decide) (by decide) hhash

lemma qualified_chars : ∀ k ∈ ConfigKey.all, ∀ c ∈ k.qualified,
    c.isAlphanum = true ∨ c = '_' ∨ c = '-' ∨ c = '.' := by
  decide +kernel

lemma ofText_eq_none (hc : c.isAlphanum = false) (hne : c ≠ '_' ∧ c ≠ '-' ∧ c ≠ '.')
    (h : c ∈ key) : ConfigKey.ofText key = none := by
  rw [ConfigKey.ofText, find?_eq_none]
  intro k hk heq
  simp only [decide_eq_true_eq] at heq
  rcases qualified_chars k hk c (heq ▸ h) with halnum | hother
  · rw [hc] at halnum
    cases halnum
  · tauto

lemma mem_qualify (h : c ∈ key) (tomlSection : Text) :
    c ∈ qualify tomlSection key := by
  unfold qualify
  split_ifs
  · exact h
  · simp [h]

lemma readPolicyLine_continuation {line : Text} (h : Toml.Continuation line)
    (state : Text × Policy) : readPolicyLine lower state line = state := by
  unfold readPolicyLine
  cases hline : trim line with
  | nil => rfl
  | cons c rest =>
    have hc := h c (by rw [hline]; rfl)
    obtain ⟨hequals, hhash, hbracket, hblank, halnum, hne⟩ :
        c ≠ '=' ∧ c ≠ '#' ∧ c ≠ '[' ∧ isWhitespace c = false ∧ c.isAlphanum = false ∧
          c ≠ '_' ∧ c ≠ '-' ∧ c ≠ '.' := by
      rcases hc with rfl | rfl | rfl | rfl <;> decide
    have hkey : ∀ before after, splitOnce '=' (c :: rest) = some (before, after) →
        c ∈ qualify state.1 (trim before) := by
      intro before after hsplit
      unfold splitOnce at hsplit
      split at hsplit
      · cases hsplit
      · cases hsplit
        refine mem_qualify ?_ _
        rw [← count_pos_iff, trim_eq_trimBy, count_trimBy hblank, count_pos_iff]
        simp [hequals]
    dsimp only
    rw [if_neg (by simpa using hhash), if_neg (by simpa using hbracket)]
    split
    · next before after hsplit =>
      rw [applyConfigValue, ofText_eq_none halnum hne (hkey before after hsplit)]
    · rfl

lemma readPolicyLine_header {name : Text} (h : BareKey name) (state : Text × Policy) :
    readPolicyLine lower state ('[' :: name ++ [']']) = (name, state.2) := by
  have htrim : trim ('[' :: name ++ [']']) = '[' :: name ++ [']'] :=
    trimBy_of_ends (d := '[') (e := ']') rfl (by decide) getLast?_concat (by decide)
  have hsplit : rsplitOnce ']' ('[' :: name ++ [']']) = some ('[' :: name, []) := by
    rw [rsplitOnce, reverse_append, reverse_singleton]
    simp [splitOnce]
  unfold readPolicyLine
  simp only [htrim, hsplit]
  simp [h.trim_eq]

/-! ### Files are read one setting at a time -/

lemma bareKey_listName (k : ListKey) : BareKey k.name := by
  cases k <;> exact ⟨by decide, by decide⟩

lemma bareKey_boolName (k : BoolKey) : BareKey k.name := by
  cases k <;> exact ⟨by decide, by decide⟩

lemma ofText_list (k : ListKey) :
    ConfigKey.ofText (qualify k.tomlSection k.name) = some (.list k) := by
  cases k <;> decide

lemma ofText_bool (k : BoolKey) :
    ConfigKey.ofText (qualify k.tomlSection k.name) = some (.bool k) := by
  cases k <;> decide

lemma parseTomlArray_trim (s : Text) : parseTomlArray (trim s) = parseTomlArray s := by
  have htrim : trim (trim s) = trim s :=
    trimBy_eq_self (fun _ => head?_trimBy) (fun _ => getLast?_trimBy)
  rw [parseTomlArray, htrim, parseTomlArray]

lemma foldl_continuation {lines : List Text} (h : ∀ line ∈ lines, Toml.Continuation line)
    (state : Text × Policy) : lines.foldl (readPolicyLine lower) state = state := by
  induction lines generalizing state with
  | nil => rfl
  | cons line lines ih =>
    rw [foldl_cons, readPolicyLine_continuation lower (h line mem_cons_self)]
    exact ih (fun l hl => h l (mem_cons_of_mem _ hl)) state

lemma newline_not_mem_key (h : BareKey key) : '\n' ∉ key ++ " = " := by
  simp [h.not_mem (c := '\n') (by decide) (by decide)]

lemma foldl_assign {key value : Text} (hkey : BareKey key) (hvalue : '\n' ∉ value)
    (state : Text × Policy) :
    ((key ++ " = " ++ value).splitOn '\n').foldl (readPolicyLine lower) state =
      (state.1, applyConfigValue lower state.2 (qualify state.1 key) (trim value)) := by
  have hline : '\n' ∉ key ++ " = " ++ value := by
    rw [mem_append, not_or]
    exact ⟨newline_not_mem_key hkey, hvalue⟩
  rw [splitOn_eq_singleton hline]
  exact readPolicyLine_assign lower hkey value state

lemma foldl_array (hkey : BareKey key) (a : Toml.Array) (state : Text × Policy) :
    ((key ++ " = " ++ a.text).splitOn '\n').foldl (readPolicyLine lower) state =
      (state.1, applyConfigValue lower state.2 (qualify state.1 key) (trim a.firstLine)) := by
  obtain ⟨rest, hrest⟩ := exists_splitOn_eq_cons '\n' a.text
  have hfurther := a.continuation_of_mem_tail
  rw [hrest, tail_cons] at hfurther
  rw [splitOn_append_of_not_mem (newline_not_mem_key hkey), hrest, modifyHead_cons,
    foldl_cons, foldl_continuation lower hfurther]
  exact readPolicyLine_assign lower hkey a.firstLine state

lemma foldl_setting {tomlSection : Text} (setting : Setting tomlSection) (policy : Policy) :
    (setting.text.splitOn '\n').foldl (readPolicyLine lower) (tomlSection, policy) =
      (tomlSection, setting.apply lower policy) := by
  cases setting with
  | blank => rfl
  | comment note oneLine =>
    have hline : '\n' ∉ '#' :: note := by simp [oneLine]
    have hhead := Toml.head?_trim_cons (c := '#') (by decide) note
    rw [Setting.text, splitOn_eq_singleton hline, foldl_cons, foldl_nil, readPolicyLine]
    simp only [hhead, or_true, if_true]
    rfl
  | list k here value =>
    have hkey : ConfigKey.ofText (qualify tomlSection k.name) = some (.list k) :=
      here ▸ ofText_list k
    rw [Setting.text, foldl_array lower (bareKey_listName k), applyConfigValue, hkey]
    simp only [ConfigKey.apply, parseTomlArray_trim, Setting.apply]
  | bool k here value remark =>
    have hkey : ConfigKey.ofText (qualify tomlSection k.name) = some (.bool k) :=
      here ▸ ofText_bool k
    have hvalue : '\n' ∉ boolText value ++ Toml.commentText remark := by
      rw [mem_append, not_or]
      exact ⟨by cases value <;> decide, Toml.newline_not_mem_commentText remark⟩
    rw [Setting.text, foldl_assign lower (bareKey_boolName k) hvalue, applyConfigValue, hkey]
    rfl
  | scalar key value bare oneLine other =>
    exact foldl_assign lower bare oneLine (tomlSection, policy)

lemma foldl_settingsText {tomlSection : Text} (settings : List (Setting tomlSection)) (rest : Text)
    (policy : Policy) :
    ((Document.settingsText settings ++ rest).splitOn '\n').foldl (readPolicyLine lower)
        (tomlSection, policy) =
      (rest.splitOn '\n').foldl (readPolicyLine lower)
        (tomlSection, settings.foldl (fun p st => st.apply lower p) policy) := by
  induction settings generalizing policy with
  | nil => rfl
  | cons setting settings ih =>
    have hcons : Document.settingsText (setting :: settings) ++ rest =
        setting.text ++ '\n' :: (Document.settingsText settings ++ rest) := by
      simp [Document.settingsText]
    rw [hcons, splitOn_append_cons_self, foldl_append, foldl_setting, ih]
    rfl

lemma foldl_sections (sections : List TomlSection) (state : Text × Policy) :
    (((sections.flatMap fun s =>
        '[' :: s.name ++ ']' :: '\n' :: Document.settingsText s.settings).splitOn '\n').foldl
          (readPolicyLine lower) state).2 =
      (sections.flatMap fun s => s.settings.map (Sigma.mk s.name)).foldl
        (fun p st => st.2.apply lower p) state.2 := by
  induction sections generalizing state with
  | nil => rfl
  | cons s sections ih =>
    have hheader : '\n' ∉ '[' :: s.name ++ [']'] := by
      simp [s.bare.not_mem (c := '\n') (by decide) (by decide)]
    have hcons : ((s :: sections).flatMap fun s =>
        '[' :: s.name ++ ']' :: '\n' :: Document.settingsText s.settings) =
          ('[' :: s.name ++ [']']) ++ '\n' :: (Document.settingsText s.settings ++
            sections.flatMap fun s =>
              '[' :: s.name ++ ']' :: '\n' :: Document.settingsText s.settings) := by
      simp
    rw [hcons, splitOn_append_cons_self, splitOn_eq_singleton hheader, foldl_append,
      foldl_cons, foldl_nil, readPolicyLine_header lower s.bare, foldl_settingsText, ih,
      flatMap_cons, foldl_append, foldl_map]

lemma parsePolicyToml_text (doc : Document) :
    parsePolicyToml lower doc.text = doc.settings.foldl (fun p st => st.2.apply lower p) {} := by
  have hcr : ∀ (state : Text × Policy) line,
      readPolicyLine lower state (stripCr line) = readPolicyLine lower state line := by
    intro state line
    have htrim : trim (stripCr line) = trim line := by
      unfold stripCr
      split_ifs with hlast
      · conv_rhs => rw [← dropLast_append_getLast? _ hlast]
        exact (trimBy_append_right (by decide)).symm
      · rfl
    rw [readPolicyLine, htrim, readPolicyLine]
  rw [parsePolicyToml, foldl_lines hcr (fun _ => rfl), Document.text, foldl_settingsText,
    foldl_sections, Document.settings, foldl_append, foldl_map]

end Lines

/-! ### What a file says -/

def Setting.array? {tomlSection : Text} (k : ListKey) : Setting tomlSection → Option Toml.Array
  | .list k' _ value => if k' = k then some value else none
  | _ => none

def Setting.bool? {tomlSection : Text} (k : BoolKey) :
    Setting tomlSection → Option (Bool × Option Toml.Comment)
  | .bool k' _ value remark => if k' = k then some (value, remark) else none
  | _ => none

namespace Document

def array? (doc : Document) (k : ListKey) : Option Toml.Array :=
  (doc.settings.filterMap fun st => st.2.array? k).getLast?

def bool? (doc : Document) (k : BoolKey) : Option (Bool × Option Toml.Comment) :=
  (doc.settings.filterMap fun st => st.2.bool? k).getLast?

def strings (doc : Document) (k : ListKey) : List Text :=
  ((doc.array? k).map Toml.Array.values).getD []

end Document

section Meaning

variable {lower : Lowercase}

lemma applyConfigValue_scalar {key : Text} (h : ScalarKey key) (policy : Policy) (raw : Text) :
    (∀ k : ListKey, k.get (applyConfigValue lower policy key raw) = k.get policy) ∧
      ∀ k : BoolKey, k.get (applyConfigValue lower policy key raw) = k.get policy := by
  unfold applyConfigValue
  cases hkey : ConfigKey.ofText key with
  | none => exact ⟨fun k => rfl, fun k => rfl⟩
  | some ck =>
    cases ck with
    | bool k => exact absurd hkey (h.1 k)
    | list k => exact absurd hkey (h.2 k)
    | version | defaultTimeoutMs | crashThreshold | graceSeconds =>
      constructor <;> intro k <;> dsimp only [ConfigKey.apply] <;> split <;> cases k <;> rfl
    | defaultEntry | defaultPattern | theme | fontSize | legacyUefiDrivers | nativePe =>
      constructor <;> intro k <;> cases k <;> rfl

lemma ListKey.get_set (k k' : ListKey) (l : List Text) (policy : Policy) :
    k.get (k'.set l policy) = if k' = k then l else k.get policy := by
  cases k <;> cases k' <;> rfl

lemma BoolKey.get_set (k k' : BoolKey) (b : Bool) (policy : Policy) :
    k.get (k'.set b policy) = if k' = k then b else k.get policy := by
  cases k <;> cases k' <;> rfl

lemma ListKey.get_boolSet (k : ListKey) (k' : BoolKey) (b : Bool) (policy : Policy) :
    k.get (k'.set b policy) = k.get policy := by
  cases k <;> cases k' <;> rfl

lemma BoolKey.get_listSet (k : BoolKey) (k' : ListKey) (l : List Text) (policy : Policy) :
    k.get (k'.set l policy) = k.get policy := by
  cases k <;> cases k' <;> rfl

lemma get_apply_of_array? {tomlSection : Text} (k : ListKey) (policy : Policy)
    (setting : Setting tomlSection) :
    k.get (setting.apply lower policy) =
      ((setting.array? k).map fun a => parseTomlArray a.firstLine).getD (k.get policy) := by
  cases setting with
  | blank => rfl
  | comment note oneLine => rfl
  | list k' here value =>
    rw [Setting.apply, ListKey.get_set, Setting.array?]
    split_ifs <;> rfl
  | bool k' here value remark => exact k.get_boolSet k' _ policy
  | scalar key value bare oneLine other => exact (applyConfigValue_scalar other policy _).1 k

def readBool (k : BoolKey) (written : Bool × Option Toml.Comment) : Bool :=
  k.read (trimMatches '"' (trim (boolText written.1 ++ Toml.commentText written.2)))

lemma get_apply_of_bool? {tomlSection : Text} (k : BoolKey) (policy : Policy)
    (setting : Setting tomlSection) :
    k.get (setting.apply lower policy) =
      ((setting.bool? k).map (readBool k)).getD (k.get policy) := by
  cases setting with
  | blank => rfl
  | comment note oneLine => rfl
  | list k' here value => exact k.get_listSet k' _ policy
  | bool k' here value remark =>
    rw [Setting.apply, BoolKey.get_set, Setting.bool?]
    split_ifs with hk
    · subst hk
      rfl
    · rfl
  | scalar key value bare oneLine other => exact (applyConfigValue_scalar other policy _).2 k

lemma parse_list (doc : Document) (k : ListKey) :
    k.get (parsePolicyToml lower doc.text) =
      ((doc.array? k).map fun a => parseTomlArray a.firstLine).getD [] := by
  have hdefault : k.get {} = [] := by cases k <;> rfl
  have hfold : k.get (doc.settings.foldl (fun p st => st.2.apply lower p) {}) =
      ((doc.array? k).map fun a => parseTomlArray a.firstLine).getD (k.get {}) :=
    get_foldl_eq (fun p st => get_apply_of_array? k p st.2) doc.settings {}
  rw [parsePolicyToml_text, hfold, hdefault]

lemma parse_bool (doc : Document) (k : BoolKey) :
    k.get (parsePolicyToml lower doc.text) = ((doc.bool? k).map (readBool k)).getD (k.get {}) := by
  rw [parsePolicyToml_text]
  exact get_foldl_eq (fun p st => get_apply_of_bool? k p st.2) doc.settings {}

lemma BoolKey.read_of_hash (k : BoolKey) {t : Text} (h : '#' ∈ t) : k.read t = k.read [] := by
  have htrue : t ≠ "true" := by
    rintro rfl
    exact absurd h (by decide)
  have hfalse : t ≠ "false" := by
    rintro rfl
    exact absurd h (by decide)
  cases k with
  | selfInstall => exact bne_iff_ne.mpr hfalse
  | _ => exact beq_eq_false_iff_ne.mpr htrue

lemma readBool_eq_iff (k : BoolKey) (value : Bool) (remark : Option Toml.Comment) :
    readBool k (value, remark) = value ↔ remark = none ∨ value = k.read [] := by
  cases remark with
  | none => cases k <;> cases value <;> decide
  | some comment =>
    have hhash : '#' ∈
        trimMatches '"' (trim (boolText value ++ Toml.commentText (some comment))) := by
      rw [← count_pos_iff, trimMatches_eq_trimBy, trim_eq_trimBy, count_trimBy (by decide),
        count_trimBy (by decide), count_pos_iff]
      simp [Toml.commentText, Toml.Comment.text]
    rw [readBool, k.read_of_hash hhash]
    simp [eq_comm]

/-! ### The documented decision -/

/-- What the guide says of a path: an allowlist that is there names it, and the denylist does not,
where upper and lower case are the same. -/
def Documented (lower : Lowercase) (allowlist denylist : List Text) (path : Text) : Prop :=
  ListsPermit
    (fun pattern => (Glob.ofPattern '*' (lower.apply pattern)).Matches (lower.apply path))
    allowlist denylist

/-- The filter knows the case of a path and a pattern: the pattern has a star, or both are ASCII. -/
def CaseKnown (path pattern : Text) : Prop :=
  '*' ∈ pattern ∨ ((∀ c ∈ path, c.toNat < 128) ∧ ∀ c ∈ pattern, c.toNat < 128)

lemma matchesEntry_iff_of_caseKnown {path pattern : Text} (h : CaseKnown path pattern) :
    matchesEntry lower path pattern = true ↔
      (Glob.ofPattern '*' (lower.apply pattern)).Matches (lower.apply path) := by
  rcases h with hstar | ⟨hpath, hpattern⟩
  · rw [matchesEntry, if_pos hstar, pathMatchesPattern_eq_true_iff]
  · rw [matchesEntry_eq_true_iff_of_ascii lower hpath hpattern, lower.ascii _ hpath,
      lower.ascii _ hpattern]

lemma ListsPermit.imp {names names' : Text → Prop} {allowlist denylist : List Text}
    (h : ListsPermit names allowlist denylist) (hallow : ∀ q ∈ allowlist, names q → names' q)
    (hdeny : ∀ q ∈ denylist, names' q → names q) : ListsPermit names' allowlist denylist := by
  refine ⟨fun hne => ?_, fun q hq hname => h.deny q hq (hdeny q hq hname)⟩
  obtain ⟨q, hq, hname⟩ := h.allow hne
  exact ⟨q, hq, hallow q hq hname⟩

lemma ListsPermit.congr {names names' : Text → Prop} {allowlist denylist : List Text}
    (hallow : ∀ q ∈ allowlist, names q ↔ names' q) (hdeny : ∀ q ∈ denylist, names q ↔ names' q) :
    ListsPermit names allowlist denylist ↔ ListsPermit names' allowlist denylist :=
  ⟨fun h => h.imp (fun q hq => (hallow q hq).mp) fun q hq => (hdeny q hq).mpr,
    fun h => h.imp (fun q hq => (hallow q hq).mpr) fun q hq => (hdeny q hq).mp⟩

/-- The array of the key has a form that is read as it is meant. -/
def Document.ReadAsMeant (doc : Document) (k : ListKey) : Prop :=
  ∀ a, doc.array? k = some a → PlainArray a ∨ BareBracket a

lemma parse_list_eq_strings_iff (doc : Document) (k : ListKey) :
    k.get (parsePolicyToml lower doc.text) = doc.strings k ↔ doc.ReadAsMeant k := by
  rw [parse_list, Document.strings, Document.ReadAsMeant]
  cases doc.array? k with
  | none => simp
  | some a => simpa using parseTomlArray_eq_values_iff a

lemma allowed_iff_documented {doc : Document} (hallow : doc.ReadAsMeant .allowlist)
    (hdeny : doc.ReadAsMeant .denylist) {path : Text}
    (hcase : ∀ k ∈ [ListKey.allowlist, ListKey.denylist], ∀ q ∈ doc.strings k, CaseKnown path q) :
    (parsePolicyToml lower doc.text).allowed lower path = true ↔
      Documented lower (doc.strings .allowlist) (doc.strings .denylist) path := by
  have hallowlist : (parsePolicyToml lower doc.text).allowlist = doc.strings .allowlist :=
    (parse_list_eq_strings_iff doc .allowlist).mpr hallow
  have hdenylist : (parsePolicyToml lower doc.text).denylist = doc.strings .denylist :=
    (parse_list_eq_strings_iff doc .denylist).mpr hdeny
  rw [Policy.allowed_eq_true_iff, hallowlist, hdenylist]
  exact ListsPermit.congr
    (fun q hq => matchesEntry_iff_of_caseKnown (hcase .allowlist (by simp) q hq))
    (fun q hq => matchesEntry_iff_of_caseKnown (hcase .denylist (by simp) q hq))

end Meaning

/-- A file in the documented style. A list comes back exactly where its array is read as it is
meant, and the filter then decides every path as the guide says; a boolean comes back exactly where
no comment is behind it, or it is what other text is read as. -/
theorem parsePolicyToml_documented (lower : Lowercase) (doc : Document) :
    (∀ k : ListKey, k.get (parsePolicyToml lower doc.text) = doc.strings k ↔ doc.ReadAsMeant k) ∧
    (doc.ReadAsMeant .allowlist → doc.ReadAsMeant .denylist → ∀ path : Text,
      (∀ k ∈ [ListKey.allowlist, ListKey.denylist], ∀ q ∈ doc.strings k, CaseKnown path q) →
        ((parsePolicyToml lower doc.text).allowed lower path = true ↔
          Documented lower (doc.strings .allowlist) (doc.strings .denylist) path)) ∧
    ∀ (k : BoolKey) (value : Bool) (remark : Option Toml.Comment),
      doc.bool? k = some (value, remark) →
        (k.get (parsePolicyToml lower doc.text) = value ↔ remark = none ∨ value = k.read []) := by
  refine ⟨parse_list_eq_strings_iff doc, fun hallow hdeny path hcase =>
    allowed_iff_documented hallow hdeny hcase, fun k value remark hbool => ?_⟩
  rw [parse_bool, hbool]
  exact readBool_eq_iff k value remark

/-! ### The example of the guide -/

def itemOf (string : Toml.Quoted) : Toml.Item :=
  ⟨⟨[], by simp⟩, string, ⟨[], by simp⟩⟩

/-- The denylist of the guide, with its escaped backslashes, and a boolean with a comment. -/
def guideDocument : Document where
  root := []
  sections :=
    [{ name := "security", bare := ⟨by decide, by decide⟩,
       settings :=
        [.list .denylist rfl
          ⟨[itemOf (.basic "\\EFI\\Linux\\vmlinuz-6.18.0-broken" (by decide))], none, none⟩,
         .bool .secureBootRequired rfl true
          (some ⟨" ", " only signed kernels", by decide, by decide⟩)] }]

def brokenKernel : Text := "\\EFI\\Linux\\vmlinuz-6.18.0-broken"

/-- The kernel that the guide denies is allowed, and the boolean is lost. -/
theorem guideDocument_misread :
    guideDocument.text =
      ("[security]\n" ++
        "denylist = [\"\\\\EFI\\\\Linux\\\\vmlinuz-6.18.0-broken\"]\n" ++
        "secure_boot_required = true # only signed kernels\n").toList ∧
    (parsePolicyToml .asciiOnly guideDocument.text).allowed .asciiOnly brokenKernel = true ∧
    ¬ Documented .asciiOnly (guideDocument.strings .allowlist) (guideDocument.strings .denylist)
      brokenKernel ∧
    (parsePolicyToml .asciiOnly guideDocument.text).secureBootRequired = false := by
  refine ⟨by decide +kernel, by decide +kernel, fun h => ?_, by decide +kernel⟩
  exact h.deny brokenKernel (by decide +kernel) (by decide +kernel)

def literalArray : Toml.Array :=
  ⟨[itemOf (.literal brokenKernel (by decide) (by decide))], none, none⟩

def literalDocument : Document where
  root := []
  sections :=
    [{ name := "security", bare := ⟨by decide, by decide⟩,
       settings :=
        [.list .denylist rfl literalArray, .bool .secureBootRequired rfl true none] }]

lemma literalArray_plain : PlainArray literalArray where
  comment := rfl
  oneLine := by decide
  items i hi := by
    rw [literalArray, mem_singleton] at hi
    subst hi
    exact .literal ⟨by decide, by decide, by decide, by decide⟩

/-- They are read as the guide says. -/
theorem literalDocument_read :
    ((parsePolicyToml .asciiOnly literalDocument.text).allowed .asciiOnly brokenKernel = true ↔
      Documented .asciiOnly (literalDocument.strings .allowlist) (literalDocument.strings .denylist)
        brokenKernel) ∧
      (parsePolicyToml .asciiOnly literalDocument.text).secureBootRequired = true := by
  have hallow : literalDocument.ReadAsMeant .allowlist := by
    intro a ha
    cases ha
  have hdeny : literalDocument.ReadAsMeant .denylist := by
    intro a ha
    have harray : literalArray = a := Option.some.inj ha
    exact .inl (harray ▸ literalArray_plain)
  have hcase : ∀ k ∈ [ListKey.allowlist, ListKey.denylist], ∀ q ∈ literalDocument.strings k,
      CaseKnown brokenKernel q := by
    intro k hk q hq
    rcases mem_pair.mp hk with rfl | rfl
    · cases hq
    · have hkernel : q = brokenKernel := mem_singleton.mp hq
      rw [hkernel]
      exact .inr ⟨by decide, by decide⟩
  obtain ⟨-, hdecides, hbool⟩ := parsePolicyToml_documented .asciiOnly literalDocument
  exact ⟨hdecides hallow hdeny brokenKernel hcase,
    (hbool .secureBootRequired true none rfl).mpr (.inl rfl)⟩

end LamBoot
