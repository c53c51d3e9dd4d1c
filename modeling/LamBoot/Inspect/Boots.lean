import LamBoot.Inspect.Fragments
import LamBoot.Inspect.Views

/-!
# A log of several boots

A boot appends to the log of those before it and numbers its events from zero again. The inspector
sorts the events of all boots by these numbers.
-/

namespace LamBoot.Inspect

open List Text Python

def bootsText (boots : List (List TrustEvent)) : Text :=
  boots.flatMap (serializeEvents · 0)

lemma bootsText_eq_logText (boots : List (List TrustEvent)) :
    bootsText boots = logText (boots.flatMap (numbered 0)) := by
  simp only [bootsText, logText, serializeEvents_eq_logText, flatMap_assoc]

def firstRecord (name : Text) (entries : List (Nat × TrustEvent)) : Option (Nat × TrustEvent) :=
  (records name entries).argmin Prod.fst

def firstNote (name : Text) (entries : List (Nat × TrustEvent)) : Text :=
  ((firstRecord name entries).map fun e => e.2.note).getD []

def noneFound (py : Python) (entries : List (Nat × TrustEvent)) : Bool :=
  (firstRecord "bls_entries_found" entries).any (fun e => searchWord py "count=0" e.2.note) ||
    (firstRecord "entries_discovered" entries).any fun e => searchWord py "total=0" e.2.note

def listNames : List Text :=
  (["preflight_issue"] : List Text) ++ failureEvents ++
    (["kernel_measured", "cmdline_measured"] : List Text)

/-- Boots that do not change what is concluded about the one after them. -/
structure Undisturbed (py : Python) (earlier current : List (Nat × TrustEvent)) : Prop where
  /-- Each image they verified or loaded has a number that the last boot reaches with one. -/
  last : ∀ name ∈ lastNames, ∀ e ∈ records name earlier, ∃ e' ∈ records name current, e.1 ≤ e'.1
  /-- Where the first start is one of theirs, it has the note of the last boot. -/
  start : ∀ e ∈ firstRecord "boot_start" earlier,
    (∀ e' ∈ firstRecord "boot_start" current, e.1 ≤ e'.1) →
      e.2.note = firstNote "boot_start" current
  /-- With them, entries are missing as often as without. -/
  noEntries : noneFound py (earlier ++ current) = noneFound py current
  /-- They fell back to the firmware only if the last boot did, or loaded an image itself. -/
  fallback : records "firmware_loadimage" earlier ≠ [] →
    records "image_loaded_native" current ≠ [] ∨ records "firmware_loadimage" current ≠ []
  /-- They had no TPM only if the last boot had none. -/
  skipped : (∃ e ∈ records "kernel_measurement_skipped" earlier, contains "no_tpm" e.2.note) →
    ∃ e ∈ records "kernel_measurement_skipped" current, contains "no_tpm" e.2.note
  /-- They had no failures and no measurements. -/
  list : ∀ name ∈ listNames, records name earlier = []

/-! ### The views of a log -/

section Log

variable (py : Python) {name : Text} (entries : List (Nat × TrustEvent))

def readLog (entries : List (Nat × TrustEvent)) : ParseResult :=
  parse py (utf8 (logText entries))

lemma byEvent_readLog (hname : name ≠ []) :
    ((readLog py entries).byEvent name).map ParsedEvent.unplaced =
      ((records name entries).sortBy Prod.fst).map readRecord :=
  filter_parse_logText py hname entries

lemma getLast?_byEvent_readLog (hname : name ≠ []) :
    ((readLog py entries).byEvent name).getLast?.map ParsedEvent.unplaced =
      ((records name entries).sortBy Prod.fst).getLast?.map readRecord := by
  rw [← getLast?_map, byEvent_readLog py entries hname, getLast?_map]

lemma note_first_readLog (hname : name ≠ []) :
    ((readLog py entries).first name).map ParsedEvent.note =
      (firstRecord name entries).map fun e => e.2.note := by
  have hunplaced : ∀ o : Option ParsedEvent,
      o.map ParsedEvent.note = (o.map ParsedEvent.unplaced).map ParsedEvent.note := by
    intro o
    cases o <;> rfl
  rw [ParseResult.first, hunplaced, ← head?_map, byEvent_readLog py entries hname,
    head?_map, head?_sortBy, Option.map_map]
  rfl

lemma length_byEvent_readLog (hname : name ≠ []) :
    ((readLog py entries).byEvent name).length = (records name entries).length := by
  have hlength := congrArg length (byEvent_readLog py entries hname)
  rwa [length_map, length_map, length_sortBy] at hlength

lemma byEvent_readLog_eq_nil_iff (hname : name ≠ []) :
    (readLog py entries).byEvent name = [] ↔ records name entries = [] := by
  rw [← length_eq_zero_iff, length_byEvent_readLog py entries hname, length_eq_zero_iff]

lemma any_note_first_readLog (hname : name ≠ []) (p : Text → Bool) :
    ((readLog py entries).first name).any (fun e => p e.note) =
      (firstRecord name entries).any fun e => p e.2.note := by
  have hmap : ∀ {α : Type} (o : Option α) (f : α → Text), (o.map f).any p = o.any (p ∘ f) := by
    intro α o f
    cases o <;> rfl
  have hnote := congrArg (Option.any p) (note_first_readLog py entries hname)
  rwa [hmap, hmap] at hnote

lemma noneFound_readLog :
    (((readLog py entries).first "bls_entries_found").any
        (fun e => searchWord py "count=0" e.note) ||
      ((readLog py entries).first "entries_discovered").any fun e =>
        searchWord py "total=0" e.note) = noneFound py entries := by
  rw [any_note_first_readLog py entries (by decide), any_note_first_readLog py entries (by decide)]
  rfl

lemma any_byEvent_readLog (hname : name ≠ []) (p : Text → Bool) :
    ((readLog py entries).byEvent name).any (fun e => p e.note) =
      (records name entries).any fun e => p e.2.note := by
  have hany := congrArg (any · fun e : ParsedEvent => p e.note)
    (byEvent_readLog py entries hname)
  simp only [any_map] at hany
  have hperm : ((records name entries).sortBy Prod.fst).Perm (records name entries) :=
    sortBy_perm
  rw [← hperm.any_eq]
  exact hany

lemma startNote_readLog : (readLog py entries).startNote = firstNote "boot_start" entries := by
  rw [ParseResult.startNote, note_first_readLog py entries (by decide)]
  rfl

end Log

/-! ### What is appended to what was there -/

section Append

variable (py : Python) {name : Text} {earlier current : List (Nat × TrustEvent)}

lemma last_append_iff (hname : name ≠ []) :
    ((readLog py (earlier ++ current)).byEvent name).getLast?.map ParsedEvent.unplaced =
        ((readLog py current).byEvent name).getLast?.map ParsedEvent.unplaced ↔
      ∀ e ∈ records name earlier, ∃ e' ∈ records name current, e.1 ≤ e'.1 := by
  rw [getLast?_byEvent_readLog py _ hname, getLast?_byEvent_readLog py _ hname, records_append]
  constructor
  · intro h e he
    by_contra hnone
    push Not at hnone
    -- The last of all has a number that no event of the last boot has.
    have hmem : e ∈ records name earlier ++ records name current := mem_append_left _ he
    cases hlast : ((records name earlier ++ records name current).sortBy Prod.fst).getLast? with
    | none =>
      rw [getLast?_eq_none_iff, sortBy_eq_nil_iff] at hlast
      rw [hlast] at hmem
      cases hmem
    | some g =>
      rw [hlast, Option.map_some] at h
      obtain ⟨c, hc, hcg⟩ := Option.map_eq_some_iff.mp h.symm
      have hseq : (c.1 : Int) = g.1 := congrArg ParsedEvent.seq hcg
      have hlt := hnone c (mem_of_mem_getLast?_sortBy hc)
      have hle := le_of_mem_getLast?_sortBy hlast hmem
      omega
  · intro h
    rw [getLast?_sortBy_append h]

lemma firstRecord_append : firstRecord name (earlier ++ current) =
    match firstRecord name earlier, firstRecord name current with
    | none, o => o
    | some a, none => some a
    | some a, some b => if b.1 < a.1 then some b else some a := by
  rw [firstRecord, records_append, argmin_append]
  unfold firstRecord
  cases (records name earlier).argmin Prod.fst with
  | none => rfl
  | some a =>
    cases (records name current).argmin Prod.fst with
    | none => rfl
    | some b => exact ite_congr rfl (fun _ => rfl) fun _ => rfl

lemma firstNote_append_iff :
    firstNote name (earlier ++ current) = firstNote name current ↔
      ∀ e ∈ firstRecord name earlier, (∀ e' ∈ firstRecord name current, e.1 ≤ e'.1) →
        e.2.note = firstNote name current := by
  rw [firstNote, firstNote, firstRecord_append]
  cases firstRecord name earlier with
  | none => simp
  | some a =>
    cases firstRecord name current with
    | none => simp
    | some b =>
      by_cases hlt : b.1 < a.1
      · simp [hlt]
      · simp [hlt, Nat.le_of_not_lt hlt]

lemma flatMap_byEvent_append_iff {α : Type} {names : List Text} (hnames : ∀ name ∈ names, name ≠ [])
    {f : Text → ParsedEvent → α} (hf : ∀ name e, f name e.unplaced = f name e) :
    (names.flatMap fun name => ((readLog py (earlier ++ current)).byEvent name).map (f name)) =
        (names.flatMap fun name => ((readLog py current).byEvent name).map (f name)) ↔
      ∀ name ∈ names, records name earlier = [] := by
  constructor
  · intro h name hname
    by_contra hne
    have hlength := congrArg length h
    simp only [length_flatMap, length_map] at hlength
    refine (sum_lt_sum _ _ (fun n hn => ?_) ⟨name, hname, ?_⟩).ne' hlength
    · rw [length_byEvent_readLog py _ (hnames n hn), length_byEvent_readLog py _ (hnames n hn),
        records_append, length_append]
      exact Nat.le_add_left _ _
    · rw [length_byEvent_readLog py _ (hnames name hname),
        length_byEvent_readLog py _ (hnames name hname), records_append, length_append]
      exact Nat.lt_add_of_pos_left (length_pos_iff.mpr hne)
  · intro h
    refine flatMap_congr fun name hname => map_eq_of_unplaced (hf name) ?_
    rw [byEvent_readLog py _ (hnames name hname), byEvent_readLog py _ (hnames name hname),
      records_append, h name hname, nil_append]

lemma map_byEvent_append_iff {α : Type} (hname : name ≠ []) {f : ParsedEvent → α}
    (hf : ∀ e, f e.unplaced = f e) :
    ((readLog py (earlier ++ current)).byEvent name).map f =
        ((readLog py current).byEvent name).map f ↔ records name earlier = [] := by
  have hone : ([name].flatMap fun n => ((readLog py (earlier ++ current)).byEvent n).map f) =
      ([name].flatMap fun n => ((readLog py current).byEvent n).map f) ↔
        ∀ n ∈ [name], records n earlier = [] :=
    flatMap_byEvent_append_iff py (by simpa using hname) fun _ => hf
  simpa using hone

lemma rulePreflight_append_iff :
    rulePreflight (readLog py (earlier ++ current)) = rulePreflight (readLog py current) ↔
      records "preflight_issue" earlier = [] :=
  map_byEvent_append_iff py (by decide) fun _ => rfl

lemma ruleExplicitFailures_append_iff :
    ruleExplicitFailures (readLog py (earlier ++ current)) =
        ruleExplicitFailures (readLog py current) ↔
      ∀ name ∈ failureEvents, records name earlier = [] :=
  flatMap_byEvent_append_iff py (by decide) fun _ _ => rfl

lemma measurements_append_iff :
    measurements py (readLog py (earlier ++ current)) = measurements py (readLog py current) ↔
      ∀ name ∈ (["kernel_measured", "cmdline_measured"] : List Text),
        records name earlier = [] :=
  flatMap_byEvent_append_iff py (by decide) fun _ _ => rfl

lemma ite_singleton_eq_iff {α : Type} {p q : Prop} [Decidable p] [Decidable q] {a : α} :
    ((if p then [a] else []) = if q then [a] else []) ↔ (p ↔ q) := by
  by_cases hp : p <;> by_cases hq : q <;> simp [hp, hq]

lemma ruleNoEntries_append_iff :
    ruleNoEntries py (readLog py (earlier ++ current)) = ruleNoEntries py (readLog py current) ↔
      noneFound py (earlier ++ current) = noneFound py current := by
  unfold ruleNoEntries
  dsimp only
  rw [noneFound_readLog, noneFound_readLog, ite_singleton_eq_iff, ← Bool.eq_iff_iff]

lemma ruleMeasuredSkipped_append_iff :
    ruleMeasuredSkipped (readLog py (earlier ++ current)) =
        ruleMeasuredSkipped (readLog py current) ↔
      ((∃ e ∈ records "kernel_measurement_skipped" earlier, contains "no_tpm" e.2.note) →
        ∃ e ∈ records "kernel_measurement_skipped" current, contains "no_tpm" e.2.note) := by
  unfold ruleMeasuredSkipped
  rw [any_byEvent_readLog py _ (by decide), any_byEvent_readLog py _ (by decide),
    ite_singleton_eq_iff, records_append, any_append, Bool.or_eq_true, any_eq_true, any_eq_true]
  exact or_iff_right_iff_imp

lemma native_of_last (h : ∀ name ∈ lastNames, ∀ e ∈ records name earlier,
    ∃ e' ∈ records name current, e.1 ≤ e'.1)
    (hearlier : records "image_loaded_native" earlier ≠ []) :
    records "image_loaded_native" current ≠ [] := by
  obtain ⟨e, he⟩ := exists_mem_of_ne_nil _ hearlier
  obtain ⟨e', he', -⟩ := h "image_loaded_native" (by decide) e he
  exact ne_nil_of_mem he'

lemma ruleFirmwareFallback_append_iff (h : records "image_loaded_native" earlier ≠ [] →
      records "image_loaded_native" current ≠ []) :
    ruleFirmwareFallback (readLog py (earlier ++ current)) =
        ruleFirmwareFallback (readLog py current) ↔
      (records "firmware_loadimage" earlier ≠ [] →
        records "image_loaded_native" current ≠ [] ∨
          records "firmware_loadimage" current ≠ []) := by
  have hloaded : ∀ entries, ((readLog py entries).findLoadedNative.isNone = true) ↔
      records "image_loaded_native" entries = [] := by
    intro entries
    rw [ParseResult.findLoadedNative, Option.isNone_iff_eq_none, getLast?_eq_none_iff,
      byEvent_readLog_eq_nil_iff py entries (by decide)]
  have hfirmware : ∀ entries, (readLog py entries).byEvent "firmware_loadimage" ≠ [] ↔
      records "firmware_loadimage" entries ≠ [] := fun entries =>
    (byEvent_readLog_eq_nil_iff py entries (by decide)).not
  unfold ruleFirmwareFallback
  rw [ite_singleton_eq_iff, hloaded, hloaded, hfirmware, hfirmware, records_append,
    records_append, append_eq_nil_iff, ne_eq, append_eq_nil_iff]
  generalize records "image_loaded_native" earlier = native at h
  generalize records "image_loaded_native" current = native' at h
  generalize records "firmware_loadimage" earlier = firmware
  generalize records "firmware_loadimage" current = firmware'
  tauto

lemma startNote_append_iff :
    (readLog py (earlier ++ current)).startNote = (readLog py current).startNote ↔
      ∀ e ∈ firstRecord "boot_start" earlier,
        (∀ e' ∈ firstRecord "boot_start" current, e.1 ≤ e'.1) →
          e.2.note = firstNote "boot_start" current := by
  rw [startNote_readLog, startNote_readLog, firstNote_append_iff]

lemma conclusions_append_iff :
    conclusions py (readLog py (earlier ++ current)) = conclusions py (readLog py current) ↔
      Undisturbed py earlier current := by
  have hnames : ∀ name ∈ lastNames, name ≠ [] := by decide
  rw [conclusions_eq_iff]
  constructor
  · intro h
    have hlast : ∀ name ∈ lastNames, ∀ e ∈ records name earlier,
        ∃ e' ∈ records name current, e.1 ≤ e'.1 := fun name hname =>
      (last_append_iff py (hnames name hname)).mp (h.last name hname)
    refine ⟨hlast, (startNote_append_iff py).mp h.start,
      (ruleNoEntries_append_iff py).mp h.noEntries,
      (ruleFirmwareFallback_append_iff py (native_of_last hlast)).mp h.fallback,
      (ruleMeasuredSkipped_append_iff py).mp h.skipped, fun name hname => ?_⟩
    rcases mem_append.mp hname with hname | hname
    · rcases mem_append.mp hname with hname | hname
      · rw [mem_singleton.mp hname]
        exact (rulePreflight_append_iff py).mp h.preflight
      · exact (ruleExplicitFailures_append_iff py).mp h.failures name hname
    · exact (measurements_append_iff py).mp h.measured name hname
  · intro h
    exact ⟨fun name hname => (last_append_iff py (hnames name hname)).mpr (h.last name hname),
      (startNote_append_iff py).mpr h.start,
      (rulePreflight_append_iff py).mpr (h.list "preflight_issue" (by decide)),
      (ruleNoEntries_append_iff py).mpr h.noEntries,
      (ruleFirmwareFallback_append_iff py (native_of_last h.last)).mpr h.fallback,
      (ruleMeasuredSkipped_append_iff py).mpr h.skipped,
      (ruleExplicitFailures_append_iff py).mpr fun name hname =>
        h.list name (mem_append_left _ (mem_append_right _ hname)),
      (measurements_append_iff py).mpr fun name hname =>
        h.list name (mem_append_right _ hname)⟩

end Append

/-- After any boots, the same is concluded about the last one as from its events alone exactly if
the boots before it do not disturb it. -/
theorem conclusions_bootsText_iff (py : Python) (earlier : List (List TrustEvent))
    (current : List TrustEvent) :
    conclusions py (parse py (utf8 (bootsText (earlier ++ [current])))) =
        conclusions py (parse py (utf8 (serializeEvents current 0))) ↔
      Undisturbed py (earlier.flatMap (numbered 0)) (numbered 0 current) := by
  rw [bootsText_eq_logText, serializeEvents_eq_logText, flatMap_append, flatMap_singleton]
  exact conclusions_append_iff py

/-! ### Two boots -/

def shortBoot (note path : Text) (others : Nat) : List TrustEvent :=
  [⟨"boot_start", [], 0, [], [], [], note, []⟩] ++
    replicate others ⟨"volume_mounted", [], 0, [], [], [], [], []⟩ ++
    [⟨"image_verified", path, 0, [], vShimMok, [], [], []⟩]

def crashedBoots : List (List TrustEvent) :=
  [shortBoot "crash_counter=0" "/old" 1, shortBoot "crash_counter=2" "/new" 0]

section Crashed

variable (py : Python)

lemma findVerifiedLoad_crashedBoots :
    (readLog py (crashedBoots.flatMap (numbered 0))).findVerifiedLoad.map ParsedEvent.unplaced =
      some (readRecord (2, ⟨imageVerified, "/old", 0, [], vShimMok, [], [], []⟩)) := by
  rw [ParseResult.findVerifiedLoad, getLast?_byEvent_readLog py _ (by decide),
    getLast?_sortBy (k := 2) (by decide) (by decide)]
  rfl

lemma findVerifiedLoad_lastBoot :
    (readLog py (numbered 0 (shortBoot "crash_counter=2" "/new" 0))).findVerifiedLoad.map
        ParsedEvent.unplaced =
      some (readRecord (1, ⟨imageVerified, "/new", 0, [], vShimMok, [], [], []⟩)) := by
  rw [ParseResult.findVerifiedLoad, getLast?_byEvent_readLog py _ (by decide),
    getLast?_sortBy (k := 1) (by decide) (by decide)]
  rfl

lemma ruleCrashloop_eq_nil_iff {r : ParseResult} {n : Nat}
    (hnumber : searchNumber py "crash_counter=" r.startNote = some n) :
    ruleCrashloop py r = [] ↔ n = 0 := by
  unfold ruleCrashloop
  unfold ParseResult.startNote at hnumber
  cases hfirst : r.first "boot_start" with
  | none =>
    rw [hfirst] at hnumber
    cases hnumber
  | some e =>
    rw [hfirst] at hnumber
    change searchNumber py "crash_counter=" e.note = some n at hnumber
    dsimp only
    rw [hnumber]
    cases n <;> simp

end Crashed

/-- The image of the first boot is taken for the one verified last, and its start for that of the
last boot, so the crashes are not reported. -/
theorem conclusions_of_other_boot :
    let merged := parse .minimal (utf8 (bootsText crashedBoots))
    let alone := parse .minimal
      (utf8 (serializeEvents (shortBoot "crash_counter=2" "/new" 0) 0))
    merged.findVerifiedLoad.map ParsedEvent.path = some "/old".toList ∧
      alone.findVerifiedLoad.map ParsedEvent.path = some "/new".toList ∧
      (attestation .minimal merged).boot = "crash_counter=0".toList ∧
      (attestation .minimal alone).boot = "crash_counter=2".toList ∧
      ruleCrashloop .minimal merged = [] ∧ ruleCrashloop .minimal alone ≠ [] ∧
      conclusions .minimal merged ≠ conclusions .minimal alone := by
  intro merged alone
  have hmerged : merged = readLog .minimal (crashedBoots.flatMap (numbered 0)) := by
    rw [readLog, ← bootsText_eq_logText]
  have halone : alone = readLog .minimal
      (numbered 0 (shortBoot "crash_counter=2" "/new" 0)) := by
    rw [readLog, ← serializeEvents_eq_logText]
  have hstart : merged.startNote = "crash_counter=0".toList := by
    rw [hmerged, startNote_readLog]
    rfl
  have hstart' : alone.startNote = "crash_counter=2".toList := by
    rw [halone, startNote_readLog]
    rfl
  have hpath : ∀ {o : Option ParsedEvent} {e : Nat × TrustEvent},
      o.map ParsedEvent.unplaced = some (readRecord e) →
        o.map ParsedEvent.path = some e.2.path := by
    intro o e ho
    obtain ⟨e', rfl, he'⟩ := Option.map_eq_some_iff.mp ho
    exact congrArg (fun e => some e.path) he'
  have hverified : merged.findVerifiedLoad.map ParsedEvent.path = some "/old".toList := by
    rw [hmerged]
    exact hpath (findVerifiedLoad_crashedBoots .minimal)
  have hverified' : alone.findVerifiedLoad.map ParsedEvent.path = some "/new".toList := by
    rw [halone]
    exact hpath (findVerifiedLoad_lastBoot .minimal)
  have hboot : ∀ r, (attestation .minimal r).boot = r.startNote := fun _ => rfl
  refine ⟨hverified, hverified', (hboot merged).trans hstart, (hboot alone).trans hstart', ?_, ?_,
    ?_⟩
  · refine (ruleCrashloop_eq_nil_iff .minimal (n := 0) ?_).mpr rfl
    rw [hstart]
    exact searchNumber_append_digit .minimal (c := '0') (by decide) rfl
  · refine mt (ruleCrashloop_eq_nil_iff .minimal (n := 2) ?_).mp (by decide)
    rw [hstart']
    exact searchNumber_append_digit .minimal (c := '2') (by decide) rfl
  · intro heq
    have hsame := (conclusions_eq_iff.mp heq).start
    rw [hstart, hstart'] at hsame
    exact absurd hsame (by decide)

end LamBoot.Inspect
