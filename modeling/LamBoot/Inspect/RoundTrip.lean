import LamBoot.Inspect.Parse

/-!
# What the boot loader writes and the inspector reads

The lines of `serialize_events` are found again by `parse`, as long as no field has one of the three
characters that end a line for Python and are not escaped.
-/

namespace LamBoot.Inspect

open List Text Python

def parsedEvent (seq line : Nat) (ev : TrustEvent) : ParsedEvent where
  seq := seq
  event := ev.event
  path := ev.path
  size := ev.size
  sha256 := ev.sha256Hex
  verifiedVia := ev.verifiedVia
  verifierTag := ev.verifierTag
  status := ev.status
  note := ev.note
  extra := []
  sourceLine := line

/-- No string of the event has a character that ends a line for Python only. -/
def Framed (ev : TrustEvent) : Prop :=
  ∀ s ∈ ev.strings, ∀ c ∈ s, c.toNat ≠ 0x85 ∧ c.toNat ≠ 0x2028 ∧ c.toNat ≠ 0x2029
deriving Decidable

/-! ### Sorting -/

lemma sortsBefore_iff {a b : ParsedEvent} :
    sortsBefore a b = true ↔ a.seq < b.seq ∨ a.seq = b.seq ∧ a.sourceLine ≤ b.sourceLine := by
  simp [sortsBefore]

lemma sortEvents_perm (events : List ParsedEvent) : (sortEvents events).Perm events := by
  unfold sortEvents
  split_ifs
  · exact mergeSort_perm _ _
  · exact List.Perm.refl _

section Sorted

variable {events : List ParsedEvent}

def InLines (events : List ParsedEvent) : Prop :=
  events.Pairwise fun a b => a.sourceLine < b.sourceLine

lemma pairwise_mergeSort_sortsBefore (events : List ParsedEvent) :
    (events.mergeSort sortsBefore).Pairwise fun a b => sortsBefore a b = true := by
  refine pairwise_mergeSort (fun a b c hab hbc => ?_) (fun a b => ?_) events
  · rw [sortsBefore_iff] at hab hbc ⊢
    omega
  · rw [Bool.or_eq_true, sortsBefore_iff, sortsBefore_iff]
    omega

lemma pairwise_sortEvents (h : InLines events) :
    (sortEvents events).Pairwise fun a b => sortsBefore a b = true := by
  unfold sortEvents
  split_ifs with hany
  · exact pairwise_mergeSort_sortsBefore events
  · -- All numbers are zero, so the order of the lines is that of the sort.
    have hzero : ∀ e ∈ events, e.seq = 0 := by simpa using hany
    refine h.imp_of_mem fun ha hb hlt => sortsBefore_iff.mpr (.inr ⟨?_, hlt.le⟩)
    rw [hzero _ ha, hzero _ hb]

lemma sortEvents_of_pairwise (h : events.Pairwise fun a b => sortsBefore a b = true) :
    sortEvents events = events := by
  unfold sortEvents
  split_ifs
  · exact mergeSort_of_pairwise h
  · rfl

end Sorted

/-! ### One line -/

section Line

variable (py : Python) (seq line : Nat) (ev : TrustEvent)

lemma ofMembers_eventMembers : Dict.ofMembers (eventMembers seq ev) = eventMembers seq ev := by
  refine Dict.ofMembers_eq_self ?_
  unfold eventMembers optionalMember
  split_ifs <;> simp only [append_nil, cons_append, nil_append, map_cons,
    map_nil] <;> decide

lemma get_optionalMember {key s : Text} :
    (Dict.get (optionalMember key s) key).getD (.str []) = .str s := by
  unfold optionalMember
  split_ifs with hs
  · rw [hs]
    rfl
  · rw [Dict.get_cons_self]
    rfl

lemma get_optionalMember_of_ne {key key' s : Text} (h : key' ≠ key) :
    Dict.get (optionalMember key' s) key = none := by
  unfold optionalMember
  split_ifs
  · rfl
  · rw [Dict.get_cons_of_ne h, Dict.get_nil]

lemma eventOfDict_eventMembers :
    eventOfDict py (eventMembers seq ev) line = parsedEvent seq line ev := by
  have hextra : (eventMembers seq ev).filter (fun item => item.1 ∉ knownFields) = [] := by
    unfold eventMembers optionalMember
    split_ifs <;> rfl
  rw [eventOfDict, hextra]
  simp [parsedEvent, eventMembers, Dict.get_append, Dict.get_cons_of_ne, Dict.get_cons_self,
    get_optionalMember_of_ne, get_optionalMember, coerceInt, coerceStr]

lemma getLast?_eventObject : (eventObject seq ev).getLast? = some '}' := by
  rw [eventObject, getLast?_append]
  rfl

lemma strip_eventObject : strip (eventObject seq ev) = eventObject seq ev :=
  trimBy_of_ends (d := '{') rfl (by decide) (getLast?_eventObject seq ev) (by decide)

lemma eventObject_ne_nil : eventObject seq ev ≠ [] := by
  simp [eventObject]

lemma parseLine_eventObject :
    parseLine py (eventObject seq ev) line = .ok (parsedEvent seq line ev) := by
  simp only [parseLine, strip_eventObject, eventObject_ne_nil, if_false, parse_eventObject,
    ofMembers_eventMembers, eventOfDict_eventMembers]

variable {seq ev}

lemma not_isLineBoundary_of_mem (h : Framed ev) {c : Char} (hc : c ∈ eventObject seq ev) :
    isLineBoundary c = false := by
  rcases mem_eventObject hc with hprintable | ⟨hge, s, hs, hcs⟩
  · have := hprintable.1
    have := hprintable.2
    exact isLineBoundary_eq_false (by omega) (by omega) (by omega) (by omega)
  · obtain ⟨h85, h2028, h2029⟩ := h s hs c hcs
    exact isLineBoundary_eq_false hge h85 h2028 h2029

lemma splitlines_eventObject (h : Framed ev) :
    splitlines (eventObject seq ev) = [eventObject seq ev] :=
  splitlines_eq_singleton (fun _ hc => not_isLineBoundary_of_mem h hc) (eventObject_ne_nil seq ev)

lemma exists_isLineBoundary_of_not_framed (seq : Nat) (h : ¬ Framed ev) :
    ∃ c ∈ eventObject seq ev, isLineBoundary c = true := by
  obtain ⟨s, hs, c, hc, hboundary⟩ : ∃ s ∈ ev.strings, ∃ c ∈ s,
      c.toNat = 0x85 ∨ c.toNat = 0x2028 ∨ c.toNat = 0x2029 := by
    unfold Framed at h
    push Not at h
    obtain ⟨s, hs, c, hc, h⟩ := h
    exact ⟨s, hs, c, hc, by tauto⟩
  refine ⟨c, mem_eventObject_of_mem hs hc (by omega), ?_⟩
  rcases hboundary with h | h | h <;> simp [isLineBoundary, h]

lemma two_le_length_nonblank_eventObject (h : ¬ Framed ev) :
    2 ≤ (nonblank (splitlines (eventObject seq ev))).length := by
  obtain ⟨c, hc, hboundary⟩ := exists_isLineBoundary_of_not_framed seq h
  exact two_le_length_nonblank (d := '{') (e := '}') rfl (by decide)
    (getLast?_eventObject seq ev) (by decide) hc hboundary

lemma length_nonblank_eventObject_pos (seq : Nat) (ev : TrustEvent) :
    1 ≤ (nonblank (splitlines (eventObject seq ev))).length := by
  by_cases h : Framed ev
  · rw [splitlines_eventObject h, nonblank, filter_cons_of_pos]
    · simp
    · rw [strip_eventObject]
      exact decide_eq_true (eventObject_ne_nil seq ev)
  · exact le_trans (by decide) (two_le_length_nonblank_eventObject h)

end Line

/-! ### A log -/

def logText (entries : List (Nat × TrustEvent)) : Text :=
  entries.flatMap fun e => eventLine e.1 e.2

/-- The events of lines that begin at `line`. -/
def placedEvents (line : Nat) (entries : List (Nat × TrustEvent)) : List ParsedEvent :=
  (entries.zipIdx line).map fun e => parsedEvent e.1.1 e.2 e.1.2

def parsedEvents (entries : List (Nat × TrustEvent)) : List ParsedEvent :=
  placedEvents 1 entries

lemma inLines_placedEvents (line : Nat) (entries : List (Nat × TrustEvent)) :
    InLines (placedEvents line entries) := by
  unfold InLines
  rw [pairwise_iff_getElem]
  intro i j hi hj hij
  simpa [placedEvents, parsedEvent] using hij

lemma readLines_objects (py : Python) (entries : List (Nat × TrustEvent)) :
    readLines py (entries.map fun e => eventObject e.1 e.2) =
      (parsedEvents entries).map Except.ok := by
  have hne : ∀ line ∈ entries.map fun e => eventObject e.1 e.2, strip line ≠ [] := by
    intro line hline
    obtain ⟨e, -, rfl⟩ := mem_map.mp hline
    rw [strip_eventObject]
    simp [eventObject]
  rw [readLines_of_forall_ne py hne, zipIdx_map, map_map, parsedEvents, placedEvents, map_map]
  exact map_congr_left fun e _ => parseLine_eventObject py _ _ _

lemma splitlines_logText (entries : List (Nat × TrustEvent)) :
    splitlines (logText entries) = entries.flatMap fun e => splitlines (eventObject e.1 e.2) := by
  have htext : logText entries =
      (entries.map fun e => eventObject e.1 e.2).flatMap (· ++ ['\n']) := by
    simp only [logText, eventLine_eq, flatMap_map]
  rw [htext, splitlines_flatMap, flatMap_map]
  intro line hline
  obtain ⟨e, -, rfl⟩ := mem_map.mp hline
  exact ⟨'}', getLast?_eventObject _ _, by decide⟩

lemma parse_logText (py : Python) {entries : List (Nat × TrustEvent)}
    (h : ∀ e ∈ entries, Framed e.2) :
    parse py (utf8 (logText entries)) =
      { events := sortEvents (parsedEvents entries)
        parseErrors := []
        schemaViolations := (parsedEvents entries).filterMap violation
        sourceSha256 := some (py.sha256 (utf8 (logText entries))) } := by
  have hlines : splitlines (logText entries) = entries.map fun e => eventObject e.1 e.2 := by
    rw [splitlines_logText, ← flatMap_pure_eq_map]
    exact flatMap_congr fun e he => splitlines_eventObject (h e he)
  have hevents : ((parsedEvents entries).map
      (Except.ok : ParsedEvent → Except ParseError ParsedEvent)).filterMap Except.toOption =
        parsedEvents entries := by
    simp [filterMap_map, Function.comp_def, Except.toOption]
  have herrors : ((parsedEvents entries).map Except.ok).filterMap errorOf = [] := by
    simp [filterMap_map, Function.comp_def, errorOf]
  rw [parse, py.decode_utf8, hlines, readLines_objects, hevents, herrors]

/-- The events of one boot, numbered as `serialize_events` numbers them. -/
def numbered (bootSeq : UInt64) (events : List TrustEvent) : List (Nat × TrustEvent) :=
  events.mapIdx fun i ev => ((UInt64.ofNat i + bootSeq).toNat, ev)

lemma serializeEvents_eq_logText (events : List TrustEvent) (bootSeq : UInt64) :
    serializeEvents events bootSeq = logText (numbered bootSeq events) := by
  simp only [serializeEvents, logText, numbered, flatMap_def, mapIdx_eq_zipIdx_map,
    map_map, Function.comp_def]

section Numbered

variable {events : List TrustEvent} {bootSeq : UInt64}

lemma placedEvents_numbered (line : Nat) (hfit : bootSeq.toNat + events.length ≤ 2 ^ 64) :
    placedEvents line (numbered bootSeq events) =
      events.mapIdx fun i ev => parsedEvent (bootSeq.toNat + i) (line + i) ev := by
  refine ext_getElem (by simp [placedEvents, numbered]) fun i hi hi' => ?_
  have hlt : i < events.length := by simpa using hi'
  have hseq : (UInt64.ofNat i + bootSeq).toNat = bootSeq.toNat + i := by
    rw [UInt64.toNat_add, UInt64.toNat_ofNat']
    omega
  simp only [placedEvents, numbered, getElem_map, getElem_zipIdx, getElem_mapIdx, hseq]

lemma pairwise_sortsBefore_mapIdx (start line : Nat) (events : List TrustEvent) :
    (events.mapIdx fun i ev => parsedEvent (start + i) (line + i) ev).Pairwise
      fun a b => sortsBefore a b = true := by
  rw [pairwise_iff_getElem]
  intro i j hi hj hij
  have hlt : ((start + i : Nat) : Int) < (start + j : Nat) := by omega
  simp only [getElem_mapIdx, sortsBefore, parsedEvent, hlt, decide_true, Bool.true_or]

end Numbered

def written (bootSeq : UInt64) (events : List TrustEvent) : List ParsedEvent :=
  events.mapIdx fun i ev => parsedEvent (UInt64.ofNat i + bootSeq).toNat 0 ev

lemma map_unplaced_placedEvents (line : Nat) (bootSeq : UInt64) (events : List TrustEvent) :
    (placedEvents line (numbered bootSeq events)).map ParsedEvent.unplaced =
      written bootSeq events := by
  refine ext_getElem (by simp [placedEvents, numbered, written]) fun i hi hi' => ?_
  simp [placedEvents, numbered, written, ParsedEvent.unplaced, parsedEvent]

lemma parse_serializeEvents_of_framed (py : Python) {events : List TrustEvent} (bootSeq : UInt64)
    (hframed : ∀ ev ∈ events, Framed ev) :
    (parse py (utf8 (serializeEvents events bootSeq))).parseErrors = [] ∧
      (parse py (utf8 (serializeEvents events bootSeq))).events =
        sortEvents (placedEvents 1 (numbered bootSeq events)) := by
  have hentries : ∀ e ∈ numbered bootSeq events, Framed e.2 := by
    intro e he
    obtain ⟨i, hi, rfl⟩ := mem_mapIdx.mp he
    exact hframed _ (getElem_mem hi)
  rw [serializeEvents_eq_logText, parse_logText py hentries]
  exact ⟨rfl, rfl⟩

lemma length_parse (py : Python) (source : Bytes) :
    (parse py source).events.length + (parse py source).parseErrors.length =
      (nonblank (splitlines (py.decode source))).length := by
  have hresults : ∀ results : List (Except ParseError ParsedEvent),
      (results.filterMap Except.toOption).length + (results.filterMap errorOf).length =
        results.length := by
    intro results
    induction results with
    | nil => rfl
    | cons result results ih =>
      cases result with
      | ok e =>
        have herror : errorOf (.ok e) = none := rfl
        simp only [filterMap_cons, Except.toOption, herror, length_cons]
        omega
      | error e =>
        have herror : errorOf (.error e) = some e := rfl
        simp only [filterMap_cons, Except.toOption, herror, length_cons]
        omega
  have hlines : ∀ (lines : List Text) (k : Nat), ((lines.zipIdx k).filterMap fun line =>
      if strip line.1 = [] then none else some (parseLine py line.1 line.2)).length =
        (nonblank lines).length := by
    intro lines
    induction lines with
    | nil => exact fun _ => rfl
    | cons line lines ih =>
      intro k
      rw [nonblank] at ih ⊢
      by_cases hline : strip line = [] <;> simp [zipIdx_cons, hline, ih]
  unfold parse
  rw [(sortEvents_perm _).length_eq]
  exact (hresults _).trans (hlines _ 1)

lemma length_lt_nonblank_logText {entries : List (Nat × TrustEvent)} {e : Nat × TrustEvent}
    (he : e ∈ entries) (hframed : ¬ Framed e.2) :
    entries.length < (nonblank (splitlines (logText entries))).length := by
  have hlength : (nonblank (splitlines (logText entries))).length =
      (entries.map fun e => (nonblank (splitlines (eventObject e.1 e.2))).length).sum := by
    rw [splitlines_logText, nonblank, filter_flatMap, length_flatMap]
    rfl
  calc entries.length = (entries.map fun _ => 1).sum := by simp
    _ < (entries.map fun e => (nonblank (splitlines (eventObject e.1 e.2))).length).sum :=
      sum_lt_sum _ _ (fun e _ => length_nonblank_eventObject_pos e.1 e.2)
        ⟨e, he, two_le_length_nonblank_eventObject hframed⟩
    _ = (nonblank (splitlines (logText entries))).length := hlength.symm

lemma fits_of_sorted {bootSeq : UInt64} {events : List TrustEvent} {sorted : List ParsedEvent}
    (hsorted : sorted.Pairwise fun a b => sortsBefore a b = true)
    (h : sorted.map ParsedEvent.unplaced = written bootSeq events) :
    bootSeq.toNat + events.length ≤ 2 ^ 64 := by
  by_contra hwrap
  have hstart := bootSeq.toNat_lt
  have hseqs : sorted.map ParsedEvent.seq =
      events.mapIdx fun i _ => ((UInt64.ofNat i + bootSeq).toNat : Int) := by
    have hseq := congrArg (map ParsedEvent.seq) h
    rw [map_map, written, mapIdx_eq_zipIdx_map, map_map] at hseq
    rw [mapIdx_eq_zipIdx_map]
    exact hseq
  have hle : (sorted.map ParsedEvent.seq).Pairwise (· ≤ ·) := by
    refine pairwise_map.mpr (hsorted.imp fun hab => ?_)
    rcases sortsBefore_iff.mp hab with hlt | ⟨heq, -⟩
    · exact hlt.le
    · exact heq.le
  rw [hseqs, pairwise_iff_getElem] at hle
  -- The numbers before and after the wrap are the last one and zero.
  have hlast := hle (2 ^ 64 - 1 - bootSeq.toNat) (2 ^ 64 - bootSeq.toNat) (by simp; omega)
    (by simp; omega) (by omega)
  simp only [getElem_mapIdx, UInt64.toNat_add, UInt64.toNat_ofNat', Int.ofNat_le] at hlast
  omega

/-- The inspector reads the events that were written, in their order and with all their fields,
exactly where no field has U+0085, U+2028 or U+2029 and the numbers do not wrap. -/
theorem parse_serializeEvents_iff (py : Python) (events : List TrustEvent) (bootSeq : UInt64) :
    ((parse py (utf8 (serializeEvents events bootSeq))).parseErrors = [] ∧
      (parse py (utf8 (serializeEvents events bootSeq))).events.map ParsedEvent.unplaced =
        written bootSeq events) ↔
      (∀ ev ∈ events, Framed ev) ∧ bootSeq.toNat + events.length ≤ 2 ^ 64 := by
  constructor
  · rintro ⟨herrors, hevents⟩
    have hframed : ∀ ev ∈ events, Framed ev := by
      intro ev hev
      by_contra hnot
      -- There are as many lines as events, so no event has two.
      have hcount := length_parse py (utf8 (serializeEvents events bootSeq))
      have hlength := congrArg length hevents
      obtain ⟨i, hi, rfl⟩ := getElem_of_mem hev
      have hmem : ((UInt64.ofNat i + bootSeq).toNat, events[i]) ∈ numbered bootSeq events :=
        mem_mapIdx.mpr ⟨i, hi, rfl⟩
      have hlt := length_lt_nonblank_logText hmem hnot
      rw [length_map, written, length_mapIdx] at hlength
      rw [numbered, length_mapIdx, ← numbered, ← serializeEvents_eq_logText] at hlt
      rw [herrors, length_nil, py.decode_utf8] at hcount
      omega
    refine ⟨hframed, ?_⟩
    rw [(parse_serializeEvents_of_framed py bootSeq hframed).2] at hevents
    exact fits_of_sorted (pairwise_sortEvents (inLines_placedEvents _ _)) hevents
  · rintro ⟨hframed, hfit⟩
    obtain ⟨herrors, hevents⟩ := parse_serializeEvents_of_framed py bootSeq hframed
    refine ⟨herrors, ?_⟩
    have hsorted : (placedEvents 1 (numbered bootSeq events)).Pairwise
        fun a b => sortsBefore a b = true := by
      rw [placedEvents_numbered 1 hfit]
      exact pairwise_sortsBefore_mapIdx _ _ _
    rw [hevents, sortEvents_of_pairwise hsorted, map_unplaced_placedEvents]

lemma parseLine_of_parse_eq_none (py : Python) {s : Text} (lineNumber : Nat)
    (h : (Json.parse (strip s)).isNone = true) : ∃ e, parseLine py s lineNumber = .error e := by
  unfold parseLine
  dsimp only
  split_ifs with hs
  · exact ⟨_, rfl⟩
  · rw [Option.isNone_iff_eq_none.mp h]
    exact ⟨_, rfl⟩

lemma parse_separator (py : Python) :
    let events : List TrustEvent := [⟨"volume_mounted", "a\u2028b", 0, [], [], [], [], []⟩]
    (parse py (utf8 (serializeEvents events 0))).parseErrors.length = 2 ∧
      (parse py (utf8 (serializeEvents events 0))).events = [] := by
  intro events
  have hlines : splitlines (serializeEvents events 0) =
      ["\x7b\"seq\":0,\"event\":\"volume_mounted\",\"path\":\"a".toList,
        "b\",\"size\":0,\"sha256\":\"\",\"verified_via\":\"\",\"status\":\"\"\x7d".toList] := by
    decide +kernel
  obtain ⟨e₁, h₁⟩ := parseLine_of_parse_eq_none py 1
    (s := "\x7b\"seq\":0,\"event\":\"volume_mounted\",\"path\":\"a") (by decide +kernel)
  obtain ⟨e₂, h₂⟩ := parseLine_of_parse_eq_none py 2
    (s := "b\",\"size\":0,\"sha256\":\"\",\"verified_via\":\"\",\"status\":\"\"\x7d")
    (by decide +kernel)
  have hread : readLines py (splitlines (serializeEvents events 0)) = [.error e₁, .error e₂] := by
    rw [hlines, readLines_of_forall_ne py (by decide +kernel), zipIdx_cons, zipIdx_cons,
      zipIdx_nil, map_cons, map_cons, map_nil, h₁, h₂]
  rw [parse, py.decode_utf8, hread]
  exact ⟨rfl, rfl⟩

/-- The event with that path is lost, and two errors are reported in its place. -/
theorem parse_serializeEvents_separator :
    let events : List TrustEvent := [⟨"volume_mounted", "a\u2028b", 0, [], [], [], [], []⟩]
    (parse .minimal (utf8 (serializeEvents events 0))).parseErrors.length = 2 ∧
      (parse .minimal (utf8 (serializeEvents events 0))).events = [] ∧
      written 0 events ≠ [] := by
  intro events
  obtain ⟨herrors, hevents⟩ := parse_separator .minimal
  exact ⟨herrors, hevents, cons_ne_nil _ _⟩

end LamBoot.Inspect
