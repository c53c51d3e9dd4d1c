import LamBoot.Library.JsonStrings
import LamBoot.Library.StableSort
import LamBoot.Inspect.RoundTrip

/-!
# The pieces of a broken line

A field with a character that ends a line for Python breaks the line of its event. No piece of such
a line is read as an event with a name.
-/

namespace LamBoot.Inspect

open List Text Python Json

/-! ### Where a line breaks -/

section Break

variable {seq : Nat} {ev : TrustEvent} {b : Char}

lemma le_of_isLineBoundary (hb : isLineBoundary b = true) (hmem : b ∈ eventObject seq ev) :
    0x7F ≤ b.toNat := by
  have hge : 0x20 ≤ b.toNat := by
    rcases mem_eventObject hmem with hprintable | ⟨hge, -⟩
    · exact hprintable.1
    · exact hge
  simp only [isLineBoundary, Bool.or_eq_true, Bool.and_eq_true, decide_eq_true_eq, beq_iff_eq] at hb
  omega

lemma isClosed_of_mem {member : Text × Json} (h : member ∈ eventMembers seq ev) :
    IsClosed (member.1, fieldText member.2) := by
  have hfield := isField_of_mem h
  refine ⟨fun c hc => ?_, ?_⟩
  · obtain ⟨hprintable, hquote, hbackslash⟩ := hfield.key c hc
    exact ⟨hquote, hbackslash, hprintable.1⟩
  · rcases hfield.value with ⟨n, hn⟩ | ⟨s, hs⟩
    · rw [hn]
      refine position_eq_self fun c hc => Position.next_outside ?_
      have hdigit : c.isDigit = true := Nat.isDigit_of_mem_toDigits (by decide) (by decide) hc
      rintro rfl
      cases hdigit
    · have hopen : Position.next .outside '"' = .inside := rfl
      rw [hs, fieldText, cons_append, position_cons, position_append, hopen,
        position_flatMap spells_escapeChar]
      rfl

lemma head_of_mem_eventMembers {member : Text × Json} (h : member ∈ eventMembers seq ev) :
    ∃ c key, member.1 = c :: key ∧ isWs c = false ∧ c ≠ ':' := by
  simp only [eventMembers, optionalMember, mem_append, mem_cons, not_mem_nil,
    or_false, mem_ite_nil_left] at h
  rcases h with ((rfl | rfl | rfl | rfl | rfl | rfl | rfl) | ⟨-, rfl⟩) | ⟨-, rfl⟩ <;>
    exact ⟨_, _, rfl, by decide, by decide⟩

lemma exists_of_flatMap_escapeChar {s u v : Text} (hb : 0x7F ≤ b.toNat)
    (h : s.flatMap escapeChar = u ++ b :: v) :
    ∃ s₁ s₂ : Text, u = s₁.flatMap escapeChar ∧ v = s₂.flatMap escapeChar := by
  induction s generalizing u with
  | nil => exact absurd h (by simp)
  | cons c s ih =>
    rw [flatMap_cons] at h
    rcases append_eq_append_cons h with ⟨v', hc, rfl⟩ | ⟨u', rfl, hs⟩
    · obtain rfl : b = c := by
        rcases mem_escapeChar (c := b) (d := c) (by simp [hc]) with hprintable | ⟨hbc, -⟩
        · have := hprintable.2
          omega
        · exact hbc
      rw [escapeChar_eq_self hb] at hc
      refine ⟨[], s, ?_, ?_⟩
      · cases u with
        | nil => rfl
        | cons d u => exact absurd (cons.inj hc).2 (by simp)
      · cases u with
        | nil => simp [← (cons.inj hc).2]
        | cons d u => exact absurd (cons.inj hc).2 (by simp)
    · obtain ⟨s₁, s₂, rfl, rfl⟩ := ih hs
      exact ⟨c :: s₁, s₂, by simp, rfl⟩

/-- A character that ends a line is inside a string of the event's line. -/
lemma exists_of_eventObject_eq {x y : Text} (h : eventObject seq ev = x ++ b :: y)
    (hb : isLineBoundary b = true) :
    ∃ front s₁ s₂ back : Text, x = '{' :: front ++ '"' :: s₁.flatMap escapeChar ∧
      y = s₂.flatMap escapeChar ++ '"' :: back ∧ position .outside front = .outside ∧
      Closes back := by
  have hmem : b ∈ eventObject seq ev := by simp [h]
  have hge := le_of_isLineBoundary hb hmem
  have hne : ∀ d : Char, d.toNat < 0x7F → b ≠ d := by
    rintro d hd rfl
    omega
  cases x with
  | nil => exact absurd (cons.inj h).1.symm (hne _ (by decide))
  | cons d x =>
    obtain ⟨rfl, hmembers⟩ := cons.inj h
    have hclosed : ∀ w ∈ (eventMembers seq ev).map fun m => (m.1, fieldText m.2), IsClosed w := by
      intro w hw
      obtain ⟨member, hmember, rfl⟩ := mem_map.mp hw
      exact isClosed_of_mem hmember
    have hkeys : ∀ w ∈ (eventMembers seq ev).map fun m => (m.1, fieldText m.2), b ∉ w.1 := by
      intro w hw hmem
      obtain ⟨member, hmember, rfl⟩ := mem_map.mp hw
      have := ((isField_of_mem hmember).key b hmem).1.2
      omega
    have hpunctuation : ∀ d ∈ ['"', ':', ',', '}'], b ≠ d := fun d hd => hne d (by
      revert d
      decide)
    obtain ⟨w, hw, front, u, v, back, rfl, htext, rfl, hfront, hback⟩ :=
      exists_of_membersText_append hclosed
        (fun hmem => hpunctuation b (by revert hmem; simp; tauto) rfl) hkeys
        (fun hmem => hpunctuation b (by revert hmem; simp; tauto) rfl) hmembers
    obtain ⟨member, hmember, rfl⟩ := mem_map.mp hw
    have hcloses : Closes back := by
      refine hback.imp_right ?_
      rintro ⟨w', hw', more, rfl⟩
      obtain ⟨member', hmember', rfl⟩ := mem_map.mp hw'
      obtain ⟨c, key, hkey, hws, hcolon⟩ := head_of_mem_eventMembers hmember'
      exact ⟨c, key ++ more, by simp [hkey], hws, hcolon⟩
    dsimp only at htext
    rcases (isField_of_mem hmember).value with ⟨n, hn⟩ | ⟨s, hs⟩
    · -- A number has only digits.
      have hmem : b ∈ fieldText (.int n) := by simp [← hn, htext]
      have hdigit : b.isDigit = true := Nat.isDigit_of_mem_toDigits (by decide) (by decide) hmem
      have hrange : 48 ≤ b.toNat ∧ b.toNat ≤ 57 := Char.isDigit_iff_toNat.mp hdigit
      omega
    · rw [hs, fieldText] at htext
      cases u with
      | nil => exact absurd (cons.inj htext).1.symm (hne _ (by decide))
      | cons d u =>
        obtain ⟨rfl, hstring⟩ := cons.inj htext
        rcases append_eq_append_cons hstring with ⟨v', hv', rfl⟩ | ⟨u', -, hquote⟩
        · obtain ⟨s₁, s₂, rfl, rfl⟩ := exists_of_flatMap_escapeChar hge hv'
          exact ⟨front, s₁, s₂, back, rfl, by simp, hfront, hcloses⟩
        · have hmem : b ∈ ['"'] := by simp [hquote]
          exact absurd (mem_singleton.mp hmem) (hne _ (by decide))

end Break

/-! ### What the pieces are -/

section Pieces

variable {py : Python} {seq n : Nat} {ev : TrustEvent} {piece : Text} {e : ParsedEvent}

lemma of_parseLine_eq_ok (h : parseLine py piece n = .ok e) :
    ∃ members, Json.parse (strip piece) = some (.obj members) ∧
      e = eventOfDict py (Dict.ofMembers members) n := by
  unfold parseLine at h
  dsimp only at h
  split_ifs at h
  split at h
  · cases h
  · next members hparse => exact ⟨members, hparse, (Except.ok.inj h).symm⟩
  · cases h

lemma ne_of_isSpace {c : Char} (h : isSpace c = true) : c ≠ '"' ∧ c ≠ '\\' := by
  constructor
  · rintro rfl
    cases h
  · rintro rfl
    cases h

lemma parse_front_eq_none {b : Char} {rest : Text} (h : eventObject seq ev = piece ++ b :: rest)
    (hb : isLineBoundary b = true) : Json.parse (strip piece) = none := by
  obtain ⟨front, s₁, s₂, back, hpiece, -, hfront, -⟩ := exists_of_eventObject_eq h hb
  have hinside : position .outside piece = .inside := by
    have hopen : Position.next .outside '"' = .inside := rfl
    rw [hpiece, cons_append, position_cons, Position.next_outside (by decide),
      position_append, hfront, position_cons, hopen, position_flatMap spells_escapeChar]
  obtain ⟨x, y, hstrip, hx, hy⟩ := exists_append_strip piece
  have houtside : ∀ t : Text, (∀ c ∈ t, isSpace c = true) → position .outside t = .outside :=
    fun t ht => position_eq_self fun c hc => Position.next_outside (ne_of_isSpace (ht c hc)).1
  cases hparse : Json.parse (strip piece) with
  | none => rfl
  | some v =>
    rw [hstrip, position_append, position_append, houtside x hx, position_of_parse hparse,
      houtside y hy] at hinside
    cases hinside

lemma members_eq_nil_of_piece {b : Char} {x tail : Text}
    (h : eventObject seq ev = x ++ b :: (piece ++ tail)) (hb : isLineBoundary b = true)
    {members : List (Text × Json)} (hparse : Json.parse (strip piece) = some (.obj members)) :
    members = [] := by
  obtain ⟨front, s₁, s₂, back, -, hpiece, -, hback⟩ := exists_of_eventObject_eq h hb
  obtain ⟨z, y, hstrip, hz, -⟩ := exists_append_strip piece
  have hcut : z ++ strip piece ++ (y ++ tail) = s₂.flatMap escapeChar ++ '"' :: back := by
    rw [← hpiece]
    conv_rhs => rw [hstrip]
    simp
  exact members_eq_nil_of_cut spells_escapeChar hback (fun c hc => ne_of_isSpace (hz c hc)) hcut
    hparse

/-- No piece of a broken line is read as an event with a name. -/
lemma event_eq_nil_of_piece (hframed : ¬ Framed ev)
    (hpiece : piece ∈ splitlines (eventObject seq ev)) (h : parseLine py piece n = .ok e) :
    e.event = [] := by
  obtain ⟨members, hparse, rfl⟩ := of_parseLine_eq_ok h
  obtain ⟨hnone, ⟨tail, hfront, htail⟩ | ⟨x, b, tail, hlater, hb⟩⟩ := mem_splitlines hpiece
  · cases tail with
    | nil =>
      -- The whole line has a boundary inside.
      obtain ⟨c, hc, hboundary⟩ := exists_isLineBoundary_of_not_framed seq hframed
      rw [hfront, append_nil] at hc
      rw [hnone c hc] at hboundary
      cases hboundary
    | cons b rest =>
      rw [parse_front_eq_none hfront (htail b rfl)] at hparse
      cases hparse
  · rw [members_eq_nil_of_piece hlater hb hparse]
    rfl

end Pieces

/-! ### What is found in a log -/

/-- The events that are read from lines. -/
def readEvents (py : Python) (lines : List Text) : List ParsedEvent :=
  (readLines py lines).filterMap Except.toOption

/-- The records of a name that the inspector reads. -/
def records (name : Text) (entries : List (Nat × TrustEvent)) : List (Nat × TrustEvent) :=
  entries.filter fun e => e.2.event = name ∧ Framed e.2

/-- A record as it is read, but for its line. -/
def readRecord (e : Nat × TrustEvent) : ParsedEvent :=
  parsedEvent e.1 0 e.2

section Log

variable (py : Python) {name : Text} {entries entries' : List (Nat × TrustEvent)}

@[simp] lemma records_append :
    records name (entries ++ entries') = records name entries ++ records name entries' :=
  filter_append _ _

lemma map_unplaced_parseLine (line : Text) (n : Nat) :
    (parseLine py line n).toOption.map ParsedEvent.unplaced =
      (parseLine py line 0).toOption := by
  unfold parseLine
  dsimp only
  split_ifs
  · rfl
  · split <;> rfl

lemma map_unplaced_readEvents (lines : List Text) :
    (readEvents py lines).map ParsedEvent.unplaced =
      lines.filterMap fun line => (parseLine py line 0).toOption := by
  have hblank : ∀ line n, strip line = [] → (parseLine py line n).toOption = none := by
    intro line n hline
    rw [parseLine, hline, if_pos rfl]
    rfl
  conv_rhs => rw [← zipIdx_map_fst 1 lines, filterMap_map]
  rw [readEvents, readLines, filterMap_filterMap, map_filterMap]
  refine filterMap_congr fun line _ => ?_
  rw [Function.comp_apply]
  split_ifs with hline
  · rw [hblank _ _ hline]
    rfl
  · exact map_unplaced_parseLine py line.1 line.2

lemma inLines_readEvents (lines : List Text) : InLines (readEvents py lines) := by
  have hplaces : (lines.zipIdx 1).Pairwise fun a b => a.2 < b.2 := by
    rw [pairwise_iff_getElem]
    intro i j hi hj hij
    simpa using hij
  have hplace : ∀ (line : Text × Nat) (e : ParsedEvent),
      (if strip line.1 = [] then none else some (parseLine py line.1 line.2)).bind
        Except.toOption = some e → e.sourceLine = line.2 := by
    intro line e he
    split_ifs at he
    · cases he
    · rw [Option.bind_some] at he
      cases hline : parseLine py line.1 line.2 with
      | error err =>
        rw [hline] at he
        cases he
      | ok e' =>
        rw [hline] at he
        obtain rfl := Option.some.inj he
        obtain ⟨members, -, rfl⟩ := of_parseLine_eq_ok hline
        rfl
  rw [InLines, readEvents, readLines, filterMap_filterMap, pairwise_filterMap]
  refine hplaces.imp fun hlt a ha b hb => ?_
  rw [hplace _ a ha, hplace _ b hb]
  exact hlt

lemma filter_pieces_eventObject (hname : name ≠ []) (e : Nat × TrustEvent) :
    ((splitlines (eventObject e.1 e.2)).filterMap
        fun line => (parseLine py line 0).toOption).filter (·.event = name) =
      if e.2.event = name ∧ Framed e.2 then [readRecord e] else [] := by
  by_cases hframed : Framed e.2
  · rw [splitlines_eventObject hframed, filterMap_cons, parseLine_eventObject]
    by_cases hevent : e.2.event = name
    · simp [Except.toOption, readRecord, parsedEvent, hevent, hframed]
    · simp [Except.toOption, parsedEvent, hevent]
  · rw [if_neg fun h => hframed h.2, filter_eq_nil_iff]
    intro found hfound hevent
    obtain ⟨piece, hpiece, hparse⟩ := mem_filterMap.mp hfound
    cases hline : parseLine py piece 0 with
    | error err =>
      rw [hline] at hparse
      cases hparse
    | ok e' =>
      rw [hline] at hparse
      obtain rfl := Option.some.inj hparse
      rw [event_eq_nil_of_piece hframed hpiece hline] at hevent
      exact hname (of_decide_eq_true hevent).symm

lemma filter_readEvents_logText (hname : name ≠ []) (entries : List (Nat × TrustEvent)) :
    ((readEvents py (splitlines (logText entries))).filter (·.event = name)).map
        ParsedEvent.unplaced = (records name entries).map readRecord := by
  have hfilter : ∀ events : List ParsedEvent,
      (events.filter (·.event = name)).map ParsedEvent.unplaced =
        (events.map ParsedEvent.unplaced).filter (·.event = name) := by
    intro events
    rw [filter_map]
    rfl
  rw [hfilter, map_unplaced_readEvents, splitlines_logText, filterMap_flatMap, filter_flatMap]
  simp only [filter_pieces_eventObject py hname]
  induction entries with
  | nil => rfl
  | cons e entries ih =>
    rw [flatMap_cons, ih, records, records, filter_cons]
    by_cases he : e.2.event = name ∧ Framed e.2 <;> simp [he]

lemma filter_sortEvents {events : List ParsedEvent} (h : InLines events)
    (p : ParsedEvent → Bool) :
    (sortEvents events).filter p = (events.filter p).sortBy ParsedEvent.seq := by
  have hlines : InLines (events.filter p) := h.filter p
  rw [← mergeSort_eq_sortBy ParsedEvent.sourceLine (fun _ _ => sortsBefore_iff) hlines]
  refine List.Perm.eq_of_pairwise (fun a b ha hb hab hba => ?_)
    ((pairwise_sortEvents h).filter p) (pairwise_mergeSort_sortsBefore _)
    (((sortEvents_perm events).filter p).trans (mergeSort_perm _ _).symm)
  have ha := (sortEvents_perm events).mem_iff.mp (mem_of_mem_filter ha)
  have hb := mem_of_mem_filter ((mergeSort_perm _ _).mem_iff.mp hb)
  have hnodup : (events.map ParsedEvent.sourceLine).Nodup :=
    pairwise_map.mpr (h.imp fun hlt => Nat.ne_of_lt hlt)
  rw [sortsBefore_iff] at hab hba
  exact inj_on_of_nodup_map hnodup ha hb (by omega)

/-- Of a log, the records of a name are read whose lines are not broken, sorted by number. -/
lemma filter_parse_logText (hname : name ≠ []) (entries : List (Nat × TrustEvent)) :
    ((parse py (utf8 (logText entries))).events.filter (·.event = name)).map
        ParsedEvent.unplaced = ((records name entries).sortBy Prod.fst).map readRecord := by
  have hevents : (parse py (utf8 (logText entries))).events =
      sortEvents (readEvents py (splitlines (logText entries))) := by
    rw [parse, py.decode_utf8]
    rfl
  have hkey : (records name entries).sortBy Prod.fst =
      (records name entries).sortBy fun e => (e.1 : Int) :=
    sortBy_congr fun a b => Int.ofNat_le.symm
  have hunplaced : ∀ events : List ParsedEvent,
      (events.sortBy ParsedEvent.seq).map ParsedEvent.unplaced =
        (events.map ParsedEvent.unplaced).sortBy ParsedEvent.seq := fun _ =>
    map_sortBy fun _ => rfl
  have hrecords : ((records name entries).sortBy fun e => (e.1 : Int)).map readRecord =
      ((records name entries).map readRecord).sortBy ParsedEvent.seq :=
    map_sortBy fun _ => rfl
  rw [hevents, filter_sortEvents (inLines_readEvents py _), hunplaced,
    filter_readEvents_logText py hname, hkey, hrecords]

end Log

end LamBoot.Inspect
