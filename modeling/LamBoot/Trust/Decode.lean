import LamBoot.Trust.Log

/-!
# The lines of the trust log are JSON

Each line of `serialize_events` is an object with the fields of its event, whatever characters they
contain.
-/

namespace LamBoot

open List Text Json

/-! ### Escaping -/

lemma hexDigits_control :
    ∀ n < 0x20, List.replicate (4 - (Nat.toDigits 16 n).length) '0' ++ Nat.toDigits 16 n =
      ['0', '0', Nat.digitChar (n / 16), Nat.digitChar (n % 16)] := by
  decide

lemma hexValue_digitChar : ∀ n < 16, hexValue (Nat.digitChar n) = some n := by
  decide

lemma escapeControl_eq {c : Char} (h : c.toNat < 0x20) :
    escapeControl c =
      ['\\', 'u', '0', '0', Nat.digitChar (c.toNat / 16), Nat.digitChar (c.toNat % 16)] := by
  simp only [escapeControl, cons_append, hexDigits_control c.toNat h]

lemma spells_escapeControl {c : Char} (h : c.toNat < 0x20) : Spells (escapeControl c) c := by
  intro rest
  have hunit : readUnit ('0' :: '0' :: Nat.digitChar (c.toNat / 16) ::
      Nat.digitChar (c.toNat % 16) :: rest) = some (c.toNat, rest) := by
    have hzero : hexValue '0' = some 0 := by decide
    rw [readUnit, hzero, hexValue_digitChar _ (by omega), hexValue_digitChar _ (by omega)]
    simp only [Option.bind_eq_bind, Option.bind_some, Option.some.injEq, Prod.mk.injEq, and_true]
    omega
  have hunicode : readUnicode ('0' :: '0' :: Nat.digitChar (c.toNat / 16) ::
      Nat.digitChar (c.toNat % 16) :: rest) = some (c, rest) := by
    rw [readUnicode, hunit]
    simp only [Option.bind_eq_bind, Option.bind_some]
    rw [if_neg (by omega), if_neg (by omega), Char.ofNat_toNat]
  rw [escapeControl_eq h]
  simp [readChar, readEscape, hunicode]

lemma spells_escapeChar (c : Char) : Spells (escapeChar c) c := by
  unfold escapeChar
  split_ifs with hquote hbackslash hnewline hreturn htab hcontrol
  · subst hquote
    exact fun _ => rfl
  · subst hbackslash
    exact fun _ => rfl
  · subst hnewline
    exact fun _ => rfl
  · subst hreturn
    exact fun _ => rfl
  · subst htab
    exact fun _ => rfl
  · exact spells_escapeControl hcontrol
  · exact spells_self hquote hbackslash (Nat.not_lt.mp hcontrol)

def IsPrintable (c : Char) : Prop :=
  0x20 ≤ c.toNat ∧ c.toNat < 0x7F
deriving Decidable

lemma isPrintable_digitChar : ∀ n < 16, IsPrintable (Nat.digitChar n) := by
  decide

lemma mem_escapeChar {c d : Char} (h : c ∈ escapeChar d) :
    IsPrintable c ∨ c = d ∧ 0x20 ≤ c.toNat := by
  have hall : (∀ c ∈ escapeChar d, IsPrintable c) ∨ escapeChar d = [d] ∧ 0x20 ≤ d.toNat := by
    unfold escapeChar
    split_ifs with hquote hbackslash hnewline hreturn htab hcontrol
    · exact .inl (by decide)
    · exact .inl (by decide)
    · exact .inl (by decide)
    · exact .inl (by decide)
    · exact .inl (by decide)
    · have hdiv := isPrintable_digitChar (d.toNat / 16) (by omega)
      have hmod := isPrintable_digitChar (d.toNat % 16) (by omega)
      have hescape : ∀ c ∈ ['\\', 'u', '0', '0'], IsPrintable c := by decide
      rw [escapeControl_eq hcontrol]
      refine .inl fun c hc => ?_
      rcases mem_append.mp (show c ∈ ['\\', 'u', '0', '0'] ++ _ from hc) with hc | hc
      · exact hescape c hc
      · simp only [mem_cons, not_mem_nil, or_false] at hc
        rcases hc with rfl | rfl
        · exact hdiv
        · exact hmod
    · exact .inr ⟨rfl, Nat.not_lt.mp hcontrol⟩
  rcases hall with hall | ⟨heq, hd⟩
  · exact .inl (hall c h)
  · rw [heq, mem_singleton] at h
    exact .inr ⟨h, h ▸ hd⟩

lemma escapeChar_eq_self {c : Char} (h : 0x7F ≤ c.toNat) : escapeChar c = [c] := by
  have hne : ∀ d : Char, d.toNat < 0x7F → c ≠ d := by
    rintro d hd rfl
    omega
  unfold escapeChar
  rw [if_neg (hne '"' (by decide)), if_neg (hne '\\' (by decide)),
    if_neg (hne '\n' (by decide)), if_neg (hne '\r' (by decide)),
    if_neg (hne '\t' (by decide)), if_neg (by omega)]

/-! ### Lines -/

def optionalMember (key s : Text) : List (Text × Json) :=
  if s = [] then [] else [(key, .str s)]

def eventMembers (seq : Nat) (ev : TrustEvent) : List (Text × Json) :=
  ([("seq", .int seq), ("event", .str ev.event), ("path", .str ev.path), ("size", .int ev.size),
    ("sha256", .str ev.sha256Hex), ("verified_via", .str ev.verifiedVia),
    ("status", .str ev.status)] : List (Text × Json)) ++
  optionalMember "verifier_tag" ev.verifierTag ++ optionalMember "note" ev.note

def fieldText : Json → Text
  | .int n => decimal n.toNat
  | .str s => '"' :: s.flatMap escapeChar ++ ['"']
  | _ => []

/-- The fields of an event: a printable key, and a number or a string. -/
structure IsField (member : Text × Json) : Prop where
  key : ∀ c ∈ member.1, IsPrintable c ∧ c ≠ '"' ∧ c ≠ '\\'
  value : (∃ n : Nat, member.2 = .int n) ∨ ∃ s, member.2 = .str s

section Lines

variable {seq : Nat} {ev : TrustEvent} {c : Char} {member : Text × Json}

lemma isField_of_mem (h : member ∈ eventMembers seq ev) :
    IsField member := by
  have hkeys : ∀ key ∈ (["seq", "event", "path", "size", "sha256", "verified_via", "status",
      "verifier_tag", "note"] : List String), ∀ c ∈ key.toList,
      IsPrintable c ∧ c ≠ '"' ∧ c ≠ '\\' := by
    decide
  simp only [eventMembers, optionalMember, mem_append, mem_cons, not_mem_nil,
    or_false, mem_ite_nil_left] at h
  rcases h with ((rfl | rfl | rfl | rfl | rfl | rfl | rfl) | ⟨-, rfl⟩) | ⟨-, rfl⟩
  · exact ⟨hkeys "seq" (by decide), .inl ⟨seq, rfl⟩⟩
  · exact ⟨hkeys "event" (by decide), .inr ⟨_, rfl⟩⟩
  · exact ⟨hkeys "path" (by decide), .inr ⟨_, rfl⟩⟩
  · exact ⟨hkeys "size" (by decide), .inl ⟨ev.size, rfl⟩⟩
  · exact ⟨hkeys "sha256" (by decide), .inr ⟨_, rfl⟩⟩
  · exact ⟨hkeys "verified_via" (by decide), .inr ⟨_, rfl⟩⟩
  · exact ⟨hkeys "status" (by decide), .inr ⟨_, rfl⟩⟩
  · exact ⟨hkeys "verifier_tag" (by decide), .inr ⟨_, rfl⟩⟩
  · exact ⟨hkeys "note" (by decide), .inr ⟨_, rfl⟩⟩

lemma eventFields_eq (seq : Nat) (ev : TrustEvent) :
    eventFields seq ev = (eventMembers seq ev).map fun m => memberText m.1 (fieldText m.2) := by
  have hstring : ∀ key s : Text, pushKv key s true = memberText key (fieldText (.str s)) := by
    simp [pushKv, memberText, fieldText]
  have hnumber : ∀ (key : Text) (n : Nat),
      pushKv key (decimal n) false = memberText key (fieldText (.int n)) := by
    simp [pushKv, memberText, fieldText]
  simp only [eventFields, eventMembers, optionalMember, map_append, map_cons,
    map_nil, hstring, hnumber, apply_ite (List.map _)]

def eventObject (seq : Nat) (ev : TrustEvent) : Text :=
  '{' :: membersText ((eventMembers seq ev).map fun m => (m.1, fieldText m.2)) ++ ['}']

lemma eventLine_eq (seq : Nat) (ev : TrustEvent) :
    eventLine seq ev = eventObject seq ev ++ ['\n'] := by
  simp [eventLine, eventObject, eventFields_eq, membersText, Function.comp_def]

lemma reads_fieldText (h : IsField member) :
    Reads (fieldText member.2) member.2 := by
  rcases h.value with ⟨n, hn⟩ | ⟨s, hs⟩
  · rw [hn]
    exact reads_nat n
  · rw [hs]
    exact reads_string spells_escapeChar s

lemma parse_eventObject (seq : Nat) (ev : TrustEvent) :
    Json.parse (eventObject seq ev) = some (.obj (eventMembers seq ev)) := by
  refine parse_of_reads (reads_object ?_ (by simp [eventMembers]))
  rw [forall₂_map_left_iff]
  refine forall₂_same.mpr fun member hmember => ?_
  have hfield := isField_of_mem hmember
  refine ⟨rfl, fun c hc => ?_, reads_fieldText hfield⟩
  obtain ⟨hprintable, hquote, hbackslash⟩ := hfield.key c hc
  exact ⟨hquote, hbackslash, hprintable.1⟩

def TrustEvent.strings (ev : TrustEvent) : List Text :=
  [ev.event, ev.path, ev.sha256Hex, ev.verifiedVia, ev.status, ev.verifierTag, ev.note]

lemma mem_strings_of_mem {key s : Text} (h : (key, Json.str s) ∈ eventMembers seq ev) :
    s ∈ ev.strings := by
  simp only [eventMembers, optionalMember, mem_append, mem_cons, not_mem_nil,
    or_false, mem_ite_nil_left, Prod.mk.injEq, Json.str.injEq, reduceCtorEq, and_false,
    false_or] at h
  simp only [TrustEvent.strings, mem_cons, not_mem_nil, or_false]
  tauto

lemma mem_fieldText (h : member ∈ eventMembers seq ev)
    (hc : c ∈ fieldText member.2) :
    IsPrintable c ∨ 0x20 ≤ c.toNat ∧ ∃ s ∈ ev.strings, c ∈ s := by
  obtain ⟨key, value⟩ := member
  rcases (isField_of_mem h).value with ⟨n, rfl⟩ | ⟨s, rfl⟩
  · have hdigit : c.isDigit = true := Nat.isDigit_of_mem_toDigits (by decide) (by decide) hc
    have hrange : 48 ≤ c.toNat ∧ c.toNat ≤ 57 := Char.isDigit_iff_toNat.mp hdigit
    exact .inl ⟨by omega, by omega⟩
  · simp only [fieldText, cons_append, mem_cons, mem_append, mem_flatMap,
      not_mem_nil, or_false] at hc
    rcases hc with rfl | ⟨d, hd, hc⟩ | rfl
    · exact .inl (by decide)
    · rcases mem_escapeChar hc with hprintable | ⟨rfl, hge⟩
      · exact .inl hprintable
      · exact .inr ⟨hge, s, mem_strings_of_mem h, hd⟩
    · exact .inl (by decide)

lemma mem_eventObject (h : c ∈ eventObject seq ev) :
    IsPrintable c ∨ 0x20 ≤ c.toNat ∧ ∃ s ∈ ev.strings, c ∈ s := by
  have hpunctuation : ∀ c ∈ ['"', ':', ','], IsPrintable c := by decide
  simp only [eventObject, cons_append, mem_cons, mem_append, not_mem_nil, or_false] at h
  rcases h with rfl | h | rfl
  · exact .inl (by decide)
  · rcases mem_membersText h with h | ⟨w, hw, h⟩
    · exact .inl (hpunctuation c h)
    · obtain ⟨member, hmember, rfl⟩ := mem_map.mp hw
      rcases h with h | h
      · exact .inl ((isField_of_mem hmember).key c h).1
      · exact mem_fieldText hmember h
  · exact .inl (by decide)

lemma mem_eventObject_of_mem {s : Text} (hs : s ∈ ev.strings) (hc : c ∈ s)
    (hge : 0x7F ≤ c.toNat) : c ∈ eventObject seq ev := by
  have hescape : c ∈ escapeChar c := by
    rw [escapeChar_eq_self hge]
    exact mem_singleton_self c
  obtain ⟨key, hmember⟩ : ∃ key, (key, Json.str s) ∈ eventMembers seq ev := by
    have hoptional : ∀ key, (key, Json.str s) ∈ optionalMember key s := fun key => by
      rw [optionalMember, if_neg (ne_nil_of_mem hc)]
      exact mem_singleton_self _
    simp only [TrustEvent.strings, mem_cons, not_mem_nil, or_false] at hs
    rcases hs with rfl | rfl | rfl | rfl | rfl | rfl | rfl
    · exact ⟨"event", by simp [eventMembers]⟩
    · exact ⟨"path", by simp [eventMembers]⟩
    · exact ⟨"sha256", by simp [eventMembers]⟩
    · exact ⟨"verified_via", by simp [eventMembers]⟩
    · exact ⟨"status", by simp [eventMembers]⟩
    · exact ⟨"verifier_tag", mem_append_left _ (mem_append_right _ (hoptional _))⟩
    · exact ⟨"note", mem_append_right _ (hoptional _)⟩
  have htext : c ∈ fieldText (.str s) :=
    mem_cons_of_mem _ (mem_append_left _ (mem_flatMap.mpr ⟨c, hc, hescape⟩))
  refine mem_cons_of_mem _ (mem_append_left _ ?_)
  exact mem_membersText_of_mem (mem_map.mpr ⟨_, hmember, rfl⟩) htext

end Lines

/-! ### The log -/

lemma serializeEvents_eq (events : List TrustEvent) (bootSeq : UInt64) :
    serializeEvents events bootSeq =
      (events.mapIdx fun i ev => eventObject (UInt64.ofNat i + bootSeq).toNat ev).flatMap
        (· ++ ['\n']) := by
  simp only [serializeEvents, flatMap_def, mapIdx_eq_zipIdx_map, map_map,
    Function.comp_def, eventLine_eq]

/-- The log has one line for each event, and reading a line gives the fields of its event. -/
theorem serializeEvents_decodes (events : List TrustEvent) (bootSeq : UInt64) :
    ∃ lines : List Text,
      serializeEvents events bootSeq = lines.flatMap (· ++ ['\n']) ∧
      (∀ line ∈ lines, '\n' ∉ line) ∧
      lines.map Json.parse = events.mapIdx fun i ev =>
        some (.obj (eventMembers (UInt64.ofNat i + bootSeq).toNat ev)) := by
  refine ⟨_, serializeEvents_eq events bootSeq, fun line hline hnewline => ?_, ?_⟩
  · obtain ⟨i, hi, rfl⟩ := mem_mapIdx.mp hline
    rcases mem_eventObject hnewline with hprintable | ⟨hge, -⟩
    · exact absurd hprintable (by decide)
    · exact absurd hge (by decide)
  · simp only [mapIdx_eq_zipIdx_map, map_map, Function.comp_def, parse_eventObject]

end LamBoot
