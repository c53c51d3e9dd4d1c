import LamBoot.BootEntry.Codec
import LamBoot.Health
import LamBoot.Library.Substitutions
import LamBoot.Library.Utf8

/-!
# The strings in the loader variables

What is read back from `LoaderEntrySelected`, `LoaderBootCountPath` and `LamBootLastEntry`. The
first two are written byte by byte, so every character becomes those of its bytes.
-/

namespace LamBoot

open List Bytes Text Substitution Option

/-! ### Readers -/

def decodeUtf16z (b : Bytes) : Text :=
  fromUtf16Lossy ((chunks16 b).takeWhile (· ≠ 0))

/-- A text of at most `limit` bytes is read back, and of a longer one a part from its start. -/
def Recovered (limit : Nat) (decoded : Option Text) (s : Text) : Prop :=
  if (utf8 s).length ≤ limit then decoded = some s
  else ∃ t, decoded = some t ∧ t <+: s

/-! ### Bytes as characters -/

def latin1 (b : Bytes) : Text :=
  b.map fun byte => Char.ofNat byte.toNat

def bytewise (c : Char) : Text :=
  latin1 (String.utf8EncodeChar c)

lemma latin1_utf8 (s : Text) : latin1 (utf8 s) = s.flatMap bytewise := by
  rw [latin1, utf8, map_flatMap]
  rfl

lemma toNat_ofNat_of_lt {n : Nat} (hn : n < 256) : (Char.ofNat n).toNat = n := by
  rw [Char.ofNat, dif_pos (Or.inl (by omega))]
  rfl

lemma bytewise_of_ascii {c : Char} (hc : c.toNat ≤ 127) : bytewise c = [c] := by
  have hbyte : (UInt8.ofNat c.toNat).toNat = c.toNat := by
    rw [UInt8.toNat_ofNat']
    omega
  rw [bytewise, utf8EncodeChar_of_le hc, latin1, map_singleton, hbyte, Char.ofNat_toNat]

lemma length_bytewise (c : Char) (hc : 127 < c.toNat) : 2 ≤ (bytewise c).length := by
  have hnot : ¬ c.val.toNat ≤ 127 := Nat.not_le.mpr hc
  simp only [bytewise, latin1, length_map, String.utf8EncodeChar, hnot, if_false]
  split_ifs <;> simp

lemma bytewise_ne_nil (c : Char) : bytewise c ≠ [] := by
  unfold bytewise latin1
  rw [ne_eq, map_eq_nil_iff]
  exact String.utf8EncodeChar_ne_nil

lemma mem_bytewise {c d : Char} (hc : 127 < c.toNat) (hd : d ∈ bytewise c) : 127 < d.toNat := by
  obtain ⟨byte, hbyte, rfl⟩ := mem_map.mp hd
  rw [toNat_ofNat_of_lt byte.toNat_lt]
  exact le_of_mem_utf8EncodeChar hc hbyte

def selfLead : Char := Char.ofNat 0xC3

lemma exists_lead {c : Char} (hc : 127 < c.toNat) :
    ∃ lead rest, bytewise c = Char.ofNat lead :: rest ∧ lead < 256 ∧
      (c.toNat < 256 → lead = c.toNat / 64 + 0xC0) := by
  have hnot : ¬ c.val.toNat ≤ 127 := Nat.not_le.mpr hc
  refine ⟨((String.utf8EncodeChar c).headD 0).toNat, (bytewise c).tail, ?_, UInt8.toNat_lt _, ?_⟩
  · simp only [bytewise, latin1, String.utf8EncodeChar, hnot, if_false]
    split_ifs <;> rfl
  · intro hlt
    have hsmall : c.val.toNat ≤ 0x7FF := by
      change c.toNat ≤ 0x7FF
      omega
    simp only [String.utf8EncodeChar, hnot, if_false, hsmall, if_true, headD_cons]
    change (UInt8.ofNat (c.toNat / 64 % 32 + 0xC0)).toNat = _
    rw [UInt8.toNat_ofNat']
    omega

lemma bytewise_begins {c : Char} (hc : 127 < c.toNat) : [c] <+: bytewise c ↔ c = selfLead := by
  constructor
  · intro h
    obtain ⟨lead, rest, hbytes, hlt, hlead⟩ := exists_lead hc
    rw [hbytes, cons_prefix_cons] at h
    have hc' : c.toNat = lead := by rw [h.1, toNat_ofNat_of_lt hlt]
    have hnat : c.toNat = 0xC3 := by
      have := hlead (by omega)
      omega
    rw [selfLead, ← hnat, Char.ofNat_toNat]
  · rintro rfl
    decide

def selfWord : Text :=
  images bytewise selfLead 8

lemma selfWord_repeats : Repeats bytewise selfWord ∧ 256 ≤ selfWord.length :=
  repeats_images (p := fun c => 127 < c.toNat) (by decide) ((bytewise_begins (by decide)).mpr rfl)
    (fun c => length_bytewise c) (fun _ hc _ => mem_bytewise hc) 8

lemma take_one_selfWord : selfWord.take 1 = [selfLead] := by
  decide

/-- The condition on a text that is cut to `limit` bytes. -/
def ReadBack (limit : Nat) (s : Text) : Prop :=
  ∃ ascii rest, s = ascii ++ rest ∧ (∀ c ∈ ascii, c.toNat ≤ 127) ∧
    (rest = [] ∨ limit ≤ ascii.length ∨
      ascii.length < limit ∧ selfWord.take (limit - ascii.length) <+: rest)

/-- A text that is too long is cut between two characters. -/
def CutsBetween (limit : Nat) (s : Text) : Prop :=
  limit < (utf8 s).length → ∃ t, t <+: s ∧ (utf8 t).length = limit

section Cut

variable {limit : Nat} {s ascii rest : Text}

lemma flatMap_bytewise_of_ascii (h : ∀ c ∈ ascii, c.toNat ≤ 127) :
    ascii.flatMap bytewise = ascii := by
  induction ascii with
  | nil => rfl
  | cons c ascii ih =>
    obtain ⟨hc, hascii⟩ := forall_mem_cons.mp h
    rw [flatMap_cons, bytewise_of_ascii hc, ih hascii]
    rfl

lemma length_flatMap_bytewise (s : Text) : (s.flatMap bytewise).length = (utf8 s).length := by
  rw [← latin1_utf8, latin1, length_map]

lemma exists_ascii_append (s : Text) : ∃ ascii rest, s = ascii ++ rest ∧
    (∀ c ∈ ascii, c.toNat ≤ 127) ∧ ∀ c ∈ rest.head?, 127 < c.toNat := by
  refine ⟨s.takeWhile (·.toNat ≤ 127), s.dropWhile (·.toNat ≤ 127),
    (takeWhile_append_dropWhile).symm, fun c hc => ?_, fun c hc => ?_⟩
  · simpa using mem_takeWhile_imp hc
  · have := List.head?_dropWhile_not (fun c : Char => decide (c.toNat ≤ 127)) s
    rw [hc] at this
    simpa using this

lemma take_ascii_append (h : ∀ c ∈ ascii, c.toNat ≤ 127) (hlt : ascii.length < limit) :
    ((ascii ++ rest).flatMap bytewise).take limit <+: ascii ++ rest ↔
      (rest.flatMap bytewise).take (limit - ascii.length) <+: rest := by
  rw [flatMap_append, flatMap_bytewise_of_ascii h, take_append,
    take_of_length_le hlt.le, prefix_append_right_inj]

lemma take_bytewise_iff (hlimit : limit ≤ 256) :
    (s.flatMap bytewise).take limit <+: s ↔ ReadBack limit s := by
  constructor
  · intro h
    obtain ⟨ascii, rest, rfl, hascii, hhead⟩ := exists_ascii_append s
    refine ⟨ascii, rest, rfl, hascii, ?_⟩
    rcases Nat.lt_or_ge ascii.length limit with hlt | hge
    · cases rest with
      | nil => exact .inl rfl
      | cons c rest =>
        have hc := hhead c rfl
        have hcut := (take_ascii_append hascii hlt).mp h
        -- the first byte of the first character beyond ASCII is that character
        obtain rfl : c = selfLead := by
          obtain ⟨lead, bytes, hbytes, -⟩ := exists_lead hc
          obtain ⟨m, hm⟩ := Nat.exists_eq_succ_of_ne_zero (Nat.sub_ne_zero_of_lt hlt)
          rw [hm, flatMap_cons, hbytes, cons_append, take_succ_cons, cons_prefix_cons] at hcut
          refine (bytewise_begins hc).mp ?_
          rw [hbytes, hcut.1]
          exact cons_prefix_cons.mpr ⟨rfl, nil_prefix⟩
        refine .inr (.inr ⟨hlt, (selfWord_repeats.1.take_flatMap_iff ?_ ?_).mp hcut⟩)
        · have := selfWord_repeats.2
          omega
        · rw [take_one_selfWord]
          exact cons_prefix_cons.mpr ⟨rfl, nil_prefix⟩
    · exact .inr (.inl hge)
  · rintro ⟨ascii, rest, rfl, hascii, rfl | hge | ⟨hlt, hword⟩⟩
    · rw [append_nil, flatMap_bytewise_of_ascii hascii]
      exact take_prefix _ _
    · rw [flatMap_append, flatMap_bytewise_of_ascii hascii, take_append_of_le_length hge]
      refine .trans ?_ (prefix_append _ _)
      exact take_prefix _ _
    · have hone : selfWord.take 1 <+: selfWord.take (limit - ascii.length) :=
        take_prefix_take_left (by omega)
      refine (take_ascii_append hascii hlt).mpr ?_
      refine (selfWord_repeats.1.take_flatMap_iff ?_ (hone.trans hword)).mpr hword
      have := selfWord_repeats.2
      omega

lemma bytewise_eq_self_iff (hlimit : limit ≤ 256) (hshort : (utf8 s).length ≤ limit) :
    s.flatMap bytewise = s ↔ ReadBack limit s := by
  constructor
  · intro h
    refine (take_bytewise_iff hlimit).mp ?_
    rw [h]
    exact take_prefix _ _
  · rintro ⟨ascii, rest, rfl, hascii, hrest⟩
    have hlength : ascii.length + (rest.flatMap bytewise).length ≤ limit := by
      rwa [← length_flatMap_bytewise, flatMap_append, flatMap_bytewise_of_ascii hascii,
        length_append] at hshort
    suffices hnil : rest = [] by
      rw [hnil, append_nil, flatMap_bytewise_of_ascii hascii]
    rcases hrest with hnil | hge | ⟨hlt, hword⟩
    · exact hnil
    · have hempty : rest.flatMap bytewise = [] := eq_nil_of_length_eq_zero (by omega)
      refine eq_nil_iff_forall_not_mem.mpr fun c hc => ?_
      exact bytewise_ne_nil c (flatMap_eq_nil_iff.mp hempty c hc)
    · -- the word is longer in bytes than what is left
      have htwice := two_mul_length_le (s := selfWord.take (limit - ascii.length))
        fun c hc => selfWord_repeats.1.grows c (mem_of_mem_take hc)
      have hle := (hword.flatMap bytewise).length_le
      have hlong := selfWord_repeats.2
      rw [length_take] at htwice
      omega

end Cut

/-! ### The variables -/

section Variables

variable {w : Writable} {v v' : Var} {data : Bytes} {nv : Nvram}

lemma setVariable_of_writable (h : w v = true) :
    setVariable w v data nv = (true, Function.update nv v (some data)) :=
  if_pos h

lemma setVariable_self (h : w v = true) : (setVariable w v data nv).2 v = some data := by
  rw [setVariable_of_writable h]
  exact Function.update_self v (some data) nv

lemma setVariable_ne (h : v' ≠ v) : (setVariable w v data nv).2 v' = nv v' := by
  unfold setVariable
  split_ifs
  · exact Function.update_of_ne h (some data) nv
  · rfl

end Variables

lemma zero_notMem_utf8 {s : Text} (h : Char.ofNat 0 ∉ s) : 0 ∉ utf8 s := by
  intro hzero
  obtain ⟨c, hc, hbyte⟩ := mem_flatMap.mp hzero
  rcases Nat.lt_or_ge 127 c.toNat with hlt | hle
  · exact absurd (le_of_mem_utf8EncodeChar hlt hbyte) (by decide)
  · rw [utf8EncodeChar_of_le hle, mem_singleton] at hbyte
    have hnat := congrArg UInt8.toNat hbyte
    rw [UInt8.toNat_ofNat', UInt8.toNat_zero] at hnat
    have hc0 : c.toNat = 0 := by omega
    rw [← hc0, Char.ofNat_toNat] at h
    exact h hc

lemma le16_byte (b : UInt8) : le16 b.toUInt16 = [b, 0] := by
  have hb := b.toNat_lt
  have hshift : (8 : UInt16).toNat % 16 = 8 := rfl
  have hhigh : (b.toUInt16 >>> 8).toUInt8 = 0 := by
    rw [← UInt8.toNat_inj, UInt16.toNat_toUInt8, UInt16.toNat_shiftRight, hshift,
      Nat.shiftRight_eq_div_pow, UInt8.toNat_toUInt16, UInt8.toNat_zero]
    omega
  rw [le16, hhigh, UInt8.toUInt8_toUInt16]

lemma utf16_latin1 (bytes : Bytes) : utf16 (latin1 bytes) = bytes.map UInt8.toUInt16 := by
  induction bytes with
  | nil => rfl
  | cons b bytes ih =>
    have hb := b.toNat_lt
    have hunit : UInt16.ofNat b.toNat = b.toUInt16 := by
      rw [← UInt16.toNat_inj, UInt16.toNat_ofNat', UInt8.toNat_toUInt16]
      omega
    have hchar : charUtf16 (Char.ofNat b.toNat) = [b.toUInt16] := by
      rw [charUtf16, utf16, flatMap_singleton, toNat_ofNat_of_lt hb, if_pos (by omega), hunit]
    change utf16 (Char.ofNat b.toNat :: latin1 bytes) = _
    rw [utf16_cons, hchar, ih]
    rfl

lemma decodeUtf16z_widened {bytes : Bytes} (h : 0 ∉ bytes) :
    decodeUtf16z (widened bytes) = latin1 bytes := by
  have hwide : widened bytes = (bytes.map UInt8.toUInt16).flatMap le16 ++ le16 0 := by
    rw [flatMap_map, widened]
    simp only [le16_byte]
    rfl
  have hunits : ∀ unit ∈ bytes.map UInt8.toUInt16, decide (unit ≠ 0) = true := by
    intro unit hunit
    obtain ⟨b, hb, rfl⟩ := mem_map.mp hunit
    refine decide_eq_true fun h0 => h ?_
    have hnat := congrArg UInt16.toNat h0
    rw [UInt8.toNat_toUInt16, UInt16.toNat_zero, ← UInt8.toNat_zero, UInt8.toNat_inj] at hnat
    rwa [← hnat]
  rw [decodeUtf16z, hwide, ← append_nil (le16 0), chunks16_flatMap_le16, chunks16_le16_append,
    takeWhile_append_of_pos hunits, takeWhile_cons_of_neg (by simp), append_nil,
    ← utf16_latin1, fromUtf16Lossy_utf16]

lemma recovered_utf16_iff {limit : Nat} {s : Text} (hlimit : limit ≤ 256)
    (hnul : Char.ofNat 0 ∉ s) :
    Recovered limit (some (decodeUtf16z (widened ((utf8 s).take limit)))) s ↔
      ReadBack limit s := by
  have hdecode : decodeUtf16z (widened ((utf8 s).take limit)) =
      (s.flatMap bytewise).take limit := by
    rw [decodeUtf16z_widened fun h0 => zero_notMem_utf8 hnul (mem_of_mem_take h0),
      latin1, map_take, ← latin1_utf8, latin1]
  rw [hdecode, Recovered]
  split_ifs with hshort
  · rw [some.injEq, take_of_length_le (by rwa [length_flatMap_bytewise])]
    exact bytewise_eq_self_iff hlimit hshort
  · rw [← take_bytewise_iff hlimit]
    constructor
    · rintro ⟨t, heq, ht⟩
      rwa [some.inj heq]
    · intro h
      exact ⟨_, rfl, h⟩

lemma recovered_utf8_iff (limit : Nat) (s : Text) :
    Recovered limit (ofUtf8 ((utf8 s).take limit)) s ↔ CutsBetween limit s := by
  unfold Recovered CutsBetween
  split_ifs with hshort
  · rw [take_of_length_le hshort]
    exact iff_of_true (ofUtf8_utf8 s) fun hlt => absurd hlt (not_lt.mpr hshort)
  · have hlong : limit < (utf8 s).length := not_le.mp hshort
    constructor
    · rintro ⟨t, hdecode, ht⟩ -
      refine ⟨t, ht, ?_⟩
      rw [utf8_of_ofUtf8 hdecode, length_take]
      omega
    · intro h
      obtain ⟨t, ht, hlen⟩ := h hlong
      have hbegins : utf8 t <+: utf8 s := ht.flatMap _
      have hcut : (utf8 s).take limit = utf8 t := by
        rw [take_eq_of_begins hbegins hlen.ge, ← hlen]
        exact take_length
      exact ⟨t, by rw [hcut, ofUtf8_utf8], ht⟩

/-- What is read back after an entry and a path were recorded. -/
theorem recovered_iff {w : Writable} (nv : Nvram) {id path : Text}
    (hw : w .lastEntry = true ∧ w .loaderEntrySelected = true ∧ w .loaderBootCountPath = true)
    (hid : Char.ofNat 0 ∉ id) (hpath : Char.ofNat 0 ∉ path) :
    let nv' := (setBootCountPath w path (recordBootEntry w id nv).2).2
    (Recovered 128 ((nv' .loaderEntrySelected).map decodeUtf16z) id ∧
      Recovered 128 ((nv' .lastEntry).bind ofUtf8) id ∧
      Recovered 256 ((nv' .loaderBootCountPath).map decodeUtf16z) path) ↔
    ReadBack 128 id ∧ CutsBetween 128 id ∧ ReadBack 256 path := by
  intro nv'
  obtain ⟨hwlast, hwentry, hwcount⟩ := hw
  have hrecord : (recordBootEntry w id nv).2 = (setVariable w .loaderEntrySelected
      (widened ((utf8 id).take 128)) (setVariable w .lastEntry ((utf8 id).take 128) nv).2).2 := by
    rw [recordBootEntry, andThen, setVariable_of_writable hwlast]
  have hother : ∀ v ≠ .loaderBootCountPath, nv' v = (recordBootEntry w id nv).2 v :=
    fun _ => setVariable_ne
  have hentry : nv' .loaderEntrySelected = some (widened ((utf8 id).take 128)) := by
    rw [hother _ (by decide), hrecord, setVariable_self hwentry]
  have hlast : nv' .lastEntry = some ((utf8 id).take 128) := by
    rw [hother _ (by decide), hrecord, setVariable_ne (by decide), setVariable_self hwlast]
  have hcount : nv' .loaderBootCountPath = some (widened ((utf8 path).take 256)) :=
    setVariable_self hwcount
  rw [hentry, hlast, hcount, map_some, map_some, bind_some,
    recovered_utf16_iff (by decide) hid, recovered_utf8_iff, recovered_utf16_iff (by decide) hpath]

theorem recovered_iff_arch :
    Char.ofNat 0 ∉ "arch".toList ∧ Char.ofNat 0 ∉ "\\loader\\entries\\arch+2-1.conf".toList ∧
    (Recovered 128 (((setBootCountPath .all "\\loader\\entries\\arch+2-1.conf".toList
        (recordBootEntry .all "arch".toList .blank).2).2 .loaderEntrySelected).map decodeUtf16z)
        "arch".toList) := by
  have hid : Char.ofNat 0 ∉ "arch".toList := by decide
  have hpath : Char.ofNat 0 ∉ "\\loader\\entries\\arch+2-1.conf".toList := by decide
  refine ⟨hid, hpath, ((recovered_iff .blank ⟨rfl, rfl, rfl⟩ hid hpath).mpr ⟨?_, ?_, ?_⟩).1⟩
  · exact ⟨"arch".toList, [], rfl, by decide, .inl rfl⟩
  · exact fun h => absurd h (by decide)
  · exact ⟨"\\loader\\entries\\arch+2-1.conf".toList, [], rfl, by decide, .inl rfl⟩

/-- An entry id with a character beyond ASCII is read back as two characters. -/
theorem not_recovered_eAcute :
    ¬ Recovered 128 (((recordBootEntry .all [Char.ofNat 0xE9] .blank).2 .loaderEntrySelected).map
      decodeUtf16z) [Char.ofNat 0xE9] := by
  rw [Recovered, if_pos (by decide)]
  decide

end LamBoot
