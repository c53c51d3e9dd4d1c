import LamBoot.Library.Text

/-!
# UTF-8

A string is known by its bytes, so that the order of the bytes is a linear order of strings, and
bytes are decoded just when they are those of a string.
-/

namespace Text

lemma utf8_injective : Function.Injective utf8 := by
  intro s t h
  have hencode : s.utf8Encode = t.utf8Encode := congrArg List.toByteArray h
  have hdecode := congrArg ByteArray.utf8Decode? hencode
  simpa [List.utf8Decode?_utf8Encode] using hdecode

/-- `from_utf8`: the string that bytes encode, if they are valid UTF-8. -/
def ofUtf8 (b : Bytes) : Option Text :=
  b.toByteArray.utf8Decode?.map Array.toList

lemma ofUtf8_utf8 (s : Text) : ofUtf8 (utf8 s) = some s := by
  have hencode : (utf8 s).toByteArray = s.utf8Encode := rfl
  rw [ofUtf8, hencode, List.utf8Decode?_utf8Encode]
  rfl

lemma utf8_of_ofUtf8 {b : Bytes} {s : Text} (h : ofUtf8 b = some s) : utf8 s = b := by
  obtain ⟨chars, hchars, rfl⟩ := Option.map_eq_some_iff.mp h
  have hsome : b.toByteArray.utf8Decode?.isSome = true := by
    rw [hchars]
    rfl
  have hencode : (utf8 chars.toList).toByteArray = b.toByteArray := by
    have hget := ByteArray.utf8Encode_get_utf8Decode? (h := hsome)
    simp only [hchars, Option.get_some] at hget
    exact hget
  have hdata := congrArg (fun a => a.data.toList) hencode
  simpa only [List.toList_data_toByteArray] using hdata

instance : Std.LawfulEqCmp cmp where
  eq_of_compare h := utf8_injective (Std.LawfulEqCmp.eq_of_compare h)

end Text
