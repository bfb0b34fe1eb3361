import Mathlib.Data.List.Basic

/-!
# UTF-8

The bytes of a text. A text can be read from its bytes and from no others
(`fromUTF8?_eq_some`), and it starts with a character if its bytes start with those of the
character (`isPrefixOf_bytes`).
-/

namespace Encoding.Utf8

/-- The bytes of a text. -/
def bytes (chars : List Char) : List UInt8 := chars.flatMap String.utf8EncodeChar

theorem bytes_append (chars chars' : List Char) :
    bytes (chars ++ chars') = bytes chars ++ bytes chars' :=
  List.flatMap_append

theorem toByteArray_bytes (chars : List Char) : (bytes chars).toByteArray = chars.utf8Encode := rfl

theorem length_bytes_toList (text : String) : (bytes text.toList).length = text.utf8ByteSize := by
  have h : (bytes text.toList).toByteArray = text.toByteArray := String.utf8Encode_toList
  rw [← String.size_toByteArray, ← h, ByteArray.size, List.data_toByteArray, List.size_toArray]

/-- A text is read from its bytes. -/
theorem fromUTF8?_eq_some {input : List UInt8} {text : String} :
    String.fromUTF8? ⟨input.toArray⟩ = some text ↔ input = bytes text.toList := by
  have hinput : (⟨input.toArray⟩ : ByteArray) = input.toByteArray :=
    congrArg ByteArray.mk List.data_toByteArray.symm
  rw [hinput, String.fromUTF8?]
  constructor
  · intro h
    split_ifs at h with hvalid
    obtain ⟨⟩ := h
    refine List.toByteArray_inj.1 ?_
    rw [toByteArray_bytes, String.utf8Encode_toList]
    rfl
  · rintro rfl
    have hvalid : (bytes text.toList).toByteArray.IsValidUTF8 :=
      ByteArray.isValidUTF8_utf8Encode
    rw [dif_pos hvalid]
    refine congrArg some (String.toByteArray_inj.1 ?_)
    exact String.utf8Encode_toList

/-- The first character of a text. -/
theorem isPrefixOf_bytes {c : Char} {chars : List Char} :
    (String.utf8EncodeChar c).isPrefixOf (bytes chars) = true ↔ chars.head? = some c := by
  rw [List.isPrefixOf_iff_prefix]
  constructor
  · rintro ⟨rest, h⟩
    have hencode : [c].utf8Encode ++ rest.toByteArray = chars.utf8Encode := by
      rw [← toByteArray_bytes, ← toByteArray_bytes, ← List.toByteArray_append, ← h]
      simp [bytes]
    obtain ⟨chars', rfl⟩ := List.isPrefix_of_utf8Encode_append_eq_utf8Encode _ hencode
    rfl
  · intro h
    cases chars with
    | nil => nomatch h
    | cons c' chars =>
      obtain ⟨⟩ := h
      exact ⟨bytes chars, rfl⟩

end Encoding.Utf8
