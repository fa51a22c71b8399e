import Mathlib.Data.List.Basic

/-! Text and its UTF-8 bytes: the two directions are inverse to each other, and bytes
that are cut off somewhere are a shorter text and at most three bytes more. -/

set_option autoImplicit false

namespace S3Manager.Library

def utf8Encode (text : List Char) : List UInt8 :=
  text.flatMap String.utf8EncodeChar

/-- The strict decoder: the bytes have to be a text from the first to the last one. -/
def utf8Decode (bytes : List UInt8) : Option (List Char) :=
  bytes.toByteArray.utf8Decode?.map Array.toList

section Laws

variable {text other : List Char} {bytes : List UInt8}

@[simp] theorem utf8Encode_nil : utf8Encode [] = [] := rfl

@[simp] theorem utf8Encode_cons (c : Char) (text : List Char) :
    utf8Encode (c :: text) = String.utf8EncodeChar c ++ utf8Encode text := rfl

@[simp] theorem utf8Encode_append (text other : List Char) :
    utf8Encode (text ++ other) = utf8Encode text ++ utf8Encode other :=
  List.flatMap_append

theorem toByteArray_utf8Encode (text : List Char) :
    (utf8Encode text).toByteArray = text.utf8Encode := rfl

theorem utf8Decode_encode (text : List Char) : utf8Decode (utf8Encode text) = some text := by
  rw [utf8Decode, toByteArray_utf8Encode, List.utf8Decode?_utf8Encode]
  rfl

theorem utf8Decode_eq_some_iff : utf8Decode bytes = some text ↔ bytes = utf8Encode text := by
  constructor
  · intro decoded
    obtain ⟨chars, found, rfl⟩ := Option.map_eq_some_iff.mp decoded
    have valid : bytes.toByteArray.utf8Decode?.isSome := by rw [found]; rfl
    have whole := @ByteArray.utf8Encode_get_utf8Decode? bytes.toByteArray valid
    have same : bytes.toByteArray.utf8Decode?.get valid = chars := by simp [found]
    rw [same, ← toByteArray_utf8Encode] at whole
    exact (List.toByteArray_inj.mp whole).symm
  · rintro rfl
    exact utf8Decode_encode text

theorem prefix_of_utf8Encode (within : utf8Encode text <+: utf8Encode other) : text <+: other := by
  obtain ⟨rest, whole⟩ := within
  refine List.isPrefix_of_utf8Encode_append_eq_utf8Encode rest.toByteArray ?_
  rw [← toByteArray_utf8Encode, ← toByteArray_utf8Encode, ← whole, List.toByteArray_append']
  rfl

theorem utf8EncodeChar_length (c : Char) : (String.utf8EncodeChar c).length ≤ 4 := by
  rw [String.length_utf8EncodeChar]
  exact c.utf8Size_le_four

theorem utf8EncodeChar_pos (c : Char) : 0 < (String.utf8EncodeChar c).length := by
  rw [String.length_utf8EncodeChar]
  exact c.utf8Size_pos

/-- The first bytes of a text are the bytes of its first characters, and at most three
bytes of the next one. -/
theorem utf8Encode_take (text : List Char) (count : Nat) :
    ∃ front back part, text = front ++ back ∧
      (utf8Encode text).take count = utf8Encode front ++ part ∧ part.length ≤ 3 := by
  induction text generalizing count with
  | nil => exact ⟨[], [], [], by simp⟩
  | cons c rest ih =>
      by_cases whole : (String.utf8EncodeChar c).length ≤ count
      · obtain ⟨front, back, part, rfl, taken, short⟩ :=
          ih (count - (String.utf8EncodeChar c).length)
        refine ⟨c :: front, back, part, rfl, ?_, short⟩
        rw [utf8Encode_cons, List.take_append, taken, List.take_of_length_le whole,
          utf8Encode_cons, List.append_assoc]
      · refine ⟨[], c :: rest, (String.utf8EncodeChar c).take count, rfl, ?_, ?_⟩
        · rw [utf8Encode_cons, List.take_append_of_le_length (by omega)]
          rfl
        · have bound := utf8EncodeChar_length c
          rw [List.length_take]
          omega

end Laws

end S3Manager.Library
