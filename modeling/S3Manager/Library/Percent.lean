import S3Manager.Library.Utf8

/-! Percent encoding: a byte as `%` and two hexadecimal digits, and the reading of a text in
which some bytes are written so. -/

set_option autoImplicit false

namespace S3Manager.Library

namespace Percent

/-- `f"{value:X}"` for one digit. -/
def digit (value : Nat) : Char :=
  "0123456789ABCDEF".toList.getD value '0'

def value (c : Char) : Option Nat :=
  if '0' ≤ c ∧ c ≤ '9' then some (c.toNat - 48)
  else if 'a' ≤ c ∧ c ≤ 'f' then some (c.toNat - 87)
  else if 'A' ≤ c ∧ c ≤ 'F' then some (c.toNat - 55)
  else none

def encodeByte (byte : UInt8) : List Char :=
  ['%', digit (byte.toNat / 16), digit (byte.toNat % 16)]

def encode (bytes : List UInt8) : List Char :=
  bytes.flatMap encodeByte

/-- The bytes of a text; a `%` has to be followed by two digits. -/
def bytes : List Char → Option (List UInt8)
  | [] => some []
  | '%' :: high :: low :: rest => do
      let x ← value high
      let y ← value low
      let others ← bytes rest
      some (.ofNat (16 * x + y) :: others)
  | '%' :: _ => none
  | c :: rest => (bytes rest).map (String.utf8EncodeChar c ++ ·)

/-- `decodeURIComponent`; nothing stands for its `URIError`. -/
def decode (text : List Char) : Option (List Char) :=
  (bytes text).bind utf8Decode

/-- The text with every character that is not `kept` written as its bytes. -/
def escape (kept : Char → Bool) (text : List Char) : List Char :=
  text.flatMap fun c => if kept c then [c] else encode (String.utf8EncodeChar c)

section Laws

theorem value_digit {value_ : Nat} (small : value_ < 16) : value (digit value_) = some value_ := by
  have all : ∀ value_ < 16, value (digit value_) = some value_ := by decide
  exact all value_ small

theorem bytes_encode_append (encoded : List UInt8) (rest : List Char) :
    bytes (encode encoded ++ rest) = (bytes rest).map (encoded ++ ·) := by
  induction encoded with
  | nil => simp [encode]
  | cons byte others ih =>
      have bound := byte.toNat_lt
      show bytes ('%' :: digit (byte.toNat / 16) :: digit (byte.toNat % 16) ::
        (encode others ++ rest)) = _
      rw [bytes, value_digit (by omega), value_digit (by omega), ih]
      have whole : UInt8.ofNat (16 * (byte.toNat / 16) + byte.toNat % 16) = byte := by
        rw [Nat.div_add_mod, UInt8.ofNat_toNat]
      cases bytes rest with
      | none => rfl
      | some read =>
          show some (UInt8.ofNat (16 * (byte.toNat / 16) + byte.toNat % 16) :: (others ++ read)) = _
          rw [whole]
          rfl

theorem bytes_encode (encoded : List UInt8) : bytes (encode encoded) = some encoded := by
  simpa [bytes] using bytes_encode_append encoded []

theorem decode_encode (text : List Char) : decode (encode (utf8Encode text)) = some text := by
  rw [decode, bytes_encode]
  exact utf8Decode_encode text

theorem digit_plain {value : Nat} (small : value < 16) :
    digit value ≠ '"' ∧ digit value ≠ ';' := by
  have all : ∀ value < 16, digit value ≠ '"' ∧ digit value ≠ ';' := by decide
  exact all value small

/-- Nothing but `%` and hexadecimal digits is written. -/
theorem encode_plain {encoded : List UInt8} {c : Char} (member : c ∈ encode encoded) :
    c ≠ '"' ∧ c ≠ ';' := by
  obtain ⟨byte, -, written⟩ := List.mem_flatMap.mp member
  have bound := byte.toNat_lt
  simp only [encodeByte, List.mem_cons, List.not_mem_nil, or_false] at written
  obtain rfl | rfl | rfl := written
  · decide
  · exact digit_plain (by omega)
  · exact digit_plain (by omega)

theorem utf8EncodeChar_ascii {c : Char} (ascii : c.toNat < 128) :
    (String.utf8EncodeChar c).length = 1 := by
  rw [String.length_utf8EncodeChar, Char.utf8Size_eq_one_iff, UInt32.le_iff_toNat_le]
  exact Nat.le_of_lt_succ ascii

theorem bytes_length {text : List Char} {read : List UInt8} (found : bytes text = some read)
    (ascii : ∀ c ∈ text, c.toNat < 128) : read.length ≤ text.length := by
  fun_induction bytes text generalizing read with
  | case1 =>
      obtain rfl := Option.some.inj found
      exact Nat.le_refl 0
  | case2 high low rest ih =>
      simp only [Option.bind_eq_bind, Option.bind_eq_some_iff, Option.some.injEq] at found
      obtain ⟨x, -, y, -, others, later, rfl⟩ := found
      have fewer := ih later fun c member => ascii c (by simp [member])
      simp only [List.length_cons]
      omega
  | case3 => cases found
  | case4 c rest _ _ ih =>
      obtain ⟨others, later, rfl⟩ := Option.map_eq_some_iff.mp found
      have fewer := ih later fun d member => ascii d (by simp [member])
      rw [List.length_append, utf8EncodeChar_ascii (ascii c (by simp)), List.length_cons]
      omega

theorem length_le_utf8Encode (text : List Char) : text.length ≤ (utf8Encode text).length := by
  induction text with
  | nil => exact Nat.le_refl 0
  | cons c rest ih =>
      have positive := utf8EncodeChar_pos c
      rw [utf8Encode_cons, List.length_append, List.length_cons]
      omega

/-- What is decoded is not longer than what was written. -/
theorem decode_length {text decoded : List Char} (found : decode text = some decoded)
    (ascii : ∀ c ∈ text, c.toNat < 128) : decoded.length ≤ text.length := by
  obtain ⟨read, parsed, decodes⟩ := Option.bind_eq_some_iff.mp found
  obtain rfl := utf8Decode_eq_some_iff.mp decodes
  exact Nat.le_trans (length_le_utf8Encode decoded) (bytes_length parsed ascii)

end Laws

section Escapes

variable {kept : Char → Bool}

theorem bytes_cons {c : Char} (plain : c ≠ '%') (rest : List Char) :
    bytes (c :: rest) = (bytes rest).map (String.utf8EncodeChar c ++ ·) := by
  rw [bytes]
  · exact fun high low more shape _ => plain shape
  · exact plain

theorem bytes_escape_append (percent : kept '%' = false) (text rest : List Char) :
    bytes (escape kept text ++ rest) = (bytes rest).map (utf8Encode text ++ ·) := by
  induction text with
  | nil => simp [escape]
  | cons c more ih =>
      have split : escape kept (c :: more) =
          (if kept c then [c] else encode (String.utf8EncodeChar c)) ++ escape kept more := rfl
      rw [split, List.append_assoc]
      by_cases keeps : kept c = true
      · have plain : c ≠ '%' := by
          rintro rfl
          rw [percent] at keeps
          cases keeps
        rw [if_pos keeps, List.singleton_append, bytes_cons plain, ih]
        simp [Option.map_map, Function.comp_def]
      · rw [if_neg keeps, bytes_encode_append, ih]
        simp [Option.map_map, Function.comp_def]

/-- A text without `%` reads as itself. -/
theorem bytes_plain {text : List Char} (plain : '%' ∉ text) : bytes text = some (utf8Encode text) := by
  induction text with
  | nil => rfl
  | cons c rest ih =>
      obtain ⟨first, later⟩ : c ≠ '%' ∧ '%' ∉ rest := by simpa [eq_comm] using plain
      rw [bytes_cons first, ih later]
      rfl

theorem decode_plain {text : List Char} (plain : '%' ∉ text) : decode text = some text := by
  rw [decode, bytes_plain plain]
  exact utf8Decode_encode text

/-- Texts are read one after the other, as long as the first can be read alone. -/
theorem bytes_append {text : List Char} {read : List UInt8} (found : bytes text = some read)
    (rest : List Char) : bytes (text ++ rest) = (bytes rest).map (read ++ ·) := by
  fun_induction bytes text generalizing read with
  | case1 =>
      obtain rfl := Option.some.inj found
      simp
  | case2 high low more ih =>
      simp only [Option.bind_eq_bind, Option.bind_eq_some_iff, Option.some.injEq] at found
      obtain ⟨x, first, y, second, others, later, rfl⟩ := found
      show bytes ('%' :: high :: low :: (more ++ rest)) = _
      rw [bytes, first, second, ih later]
      cases bytes rest <;> rfl
  | case3 => cases found
  | case4 c more _ plain ih =>
      obtain ⟨others, later, rfl⟩ := Option.map_eq_some_iff.mp found
      rw [List.cons_append, bytes_cons plain, ih later]
      simp [Option.map_map, Function.comp_def]

/-- Reading loses two characters with every `%`. -/
theorem bytes_shorter {text : List Char} {read : List UInt8} (found : bytes text = some read) :
    read.length ≤ (utf8Encode text).length ∧
      ('%' ∈ text → read.length < (utf8Encode text).length) := by
  fun_induction bytes text generalizing read with
  | case1 =>
      obtain rfl := Option.some.inj found
      exact ⟨Nat.le_refl 0, by simp⟩
  | case2 high low rest ih =>
      simp only [Option.bind_eq_bind, Option.bind_eq_some_iff, Option.some.injEq] at found
      obtain ⟨x, -, y, -, others, later, rfl⟩ := found
      have fewer := (ih later).1
      have first := utf8EncodeChar_pos '%'
      have second := utf8EncodeChar_pos high
      simp only [utf8Encode_cons, List.length_append, List.length_cons]
      exact ⟨by omega, fun _ => by omega⟩
  | case3 => cases found
  | case4 c rest noEscape noPercent ih =>
      obtain ⟨others, later, rfl⟩ := Option.map_eq_some_iff.mp found
      obtain ⟨fewer, strict⟩ := ih later
      simp only [utf8Encode_cons, List.length_append, List.mem_cons]
      refine ⟨by omega, ?_⟩
      rintro (same | member)
      · exact absurd same.symm noPercent
      · have less := strict member
        omega

theorem decode_shorter {text decoded : List Char} (found : decode text = some decoded) :
    (utf8Encode decoded).length ≤ (utf8Encode text).length ∧
      ('%' ∈ text → (utf8Encode decoded).length < (utf8Encode text).length) := by
  obtain ⟨read, parsed, decodes⟩ := Option.bind_eq_some_iff.mp found
  obtain rfl := utf8Decode_eq_some_iff.mp decodes
  exact bytes_shorter parsed

end Escapes

end Percent

end S3Manager.Library
