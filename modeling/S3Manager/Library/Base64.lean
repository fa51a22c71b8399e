import Mathlib.Data.List.DropRight
import S3Manager.Library.Utf8

/-! Base64 with the standard alphabet: three bytes as four characters, and `=` signs that
complete the last four. The strict decoder takes nothing else; the lenient one skips what
does not belong, and ends at the first padding that completes a group. -/

set_option autoImplicit false

namespace S3Manager.Library

namespace Base64

/-- The six bits that a character of the alphabet stands for. -/
def sextet (c : Char) : Option Nat :=
  if 'A' ≤ c ∧ c ≤ 'Z' then some (c.toNat - 65)
  else if 'a' ≤ c ∧ c ≤ 'z' then some (c.toNat - 71)
  else if '0' ≤ c ∧ c ≤ '9' then some (c.toNat + 4)
  else if c = '+' then some 62
  else if c = '/' then some 63
  else none

def alphabet : List Char :=
  "ABCDEFGHIJKLMNOPQRSTUVWXYZabcdefghijklmnopqrstuvwxyz0123456789+/".toList

def digit (value : Nat) : Char :=
  alphabet.getD value '='

/-- The last bits of an incomplete group are not looked at. -/
def decode : List Char → Option (List UInt8)
  | [] => some []
  | [a, b, '=', '='] => do
      let x ← sextet a
      let y ← sextet b
      some [.ofNat (x * 4 + y / 16)]
  | [a, b, c, '='] => do
      let x ← sextet a
      let y ← sextet b
      let z ← sextet c
      some [.ofNat (x * 4 + y / 16), .ofNat (y % 16 * 16 + z / 4)]
  | a :: b :: c :: d :: rest => do
      let x ← sextet a
      let y ← sextet b
      let z ← sextet c
      let w ← sextet d
      let others ← decode rest
      some (.ofNat (x * 4 + y / 16) :: .ofNat (y % 16 * 16 + z / 4) :: .ofNat (z % 4 * 64 + w) ::
        others)
  | _ => none

def encode : List UInt8 → List Char
  | [] => []
  | [x] => [digit (x.toNat / 4), digit (x.toNat % 4 * 16), '=', '=']
  | [x, y] =>
      [digit (x.toNat / 4), digit (x.toNat % 4 * 16 + y.toNat / 16), digit (y.toNat % 16 * 4), '=']
  | x :: y :: z :: rest =>
      digit (x.toNat / 4) :: digit (x.toNat % 4 * 16 + y.toNat / 16) ::
        digit (y.toNat % 16 * 4 + z.toNat / 64) :: digit (z.toNat % 64) :: encode rest

/-- `met` counts the characters of the group that is being read, `left` holds the bits of
it that are still to be written, and `pads` the signs that may complete it. -/
def decodeLenient : Nat → Nat → Nat → List Char → Option (List UInt8)
  | met, _, _, [] => if met = 0 then some [] else none
  | met, left, pads, c :: rest =>
      if c = '=' then
        if 2 ≤ met then
          if 4 ≤ met + (pads + 1) then some [] else decodeLenient met left (pads + 1) rest
        else decodeLenient met left pads rest
      else
        match sextet c with
        | none => decodeLenient met left pads rest
        | some value =>
            match met with
            | 0 => decodeLenient 1 value 0 rest
            | 1 => (decodeLenient 2 (value % 16) 0 rest).map (.ofNat (left * 4 + value / 16) :: ·)
            | 2 => (decodeLenient 3 (value % 4) 0 rest).map (.ofNat (left * 16 + value / 4) :: ·)
            | _ => (decodeLenient 0 0 0 rest).map (.ofNat (left * 64 + value) :: ·)

section Laws

theorem sextet_pad : sextet '=' = none := by decide

theorem sextet_digit {value : Nat} (small : value < 64) : sextet (digit value) = some value := by
  have all : ∀ value < 64, sextet (digit value) = some value := by decide +kernel
  exact all value small

theorem digit_not_pad {value : Nat} (small : value < 64) : digit value ≠ '=' := by
  intro same
  have read := sextet_digit small
  rw [same, sextet_pad] at read
  cases read

/-- How many of the last two characters are padding. -/
def padding (text : List Char) : Nat :=
  let tail := text.drop (text.length - 2)
  tail.length - (tail.rdropWhile fun c => c == '=').length

/-- Without a sign at the end there is no padding. -/
theorem padding_full {a b c d : Char} (live : d ≠ '=') : padding [a, b, c, d] = 0 := by
  simp [padding, List.rdropWhile, live]

theorem padding_later {a b c d : Char} {rest : List Char} (more : 2 ≤ rest.length) :
    padding (a :: b :: c :: d :: rest) = padding rest := by
  have cut : (a :: b :: c :: d :: rest).length - 2 = rest.length - 2 + 4 := by
    simp only [List.length_cons]
    omega
  have same : (a :: b :: c :: d :: rest).drop (rest.length - 2 + 4) =
      rest.drop (rest.length - 2) := rfl
  simp only [padding, cut, same]

/-- Three bytes for every four characters, less the padding. -/
theorem decode_length {text : List Char} {bytes : List UInt8} (decoded : decode text = some bytes) :
    ∃ groups, text.length = 4 * groups ∧ bytes.length + padding text = 3 * groups ∧
      padding text ≤ 2 := by
  fun_induction decode text generalizing bytes with
  | case1 =>
      obtain rfl := Option.some.inj decoded
      exact ⟨0, rfl, rfl, by decide⟩
  | case2 a b =>
      simp only [Option.bind_eq_bind, Option.bind_eq_some_iff, Option.some.injEq] at decoded
      obtain ⟨x, -, y, -, rfl⟩ := decoded
      have pads : padding [a, b, '=', '='] = 2 := rfl
      exact ⟨1, rfl, by rw [pads]; rfl, pads.le⟩
  | case3 a b c live =>
      simp only [Option.bind_eq_bind, Option.bind_eq_some_iff, Option.some.injEq] at decoded
      obtain ⟨x, -, y, -, z, -, rfl⟩ := decoded
      have pads : padding [a, b, c, '='] = 1 := by
        have live : c ≠ '=' := live
        simp [padding, List.rdropWhile, live]
      exact ⟨1, rfl, by rw [pads]; rfl, by omega⟩
  | case4 a b c d rest _ _ ih =>
      simp only [Option.bind_eq_bind, Option.bind_eq_some_iff, Option.some.injEq] at decoded
      obtain ⟨x, -, y, -, z, -, w, read, others, later, rfl⟩ := decoded
      obtain ⟨groups, chars, counted, few⟩ := ih later
      have live : d ≠ '=' := by
        rintro rfl
        rw [sextet_pad] at read
        cases read
      cases groups with
      | zero =>
          obtain rfl := List.length_eq_zero_iff.mp chars
          obtain rfl := Option.some.inj later
          exact ⟨1, rfl, by rw [padding_full live]; rfl, by rw [padding_full live]; omega⟩
      | succ groups =>
          have same := @padding_later a b c d rest (by omega)
          refine ⟨groups + 1 + 1, ?_, ?_, same ▸ few⟩
          · simp only [List.length_cons]
            omega
          · simp only [List.length_cons, same]
            omega
  | case5 => cases decoded

theorem byte_ofNat {x : UInt8} {value : Nat} (same : value = x.toNat) : UInt8.ofNat value = x := by
  rw [same, UInt8.ofNat_toNat]

theorem first_byte (x : UInt8) {low : Nat} (small : low < 16) :
    UInt8.ofNat (x.toNat / 4 * 4 + (x.toNat % 4 * 16 + low) / 16) = x :=
  byte_ofNat (by omega)

theorem second_byte (x y : UInt8) {low : Nat} (small : low < 4) :
    UInt8.ofNat ((x.toNat % 4 * 16 + y.toNat / 16) % 16 * 16 + (y.toNat % 16 * 4 + low) / 4) = y := by
  have bound := y.toNat_lt
  exact byte_ofNat (by omega)

theorem third_byte (y z : UInt8) :
    UInt8.ofNat ((y.toNat % 16 * 4 + z.toNat / 64) % 4 * 64 + z.toNat % 64) = z := by
  have bound := z.toNat_lt
  exact byte_ofNat (by omega)

theorem decode_encode (bytes : List UInt8) : decode (encode bytes) = some bytes := by
  fun_induction encode bytes with
  | case1 => rfl
  | case2 x =>
      have byte := x.toNat_lt
      have whole := @first_byte x 0 (by omega)
      rw [decode, sextet_digit (by omega), sextet_digit (by omega)]
      simpa using whole
  | case3 x y =>
      have byte := x.toNat_lt
      have second := y.toNat_lt
      have whole := @first_byte x (y.toNat / 16) (by omega)
      have next := @second_byte x y 0 (by omega)
      rw [decode, sextet_digit (by omega), sextet_digit (by omega), sextet_digit (by omega)]
      · simp only [Nat.add_zero] at next
        simp only [Option.bind_eq_bind, Option.bind_some, whole, next]
      · exact digit_not_pad (by omega)
  | case4 x y z rest ih =>
      have byte := x.toNat_lt
      have second := y.toNat_lt
      have third := z.toNat_lt
      have whole := @first_byte x (y.toNat / 16) (by omega)
      have next := @second_byte x y (z.toNat / 64) (by omega)
      have last := third_byte y z
      have live : digit (z.toNat % 64) ≠ '=' := digit_not_pad (by omega)
      rw [decode, sextet_digit (by omega), sextet_digit (by omega), sextet_digit (by omega),
        sextet_digit (by omega), ih]
      · simp only [Option.bind_eq_bind, Option.bind_some, whole, next, last]
      · exact fun _ same => absurd same live
      · exact fun same => absurd same live

section Groups

variable {value : Nat} (small : value < 64) (left pads : Nat) (rest : List Char)

include small

theorem lenient_first : decodeLenient 0 left pads (digit value :: rest) =
    decodeLenient 1 value 0 rest := by
  simp only [decodeLenient, if_neg (digit_not_pad small), sextet_digit small]

theorem lenient_second : decodeLenient 1 left pads (digit value :: rest) =
    (decodeLenient 2 (value % 16) 0 rest).map (.ofNat (left * 4 + value / 16) :: ·) := by
  simp only [decodeLenient, if_neg (digit_not_pad small), sextet_digit small]

theorem lenient_third : decodeLenient 2 left pads (digit value :: rest) =
    (decodeLenient 3 (value % 4) 0 rest).map (.ofNat (left * 16 + value / 4) :: ·) := by
  simp only [decodeLenient, if_neg (digit_not_pad small), sextet_digit small]

theorem lenient_fourth : decodeLenient 3 left pads (digit value :: rest) =
    (decodeLenient 0 0 0 rest).map (.ofNat (left * 64 + value) :: ·) := by
  simp only [decodeLenient, if_neg (digit_not_pad small), sextet_digit small]

end Groups

/-- The lenient decoder reads what is encoded, too. -/
theorem decodeLenient_encode (bytes : List UInt8) :
    decodeLenient 0 0 0 (encode bytes) = some bytes := by
  fun_induction encode bytes with
  | case1 => rfl
  | case2 x =>
      have byte := x.toNat_lt
      have whole := @first_byte x 0 (by omega)
      rw [lenient_first (by omega), lenient_second (by omega)]
      simp only [Nat.add_zero] at whole
      rw [whole]
      rfl
  | case3 x y =>
      have byte := x.toNat_lt
      have second := y.toNat_lt
      have whole := @first_byte x (y.toNat / 16) (by omega)
      have next := @second_byte x y 0 (by omega)
      rw [lenient_first (by omega), lenient_second (by omega), lenient_third (by omega)]
      simp only [Nat.add_zero] at next
      rw [whole, next]
      rfl
  | case4 x y z rest ih =>
      have byte := x.toNat_lt
      have second := y.toNat_lt
      have third := z.toNat_lt
      have whole := @first_byte x (y.toNat / 16) (by omega)
      have next := @second_byte x y (z.toNat / 64) (by omega)
      have last := third_byte y z
      rw [lenient_first (by omega), lenient_second (by omega), lenient_third (by omega),
        lenient_fourth (by omega), ih, whole, next, last]
      rfl

theorem sextet_ascii {c : Char} {value : Nat} (read : sextet c = some value) : c ≤ 'z' := by
  unfold sextet at read
  split_ifs at read with upper lower number plus slash
  · exact Char.le_trans upper.2 (by decide)
  · exact lower.2
  · exact Char.le_trans number.2 (by decide)
  · exact plus ▸ by decide
  · exact slash ▸ by decide

theorem digit_ascii {value : Nat} (small : value < 64) : (digit value).toNat < 128 := by
  have all : ∀ value < 64, (digit value).toNat < 128 := by decide +kernel
  exact all value small

theorem encode_ascii {bytes : List UInt8} {c : Char} (member : c ∈ encode bytes) :
    c.toNat < 128 := by
  have pad : '='.toNat < 128 := by decide
  fun_induction encode bytes with
  | case1 => cases member
  | case2 x =>
      have byte := x.toNat_lt
      simp only [List.mem_cons, List.not_mem_nil, or_false] at member
      rcases member with rfl | rfl | rfl | rfl
      · exact digit_ascii (by omega)
      · exact digit_ascii (by omega)
      · exact pad
      · exact pad
  | case3 x y =>
      have byte := x.toNat_lt
      have second := y.toNat_lt
      simp only [List.mem_cons, List.not_mem_nil, or_false] at member
      rcases member with rfl | rfl | rfl | rfl
      · exact digit_ascii (by omega)
      · exact digit_ascii (by omega)
      · exact digit_ascii (by omega)
      · exact pad
  | case4 x y z rest ih =>
      have byte := x.toNat_lt
      have second := y.toNat_lt
      have third := z.toNat_lt
      simp only [List.mem_cons] at member
      rcases member with rfl | rfl | rfl | rfl | later
      · exact digit_ascii (by omega)
      · exact digit_ascii (by omega)
      · exact digit_ascii (by omega)
      · exact digit_ascii (by omega)
      · exact ih later

theorem utf8EncodeChar_ascii {c : Char} (ascii : c ≤ 'z') :
    (String.utf8EncodeChar c).length = 1 := by
  have small : c.val ≤ 0x7f := UInt32.le_trans (Char.le_def.mp ascii) (by decide)
  rw [String.length_utf8EncodeChar, Char.utf8Size]
  exact if_pos small

/-- What is decoded travels as one byte a character. -/
theorem decode_bytes {text : List Char} {bytes : List UInt8} (decoded : decode text = some bytes) :
    (utf8Encode text).length = text.length := by
  have pad : (String.utf8EncodeChar '=').length = 1 := utf8EncodeChar_ascii (by decide)
  fun_induction decode text generalizing bytes with
  | case1 => rfl
  | case2 a b =>
      simp only [Option.bind_eq_bind, Option.bind_eq_some_iff] at decoded
      obtain ⟨x, first, y, second, -⟩ := decoded
      simp only [utf8Encode_cons, utf8Encode_nil, List.length_append, List.length_cons,
        List.length_nil, utf8EncodeChar_ascii (sextet_ascii first),
        utf8EncodeChar_ascii (sextet_ascii second), pad]
  | case3 a b c _ =>
      simp only [Option.bind_eq_bind, Option.bind_eq_some_iff] at decoded
      obtain ⟨x, first, y, second, z, third, -⟩ := decoded
      simp only [utf8Encode_cons, utf8Encode_nil, List.length_append, List.length_cons,
        List.length_nil, utf8EncodeChar_ascii (sextet_ascii first),
        utf8EncodeChar_ascii (sextet_ascii second), utf8EncodeChar_ascii (sextet_ascii third), pad]
  | case4 a b c d rest _ _ ih =>
      simp only [Option.bind_eq_bind, Option.bind_eq_some_iff] at decoded
      obtain ⟨x, first, y, second, z, third, w, fourth, others, later, -⟩ := decoded
      simp only [utf8Encode_cons, List.length_append, List.length_cons, ih later,
        utf8EncodeChar_ascii (sextet_ascii first), utf8EncodeChar_ascii (sextet_ascii second),
        utf8EncodeChar_ascii (sextet_ascii third), utf8EncodeChar_ascii (sextet_ascii fourth)]
      omega
  | case5 => cases decoded

end Laws

end Base64

end S3Manager.Library
