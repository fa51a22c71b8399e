import S3Manager.Python.Json

/-! JSON texts: what `json.dump(value, indent=2, ensure_ascii=False)` writes, and what
`json.load` reads. A written value is read back as it was. -/

set_option autoImplicit false

namespace S3Manager.Python

open Library

section Atoms

/-- The escapes of a string, by `ESCAPE_DCT`; other control characters get `\u00XX`. -/
def escapeChar (c : Char) : Str :=
  if c = '"' then ['\\', '"']
  else if c = '\\' then ['\\', '\\']
  else if c = '\n' then ['\\', 'n']
  else if c = '\r' then ['\\', 'r']
  else if c = '\t' then ['\\', 't']
  else if c = '\x0c' then ['\\', 'f']
  else if c = '\x08' then ['\\', 'b']
  else if c.toNat < 32 then
    ['\\', 'u', '0', '0', (c.toNat / 16).digitChar, (c.toNat % 16).digitChar]
  else [c]

def quoted (s : Str) : Str :=
  '"' :: s.flatMap escapeChar ++ ['"']

def intText (value : Int) : Str :=
  if value < 0 then '-' :: Nat.toDigits 10 value.natAbs else Nat.toDigits 10 value.natAbs

def isNumberChar (c : Char) : Bool :=
  c.isDigit || c == '-' || c == '+' || c == '.' || c == 'e' || c == 'E'

/-- `0|[1-9][0-9]*` -/
def isNatural (s : Str) : Bool :=
  s == ['0'] || !s.isEmpty && s.all Char.isDigit && s.head? != some '0'

def unsigned (s : Str) : Str :=
  match s with
  | '-' :: rest => rest
  | _ => s

def isExponent (s : Str) : Bool :=
  let digits := match s with
    | '-' :: rest => rest
    | '+' :: rest => rest
    | _ => s
  !digits.isEmpty && digits.all Char.isDigit

/-- A number literal with a fraction or an exponent. -/
def isFloatLiteral (s : Str) : Bool :=
  let mantissa := s.takeWhile fun c => c != 'e' && c != 'E'
  let exponent := (s.drop mantissa.length).tail
  let whole := mantissa.takeWhile fun c => c != '.'
  let fraction := (mantissa.drop whole.length).tail
  s.all isNumberChar && isNatural (unsigned whole) &&
    (whole != mantissa && !fraction.isEmpty && fraction.all Char.isDigit ||
      whole == mantissa && mantissa != s) &&
    (mantissa == s || isExponent exponent)

/-- `float.__repr__`, and `float()` on the literals of numbers; the floats are those
rational numbers that a double can hold. -/
structure FloatText where
  IsDouble : Rat → Prop
  text : Rat → Str
  read : Str → PyFloat
  literal : ∀ value, IsDouble value → isFloatLiteral (text value) = true
  exact : ∀ value, IsDouble value → read (text value) = .finite value

end Atoms

section Writing

variable (floats : FloatText)

def floatText : PyFloat → Str
  | .finite value => floats.text value
  | .infinite negative => if negative then lit "-Infinity" else lit "Infinity"
  | .nan => lit "NaN"

/-- A line break, and two blanks for each level. -/
def newline (level : Nat) : Str :=
  '\n' :: List.replicate (2 * level) ' '

mutual

/-- `json.dump(value, indent=2, ensure_ascii=False)`, at a level of nesting. -/
def dump (level : Nat) : Json → Str
  | .null => lit "null"
  | .bool value => if value then lit "true" else lit "false"
  | .int value => intText value
  | .float value => floatText floats value
  | .str value => quoted value
  | .arr [] => lit "[]"
  | .arr (item :: rest) =>
      '[' :: (dumpItems (level + 1) (item :: rest) ++ newline level ++ [']'])
  | .obj [] => lit "\x7b\x7d"
  | .obj (field :: rest) =>
      '{' :: (dumpFields (level + 1) (field :: rest) ++ newline level ++ ['}'])

def dumpItems (level : Nat) : List Json → Str
  | [] => []
  | [item] => newline level ++ dump level item
  | item :: next :: rest =>
      newline level ++ dump level item ++ ',' :: dumpItems level (next :: rest)

def dumpFields (level : Nat) : List (Str × Json) → Str
  | [] => []
  | [(key, value)] => newline level ++ quoted key ++ ':' :: ' ' :: dump level value
  | (key, value) :: next :: rest =>
      newline level ++ quoted key ++ ':' :: ' ' :: dump level value ++
        ',' :: dumpFields level (next :: rest)

end

end Writing

section Reading

variable (floats : FloatText)

def isJsonSpace (c : Char) : Bool :=
  c == ' ' || c == '\t' || c == '\n' || c == '\r'

def skipSpace (s : Str) : Str :=
  s.dropWhile isJsonSpace

def hexDigit (c : Char) : Option Nat :=
  if '0' ≤ c ∧ c ≤ '9' then some (c.toNat - 48)
  else if 'a' ≤ c ∧ c ≤ 'f' then some (c.toNat - 87)
  else if 'A' ≤ c ∧ c ≤ 'F' then some (c.toNat - 55)
  else none

def hexFour (a b c d : Char) : Option Nat :=
  match hexDigit a, hexDigit b, hexDigit c, hexDigit d with
  | some a, some b, some c, some d => some (4096 * a + 256 * b + 16 * c + d)
  | _, _, _, _ => none

/-- `BACKSLASH` -/
def unescaped : Char → Option Char
  | '"' => some '"'
  | '\\' => some '\\'
  | '/' => some '/'
  | 'b' => some '\x08'
  | 'f' => some '\x0c'
  | 'n' => some '\n'
  | 'r' => some '\r'
  | 't' => some '\t'
  | _ => none

/-- One character of a string. Two escapes of surrogates make one character; a lone
one has no place in a text. -/
def parseChar : Str → Option (Char × Str)
  | '\\' :: 'u' :: a :: b :: c :: d :: rest =>
      match hexFour a b c d with
      | none => none
      | some code =>
          if code < 0xD800 ∨ 0xE000 ≤ code then some (Char.ofNat code, rest)
          else
            match rest with
            | '\\' :: 'u' :: e :: f :: g :: h :: rest =>
                match hexFour e f g h with
                | none => none
                | some low =>
                    if code < 0xDC00 ∧ 0xDC00 ≤ low ∧ low < 0xE000 then
                      some (Char.ofNat (0x10000 + (code - 0xD800) * 0x400 + (low - 0xDC00)), rest)
                    else none
            | _ => none
  | '\\' :: c :: rest => (unescaped c).map fun char => (char, rest)
  | c :: rest => if c.toNat < 32 ∨ c = '\\' then none else some (c, rest)
  | [] => none

/-- A string behind its opening quote. -/
def parseString : Nat → Str → Option (Str × Str)
  | 0, _ => none
  | fuel + 1, s =>
      match s with
      | '"' :: rest => some ([], rest)
      | _ =>
          match parseChar s with
          | none => none
          | some (c, rest) => (parseString fuel rest).map fun found => (c :: found.1, found.2)

def constants : List (Str × Json) :=
  [(lit "null", .null), (lit "true", .bool true), (lit "false", .bool false),
    (lit "NaN", .float .nan), (lit "Infinity", .float (.infinite false)),
    (lit "-Infinity", .float (.infinite true))]

def readNumber (s : Str) : Option Json :=
  if isNatural (unsigned s) then
    let size : Int := Nat.ofDigitChars 10 (unsigned s) 0
    some (.int (if s.head? = some '-' then -size else size))
  else if isFloatLiteral s then some (.float (floats.read s))
  else none

def parseAtom (s : Str) : Option (Json × Str) :=
  match constants.find? fun constant => constant.1.isPrefixOf s with
  | some (word, value) => some (value, s.drop word.length)
  | none => (readNumber floats (s.takeWhile isNumberChar)).map fun value =>
      (value, s.dropWhile isNumberChar)

/-- A later field of a name takes the place of the earlier one. -/
def dictOf (fields : List (Str × Json)) : Dict :=
  fields.foldl (fun dict field => Assoc.set dict field.1 field.2) []

/-- A key with the colon and the blanks behind it. -/
def parseKey (fuel : Nat) : Str → Option (Str × Str)
  | '"' :: rest =>
      match parseString fuel rest with
      | none => none
      | some (key, rest) =>
          match skipSpace rest with
          | ':' :: rest => some (key, skipSpace rest)
          | _ => none
  | _ => none

mutual

def parseValue : Nat → Str → Option (Json × Str)
  | 0, _ => none
  | fuel + 1, s =>
      match s with
      | '"' :: rest => (parseString fuel rest).map fun found => (.str found.1, found.2)
      | '[' :: rest =>
          match skipSpace rest with
          | ']' :: rest => some (.arr [], rest)
          | rest => (parseItems fuel rest).map fun found => (.arr found.1, found.2)
      | '{' :: rest =>
          match skipSpace rest with
          | '}' :: rest => some (.obj [], rest)
          | rest => (parseFields fuel rest).map fun found => (.obj (dictOf found.1), found.2)
      | s => parseAtom floats s

/-- The items of an array up to its closing bracket. -/
def parseItems : Nat → Str → Option (List Json × Str)
  | 0, _ => none
  | fuel + 1, s =>
      match parseValue fuel s with
      | none => none
      | some (item, rest) =>
          match skipSpace rest with
          | ']' :: rest => some ([item], rest)
          | ',' :: rest => (parseItems fuel (skipSpace rest)).map fun found =>
              (item :: found.1, found.2)
          | _ => none

/-- The fields of an object up to its closing brace. -/
def parseFields : Nat → Str → Option (List (Str × Json) × Str)
  | 0, _ => none
  | fuel + 1, s =>
      match parseKey fuel s with
      | none => none
      | some (key, rest) =>
          match parseValue fuel rest with
          | none => none
          | some (value, rest) =>
              match skipSpace rest with
              | '}' :: rest => some ([(key, value)], rest)
              | ',' :: rest => (parseFields fuel (skipSpace rest)).map fun found =>
                  ((key, value) :: found.1, found.2)
              | _ => none

end

/-- `json.loads(text)` -/
def loads (text : Str) : Result Json :=
  match parseValue floats (text.length + 1) (skipSpace text) with
  | none => raise .valueError (lit "Expecting value")
  | some (value, rest) =>
      if (skipSpace rest).isEmpty then .ok value else raise .valueError (lit "Extra data")

end Reading

end S3Manager.Python
