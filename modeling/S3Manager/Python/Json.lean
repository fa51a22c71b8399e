import Mathlib.Data.Rat.Defs
import S3Manager.Library.Assoc
import S3Manager.Python.Error

/-! JSON documents as Python holds them after `json.load`: what configuration
files and request bodies are made of. -/

set_option autoImplicit false

namespace S3Manager.Python

open Library

/-- A Python `float`; a finite one is the rational number it stands for. -/
inductive PyFloat where
  | finite (value : Rat)
  | infinite (negative : Bool)
  | nan
  deriving DecidableEq

inductive Json where
  | null
  | bool (value : Bool)
  | int (value : Int)
  | float (value : PyFloat)
  | str (value : Str)
  | arr (items : List Json)
  | obj (fields : List (Str × Json))

/-- A Python `dict` with string keys. -/
abbrev Dict := List (Str × Json)

namespace Json

mutual

def decEq (left right : Json) : Decidable (left = right) :=
  match left, right with
  | .null, .null => isTrue rfl
  | .bool a, .bool b =>
      if same : a = b then isTrue (same ▸ rfl) else isFalse fun eq => same (by cases eq; rfl)
  | .int a, .int b =>
      if same : a = b then isTrue (same ▸ rfl) else isFalse fun eq => same (by cases eq; rfl)
  | .float a, .float b =>
      if same : a = b then isTrue (same ▸ rfl) else isFalse fun eq => same (by cases eq; rfl)
  | .str a, .str b =>
      if same : a = b then isTrue (same ▸ rfl) else isFalse fun eq => same (by cases eq; rfl)
  | .arr a, .arr b =>
      match decEqItems a b with
      | isTrue same => isTrue (same ▸ rfl)
      | isFalse different => isFalse fun eq => different (by cases eq; rfl)
  | .obj a, .obj b =>
      match decEqFields a b with
      | isTrue same => isTrue (same ▸ rfl)
      | isFalse different => isFalse fun eq => different (by cases eq; rfl)
  | .null, .bool _ | .null, .int _ | .null, .float _ | .null, .str _ | .null, .arr _
  | .null, .obj _ | .bool _, .null | .bool _, .int _ | .bool _, .float _ | .bool _, .str _
  | .bool _, .arr _ | .bool _, .obj _ | .int _, .null | .int _, .bool _ | .int _, .float _
  | .int _, .str _ | .int _, .arr _ | .int _, .obj _ | .float _, .null | .float _, .bool _
  | .float _, .int _ | .float _, .str _ | .float _, .arr _ | .float _, .obj _ | .str _, .null
  | .str _, .bool _ | .str _, .int _ | .str _, .float _ | .str _, .arr _ | .str _, .obj _
  | .arr _, .null | .arr _, .bool _ | .arr _, .int _ | .arr _, .float _ | .arr _, .str _
  | .arr _, .obj _ | .obj _, .null | .obj _, .bool _ | .obj _, .int _ | .obj _, .float _
  | .obj _, .str _ | .obj _, .arr _ => isFalse nofun

def decEqItems (left right : List Json) : Decidable (left = right) :=
  match left, right with
  | [], [] => isTrue rfl
  | a :: restA, b :: restB =>
      match decEq a b, decEqItems restA restB with
      | isTrue sameHead, isTrue sameRest => isTrue (by rw [sameHead, sameRest])
      | isFalse different, _ => isFalse fun eq => different (by cases eq; rfl)
      | _, isFalse different => isFalse fun eq => different (by cases eq; rfl)
  | [], _ :: _ => isFalse nofun
  | _ :: _, [] => isFalse nofun

def decEqFields (left right : List (Str × Json)) : Decidable (left = right) :=
  match left, right with
  | [], [] => isTrue rfl
  | (keyA, a) :: restA, (keyB, b) :: restB =>
      if sameKey : keyA = keyB then
        match decEq a b, decEqFields restA restB with
        | isTrue sameHead, isTrue sameRest => isTrue (by rw [sameKey, sameHead, sameRest])
        | isFalse different, _ => isFalse fun eq => different (by cases eq; rfl)
        | _, isFalse different => isFalse fun eq => different (by cases eq; rfl)
      else isFalse fun eq => sameKey (by cases eq; rfl)
  | [], _ :: _ => isFalse nofun
  | _ :: _, [] => isFalse nofun

end

instance : DecidableEq Json := decEq

/-- `bool(value)` -/
def truthy : Json → Bool
  | .null => false
  | .bool value => value
  | .int value => value != 0
  | .float (.finite value) => value != 0
  | .float _ => true
  | .str value => !value.isEmpty
  | .arr items => !items.isEmpty
  | .obj fields => !fields.isEmpty

end Json

/-- `d.get(key)`: a missing key reads as `None`. -/
def dictGet (d : Dict) (key : String) : Json :=
  (Assoc.get? d (lit key)).getD .null

/-- `d.get(key, default)` -/
def dictGetD (d : Dict) (key : String) (fallback : Json) : Json :=
  (Assoc.get? d (lit key)).getD fallback

/-- `key in d` -/
def dictHas (d : Dict) (key : String) : Bool :=
  Assoc.contains d (lit key)

/-- `d[key] = value` -/
def dictSet (d : Dict) (key : String) (value : Json) : Dict :=
  Assoc.set d (lit key) value

/-- `for item in value` -/
def iterate : Json → Result (List Json)
  | .arr items => .ok items
  | .obj fields => .ok (fields.map fun field => .str field.1)
  | .str s => .ok (s.map fun c => .str [c])
  | .null | .bool _ | .int _ | .float _ => raise .typeError (lit "object is not iterable")

section Int

variable (unicode : Unicode)

/-- The digits of an integer literal, with single underscores between digits.
`afterDigit` says that the last character read was a digit. -/
def digitRun : Bool → Nat → Str → Option Nat
  | afterDigit, value, [] => if afterDigit then some value else none
  | afterDigit, value, c :: rest =>
      if c = '_' then
        if afterDigit then digitRun false value rest else none
      else
        match unicode.digit c with
        | some d => digitRun true (10 * value + d) rest
        | none => none

/-- `int(s)` for a string; `None` stands for the `ValueError`. -/
def intOfStr (s : Str) : Option Int :=
  match strip s with
  | '-' :: digits => (digitRun unicode false 0 digits).map fun n => -(n : Int)
  | '+' :: digits => (digitRun unicode false 0 digits).map fun n => (n : Int)
  | digits => (digitRun unicode false 0 digits).map fun n => (n : Int)

/-- `int(value)` -/
def pyInt : Json → Result Int
  | .bool value => .ok (if value then 1 else 0)
  | .int value => .ok value
  | .float (.finite value) => .ok (value.num.tdiv value.den)
  | .float (.infinite _) =>
      raise .overflowError (lit "cannot convert float infinity to integer")
  | .float .nan => raise .valueError (lit "cannot convert float NaN to integer")
  | .str value =>
      match intOfStr unicode value with
      | some n => .ok n
      | none =>
          raise .valueError (lit "invalid literal for int() with base 10: '" ++ value ++ ['\''])
  | .null | .arr _ | .obj _ =>
      raise .typeError
        (lit "int() argument must be a string, a bytes-like object or a real number")

end Int

end S3Manager.Python
