import Mathlib.Data.Char
import Mathlib.Data.List.Lex
import Mathlib.Data.List.Infix
import S3Manager.Library.Trim

/-! The part of Python's `str` that paths, keys and role names go through. A
string is the list of its code points. -/

set_option autoImplicit false

namespace S3Manager.Python

open Library

abbrev Str := List Char

instance : LawfulBEq Str := inferInstance

/-- A string literal of the source. -/
def lit (s : String) : Str := s.toList

/-- `str.isspace` on one code point: what `str.strip()` removes. -/
def isSpace (c : Char) : Bool :=
  let n := c.toNat
  (0x09 ≤ n && n ≤ 0x0d) || (0x1c ≤ n && n ≤ 0x20) || n == 0x85 || n == 0xa0 || n == 0x1680 ||
    (0x2000 ≤ n && n ≤ 0x200a) || n == 0x2028 || n == 0x2029 || n == 0x202f || n == 0x205f ||
    n == 0x3000

def isSlash (c : Char) : Bool := c == '/'

/-- The class `[\x00-\x1f\x7f]` of the sanitizers. -/
def isControl (c : Char) : Bool :=
  c.toNat ≤ 0x1f || c.toNat == 0x7f

def lstrip (s : Str) : Str := s.dropWhile isSpace

def rstrip (s : Str) : Str := s.rdropWhile isSpace

def strip (s : Str) : Str := trimBy isSpace s

/-- `s.strip("/")` -/
def stripSlash (s : Str) : Str := trimBy isSlash s

/-- `s.rstrip("/")` -/
def rstripSlash (s : Str) : Str := s.rdropWhile isSlash

def startsWith (s start : Str) : Bool := start.isPrefixOf s

def endsWith (s stop : Str) : Bool := stop.isSuffixOf s

/-- `needle in s` -/
def containsSub (s needle : Str) : Bool := decide (needle <:+: s)

/-- Case mapping comes from the Unicode tables of the runtime; only its effect
on ASCII text is fixed here. `digit` is the decimal value of a code point. -/
structure Unicode where
  lower : Str → Str
  lower_ascii : ∀ s : Str, (∀ c ∈ s, c.toNat < 128) → lower s = s.map Char.toLower
  digit : Char → Option Nat
  digit_ascii : ∀ c : Char, c.toNat < 128 →
    digit c = if c.isDigit then some (c.toNat - '0'.toNat) else none

/-- The tables that know ASCII letters and digits only. -/
def Unicode.ascii : Unicode where
  lower := fun s => s.map Char.toLower
  lower_ascii := fun _ _ => rfl
  digit := fun c => if c.isDigit then some (c.toNat - '0'.toNat) else none
  digit_ascii := fun _ _ => rfl

@[simp] theorem startsWith_iff {s start : Str} : startsWith s start = true ↔ start <+: s := by
  simp [startsWith]

@[simp] theorem endsWith_iff {s stop : Str} : endsWith s stop = true ↔ stop <:+ s := by
  simp [endsWith]

@[simp] theorem containsSub_iff {s needle : Str} :
    containsSub s needle = true ↔ needle <:+: s := by
  simp [containsSub]

@[simp] theorem isSlash_iff {c : Char} : isSlash c = true ↔ c = '/' := by
  simp [isSlash]

theorem isSpace_slash : isSpace '/' = false := by decide

theorem startsWith_slash_iff {s : Str} :
    startsWith s ['/'] = true ↔ ∃ rest, s = '/' :: rest := by
  rw [startsWith_iff]
  constructor
  · rintro ⟨rest, rfl⟩
    exact ⟨rest, rfl⟩
  · rintro ⟨rest, rfl⟩
    exact ⟨rest, rfl⟩

theorem endsWith_slash_iff {s : Str} :
    endsWith s ['/'] = true ↔ ∃ init, s = init ++ ['/'] := by
  rw [endsWith_iff]
  constructor
  · rintro ⟨init, rfl⟩
    exact ⟨init, rfl⟩
  · rintro ⟨init, rfl⟩
    exact ⟨init, rfl⟩

theorem endsWith_concat_slash (init : Str) : endsWith (init ++ ['/']) ['/'] = true :=
  endsWith_slash_iff.mpr ⟨init, rfl⟩

theorem rstrip_slash (init : Str) : rstrip (init ++ ['/']) = init ++ ['/'] :=
  List.rdropWhile_concat_neg isSpace init '/' (by simp [isSpace_slash])

theorem rstrip_split (s : Str) :
    ∃ blanks, s = rstrip s ++ blanks ∧ ∀ c ∈ blanks, isSpace c = true :=
  rdropWhile_append_trailing isSpace s

theorem rstrip_append_slash (init rest : Str) :
    rstrip (init ++ '/' :: rest) = init ++ '/' :: rstrip rest :=
  rdropWhile_append_cons isSpace init rest isSpace_slash

theorem rstrip_append_of_live (init : Str) {rest : Str} (live : rstrip rest ≠ []) :
    rstrip (init ++ rest) = init ++ rstrip rest :=
  rdropWhile_append_of_live isSpace init live

theorem rstripSlash_append_of_live (init : Str) {rest : Str} (live : rstripSlash rest ≠ []) :
    rstripSlash (init ++ rest) = init ++ rstripSlash rest :=
  rdropWhile_append_of_live isSlash init live

theorem strip_slash_head (rest : Str) : ∃ tail, strip ('/' :: rest) = '/' :: tail := by
  have left : ('/' :: rest).dropWhile isSpace = '/' :: rest := by simp [isSpace_slash]
  refine ⟨rstrip rest, ?_⟩
  rw [strip, trimBy, left]
  exact rstrip_append_slash [] rest

theorem stripSlash_of_head {s : Str} (head : ∀ rest, s ≠ '/' :: rest) :
    stripSlash s = rstripSlash s := by
  refine trimBy_eq_rdropWhile_of_head isSlash (dropWhile_eq_self_of_head isSlash ?_)
  rintro x rest rfl
  cases slash : isSlash x with
  | false => rfl
  | true => exact absurd rfl (isSlash_iff.mp slash ▸ head rest)

theorem rstripSlash_split (s : Str) :
    ∃ count, s = rstripSlash s ++ List.replicate count '/' := by
  obtain ⟨trailing, shape, slashes⟩ := rdropWhile_append_trailing isSlash s
  refine ⟨trailing.length, ?_⟩
  have run : trailing = List.replicate trailing.length '/' :=
    List.eq_replicate_of_mem fun c member => isSlash_iff.mp (slashes c member)
  rw [← run]
  exact shape

theorem rstripSlash_last {s init : Str} : rstripSlash s ≠ init ++ ['/'] := by
  intro split
  have kept := rdropWhile_last_not isSlash split
  simp [isSlash] at kept

theorem rstripSlash_eq_self {s : Str} (last : endsWith s ['/'] = false) : rstripSlash s = s := by
  refine rdropWhile_eq_self_of_last isSlash ?_
  rintro init x rfl
  cases slash : isSlash x with
  | false => rfl
  | true =>
      obtain rfl := isSlash_iff.mp slash
      simp [← Bool.not_eq_true] at last

end S3Manager.Python
