import Mathlib.Tactic.IntervalCases
import S3Manager.Python.JsonText

/-! A value that is written as a JSON text is read back as it was. -/

set_option autoImplicit false

namespace S3Manager.Python

open Library

section Strings

theorem hexDigit_digitChar : ∀ digit < 16, hexDigit (Nat.digitChar digit) = some digit := by
  decide

theorem parseChar_escape (c : Char) (rest : Str) :
    parseChar (escapeChar c ++ rest) = some (c, rest) := by
  unfold escapeChar
  split_ifs with quote backslash lineFeed carriage tab form back control
  · subst quote; rfl
  · subst backslash; rfl
  · subst lineFeed; rfl
  · subst carriage; rfl
  · subst tab; rfl
  · subst form; rfl
  · subst back; rfl
  · have high := hexDigit_digitChar (c.toNat / 16) (by omega)
    have low := hexDigit_digitChar (c.toNat % 16) (by omega)
    have zero : hexDigit '0' = some 0 := rfl
    have code : hexFour '0' '0' (c.toNat / 16).digitChar (c.toNat % 16).digitChar =
        some c.toNat := by
      simp only [hexFour, zero, high, low]
      congr 1
      omega
    simp only [List.cons_append, List.nil_append, parseChar, code]
    rw [if_pos (.inl (by omega)), Char.ofNat_toNat]
  · have plain : parseChar (c :: rest) =
        if c.toNat < 32 ∨ c = '\\' then none else some (c, rest) := by
      rw [parseChar.eq_3]
      · rintro a b d e tail rfl
        exact absurd rfl backslash
      · rintro d tail rfl
        exact absurd rfl backslash
    rw [List.singleton_append, plain, if_neg (by simp [control, backslash])]

theorem escapeChar_head (c : Char) (rest : Str) :
    ∃ first others, escapeChar c ++ rest = first :: others ∧ first ≠ '"' := by
  unfold escapeChar
  split_ifs with quote
  all_goals first
    | exact ⟨_, _, rfl, by decide⟩
    | exact ⟨_, _, rfl, quote⟩

theorem parseString_escaped {s : Str} {fuel : Nat} (rest : Str) (enough : s.length < fuel) :
    parseString fuel (s.flatMap escapeChar ++ '"' :: rest) = some (s, rest) := by
  induction s generalizing fuel with
  | nil =>
      obtain ⟨fuel, rfl⟩ := Nat.exists_eq_add_of_lt enough
      simp [parseString]
  | cons c s ih =>
      obtain ⟨fuel, rfl⟩ : ∃ less, fuel = less + 1 :=
        Nat.exists_eq_add_one.mpr (by omega)
      have later := @ih fuel (by simpa using enough)
      obtain ⟨first, others, shape, live⟩ :=
        escapeChar_head c (s.flatMap escapeChar ++ '"' :: rest)
      have parsed := parseChar_escape c (s.flatMap escapeChar ++ '"' :: rest)
      rw [List.flatMap_cons, List.append_assoc, shape]
      rw [shape] at parsed
      rw [parseString, parsed]
      · dsimp only
        rw [later]
        rfl
      · rintro tail same
        exact live (List.cons.inj same).1

theorem escaped_length (s : Str) : s.length ≤ (s.flatMap escapeChar).length := by
  induction s with
  | nil => simp
  | cons c s ih =>
      obtain ⟨first, others, shape, -⟩ := escapeChar_head c []
      rw [List.append_nil] at shape
      simp only [List.flatMap_cons, List.length_append, List.length_cons, shape]
      omega

end Strings

section Numbers

variable {floats : FloatText} {s rest : Str}

/-- What comes behind a written value: nothing, a comma or a line break. -/
def Delimited (rest : Str) : Prop :=
  ∀ c ∈ rest.head?, c = ',' ∨ c = '\n'

theorem takeWhile_delimited (numeric : s.all isNumberChar = true) (delimited : Delimited rest) :
    (s ++ rest).takeWhile isNumberChar = s ∧ (s ++ rest).dropWhile isNumberChar = rest := by
  have all : ∀ c ∈ s, isNumberChar c = true := List.all_eq_true.mp numeric
  have stops : rest.takeWhile isNumberChar = [] ∧ rest.dropWhile isNumberChar = rest := by
    cases rest with
    | nil => exact ⟨rfl, rfl⟩
    | cons c tail =>
        have other : isNumberChar c = false := by
          obtain rfl | rfl := delimited c rfl
          · rfl
          · rfl
        simp [other]
  rw [List.takeWhile_append_of_pos all, List.dropWhile_append_of_pos all, stops.1, stops.2]
  exact ⟨List.append_nil s, rfl⟩

/-- No constant begins like a number. -/
theorem constants_not_number {value : Json} (numeric : s.all isNumberChar = true)
    (number : readNumber floats s = some value) (rest : Str) :
    (constants.find? fun constant => constant.1.isPrefixOf (s ++ rest)) = none := by
  have all : ∀ c ∈ s, isNumberChar c = true := List.all_eq_true.mp numeric
  refine List.find?_eq_none.mpr fun constant member starts => ?_
  cases s with
  | nil => simp [readNumber, unsigned, isNatural, isFloatLiteral] at number
  | cons c tail =>
      have first := all c List.mem_cons_self
      simp only [constants, List.mem_cons, List.not_mem_nil, or_false] at member
      obtain rfl | rfl | rfl | rfl | rfl | rfl := member
      all_goals
        obtain ⟨front, begins⟩ := List.isPrefixOf_iff_prefix.mp starts
        obtain ⟨rfl, more⟩ := List.cons.inj begins
      · exact absurd first (by decide)
      · exact absurd first (by decide)
      · exact absurd first (by decide)
      · exact absurd first (by decide)
      · exact absurd first (by decide)
      · cases tail with
        | nil =>
            have sign : readNumber floats ['-'] = some value := number
            simp [readNumber, unsigned, isNatural, isFloatLiteral] at sign
        | cons d tail =>
            obtain ⟨rfl, -⟩ := List.cons.inj more
            exact absurd (all 'I' (List.mem_cons_of_mem _ List.mem_cons_self)) (by decide)

theorem parseAtom_number {value : Json} (numeric : s.all isNumberChar = true)
    (number : readNumber floats s = some value) (delimited : Delimited rest) :
    parseAtom floats (s ++ rest) = some (value, rest) := by
  obtain ⟨taken, dropped⟩ := takeWhile_delimited numeric delimited
  rw [parseAtom, constants_not_number numeric number rest]
  simp only [taken, dropped, number, Option.map_some]

theorem toDigits_all (n : Nat) : (Nat.toDigits 10 n).all Char.isDigit = true :=
  List.all_eq_true.mpr fun _ member =>
    Nat.isDigit_of_mem_toDigits (by decide) (by decide) member

/-- Only zero begins with a zero. -/
theorem toDigits_head {n : Nat} (positive : 0 < n) : (Nat.toDigits 10 n).head? ≠ some '0' := by
  induction n using Nat.strong_induction_on with
  | _ n ih =>
      by_cases small : n < 10
      · rw [Nat.toDigits_of_lt_base small]
        interval_cases n <;> decide
      · rw [Nat.toDigits_of_base_le (by decide) (by omega)]
        have shorter := ih (n / 10) (by omega) (by omega)
        cases digits : Nat.toDigits 10 (n / 10) with
        | nil => exact absurd digits Nat.toDigits_ne_nil
        | cons c more =>
            rw [digits] at shorter
            exact shorter

theorem isNatural_toDigits (n : Nat) : isNatural (Nat.toDigits 10 n) = true := by
  obtain rfl | positive := Nat.eq_zero_or_pos n
  · rfl
  · have live : (Nat.toDigits 10 n).isEmpty = false := by
      rw [List.isEmpty_eq_false_iff]
      exact Nat.toDigits_ne_nil
    simp [isNatural, live, toDigits_all, toDigits_head positive]

theorem unsigned_of_digits (digits : s.all Char.isDigit = true) :
    unsigned s = s ∧ s.head? ≠ some '-' := by
  cases s with
  | nil => exact ⟨rfl, by simp⟩
  | cons c rest =>
      have live : c ≠ '-' := by
        rintro rfl
        simp at digits
      refine ⟨?_, by simpa using live⟩
      unfold unsigned
      split
      · next split =>
          exact absurd (List.cons.inj split).1 live
      · rfl

theorem readNumber_intText (value : Int) : readNumber floats (intText value) = some (.int value) := by
  have digits := toDigits_all value.natAbs
  have natural := isNatural_toDigits value.natAbs
  obtain ⟨same, unsignedHead⟩ := unsigned_of_digits digits
  unfold intText
  split_ifs with negative
  · simp only [readNumber, unsigned, natural, if_true, List.head?_cons,
      Nat.ofDigitChars_ten_toDigits]
    congr 2
    omega
  · simp only [readNumber, same, natural, if_true, Nat.ofDigitChars_ten_toDigits,
      if_neg unsignedHead]
    congr 2
    omega

theorem numeric_of_digits (digits : s.all Char.isDigit = true) : s.all isNumberChar = true := by
  refine List.all_eq_true.mpr fun c member => ?_
  simp [isNumberChar, List.all_eq_true.mp digits c member]

theorem intText_numeric (value : Int) : (intText value).all isNumberChar = true := by
  have digits := numeric_of_digits (toDigits_all value.natAbs)
  unfold intText
  split_ifs with negative
  · rw [List.all_cons, digits]
    rfl
  · exact digits

theorem float_numeric (literal : isFloatLiteral s = true) : s.all isNumberChar = true := by
  simp only [isFloatLiteral, Bool.and_eq_true] at literal
  exact literal.1.1.1

/-- A literal with a fraction or an exponent is no integer. -/
theorem float_not_natural (literal : isFloatLiteral s = true) :
    isNatural (unsigned s) = false := by
  by_contra natural
  have natural : isNatural (unsigned s) = true := by simpa using natural
  have digits : (unsigned s).all Char.isDigit = true := by
    simp only [isNatural, Bool.or_eq_true, Bool.and_eq_true, beq_iff_eq] at natural
    obtain zero | ⟨⟨-, digits⟩, -⟩ := natural
    · rw [zero]
      rfl
    · exact digits
  have plain : ∀ c ∈ s, c ≠ 'e' ∧ c ≠ 'E' ∧ c ≠ '.' := by
    intro c member
    have known : c = '-' ∨ c.isDigit = true := by
      unfold unsigned at digits
      split at digits
      · obtain rfl | later := List.mem_cons.mp member
        · exact .inl rfl
        · exact .inr (List.all_eq_true.mp digits c later)
      · exact .inr (List.all_eq_true.mp digits c member)
    refine ⟨?_, ?_, ?_⟩ <;>
      · rintro rfl
        simp at known
  have mantissa : (s.takeWhile fun c => c != 'e' && c != 'E') = s := by
    refine List.takeWhile_eq_self_iff.mpr fun c member => ?_
    simp [plain c member]
  have whole : (s.takeWhile fun c => c != '.') = s := by
    refine List.takeWhile_eq_self_iff.mpr fun c member => ?_
    simp [plain c member]
  simp [isFloatLiteral, mantissa, whole] at literal

end Numbers

section Values

variable {floats : FloatText}

mutual

/-- A value as Python holds it: the keys of a `dict` are distinct, and a `float` is a
double. -/
def Json.Sound (floats : FloatText) : Json → Prop
  | .float (.finite value) => floats.IsDouble value
  | .arr items => SoundItems floats items
  | .obj fields => (fields.map Prod.fst).Nodup ∧ SoundFields floats fields
  | _ => True

def SoundItems (floats : FloatText) : List Json → Prop
  | [] => True
  | item :: rest => item.Sound floats ∧ SoundItems floats rest

def SoundFields (floats : FloatText) : List (Str × Json) → Prop
  | [] => True
  | (_, value) :: rest => value.Sound floats ∧ SoundFields floats rest

end

theorem dictOf_distinct {fields : List (Str × Json)} (distinct : (fields.map Prod.fst).Nodup) :
    dictOf fields = fields := by
  have appended (front : Dict) (rest : List (Str × Json))
      (distinct : ((front ++ rest).map Prod.fst).Nodup) :
      rest.foldl (fun dict field => Assoc.set dict field.1 field.2) front = front ++ rest := by
    induction rest generalizing front with
    | nil => simp
    | cons field rest ih =>
        have fresh : field.1 ∉ front.map Prod.fst := by
          rw [List.map_append, List.nodup_append] at distinct
          exact fun member => distinct.2.2 _ member _ (by simp) rfl
        rw [List.foldl_cons, Assoc.set_of_fresh _ fresh, ih]
        · simp
        · simpa using distinct
  exact appended [] fields distinct

@[simp] theorem skipSpace_newline (level : Nat) (s : Str) :
    skipSpace (newline level ++ s) = skipSpace s := by
  have blank (count : Nat) : (List.replicate count ' ' ++ s).dropWhile isJsonSpace =
      s.dropWhile isJsonSpace :=
    List.dropWhile_append_of_pos fun c member => by rw [List.eq_of_mem_replicate member]; rfl
  rw [newline, List.cons_append, skipSpace, List.dropWhile_cons_of_pos (by rfl), blank]
  rfl

/-- The first character of a written value. -/
def Starts (c : Char) : Prop :=
  isJsonSpace c = false ∧ c ≠ ']' ∧ c ≠ '}'

theorem number_starts {s : Str} (numeric : s.all isNumberChar = true) (live : s ≠ []) :
    ∃ c rest, s = c :: rest ∧ Starts c := by
  cases s with
  | nil => exact absurd rfl live
  | cons c rest =>
      have first := List.all_eq_true.mp numeric c List.mem_cons_self
      refine ⟨c, rest, rfl, ?_, ?_, ?_⟩
      · by_contra space
        have space : isJsonSpace c = true := by simpa using space
        simp only [isJsonSpace, Bool.or_eq_true, beq_iff_eq] at space
        obtain ((rfl | rfl) | rfl) | rfl := space <;> exact absurd first (by decide)
      · rintro rfl
        exact absurd first (by decide)
      · rintro rfl
        exact absurd first (by decide)

theorem live_of_number {s : Str} {value : Json} (number : readNumber floats s = some value) :
    s ≠ [] := by
  rintro rfl
  simp [readNumber, unsigned, isNatural, isFloatLiteral] at number

theorem readNumber_float {value : Rat} (double : floats.IsDouble value) :
    readNumber floats (floats.text value) = some (.float (.finite value)) := by
  have literal := floats.literal value double
  rw [readNumber, float_not_natural literal]
  simp [literal, floats.exact value double]

theorem dump_starts {value : Json} (sound : value.Sound floats) (level : Nat) :
    ∃ c rest, dump floats level value = c :: rest ∧ Starts c := by
  have starts : ∀ c ∈ ['n', 't', 'f', 'N', 'I', '-', '"', '[', '{'], Starts c := by
    simp [Starts, isJsonSpace]
  cases value with
  | null => exact ⟨'n', _, rfl, starts _ (by simp)⟩
  | bool value =>
      cases value
      · exact ⟨'f', _, rfl, starts _ (by simp)⟩
      · exact ⟨'t', _, rfl, starts _ (by simp)⟩
  | int value =>
      exact number_starts (intText_numeric value)
        (live_of_number (@readNumber_intText floats value))
  | float value =>
      cases value with
      | finite value =>
          exact number_starts (float_numeric (floats.literal value sound))
            (live_of_number (readNumber_float sound))
      | infinite negative =>
          cases negative
          · exact ⟨'I', _, rfl, starts _ (by simp)⟩
          · exact ⟨'-', _, rfl, starts _ (by simp)⟩
      | nan => exact ⟨'N', _, rfl, starts _ (by simp)⟩
  | str value => exact ⟨'"', _, rfl, starts _ (by simp)⟩
  | arr items =>
      cases items with
      | nil => exact ⟨'[', _, rfl, starts _ (by simp)⟩
      | cons item rest => exact ⟨'[', _, by rw [dump], starts _ (by simp)⟩
  | obj fields =>
      cases fields with
      | nil => exact ⟨'{', _, rfl, starts _ (by simp)⟩
      | cons field rest => exact ⟨'{', _, by rw [dump], starts _ (by simp)⟩

theorem skipSpace_starts {c : Char} {rest : Str} (starts : Starts c) :
    skipSpace (c :: rest) = c :: rest :=
  List.dropWhile_cons_of_neg (by simp [starts.1])

theorem parseValue_atom {fuel : Nat} {s : Str}
    (other : ∀ rest, s ≠ '"' :: rest ∧ s ≠ '[' :: rest ∧ s ≠ '{' :: rest) :
    parseValue floats (fuel + 1) s = parseAtom floats s := by
  rw [parseValue.eq_5]
  · exact fun rest same => (other rest).1 same
  · exact fun rest same => (other rest).2.1 same
  · exact fun rest same => (other rest).2.2 same

theorem parseValue_number {s rest : Str} {value : Json} {fuel : Nat}
    (numeric : s.all isNumberChar = true) (number : readNumber floats s = some value)
    (delimited : Delimited rest) :
    parseValue floats (fuel + 1) (s ++ rest) = some (value, rest) := by
  have live := live_of_number number
  rw [parseValue_atom, parseAtom_number numeric number delimited]
  intro tail
  cases s with
  | nil => exact absurd rfl live
  | cons c more =>
      have first := List.all_eq_true.mp numeric c List.mem_cons_self
      refine ⟨?_, ?_, ?_⟩ <;>
        · intro same
          obtain rfl := (List.cons.inj same).1
          exact absurd first (by decide)

theorem delimited_newline (level : Nat) (rest : Str) : Delimited (newline level ++ rest) := by
  simp [Delimited, newline]

theorem delimited_comma (rest : Str) : Delimited (',' :: rest) := by
  simp [Delimited]

theorem parseKey_quoted {fuel : Nat} {key rest : Str} (enough : key.length < fuel) :
    parseKey fuel (quoted key ++ ':' :: ' ' :: rest) = some (key, skipSpace rest) := by
  have colon (tail : Str) : skipSpace (':' :: tail) = ':' :: tail := rfl
  have blank : skipSpace (' ' :: rest) = skipSpace rest := rfl
  rw [quoted, List.append_assoc, List.cons_append, parseKey]
  simp only [List.singleton_append]
  rw [parseString_escaped _ enough]
  simp only [colon, blank]

theorem dumpItems_shape (level : Nat) (item : Json) (items : List Json) :
    ∃ more, dumpItems floats level (item :: items) =
      newline level ++ (dump floats level item ++ more) := by
  cases items with
  | nil => exact ⟨[], by simp [dumpItems]⟩
  | cons next items => exact ⟨',' :: dumpItems floats level (next :: items), by simp [dumpItems]⟩

theorem dumpFields_shape (level : Nat) (field : Str × Json) (fields : List (Str × Json)) :
    ∃ more, dumpFields floats level (field :: fields) = newline level ++ '"' :: more := by
  obtain ⟨key, value⟩ := field
  cases fields with
  | nil => exact ⟨_, by simp [dumpFields, quoted]; rfl⟩
  | cons next fields => exact ⟨_, by simp [dumpFields, quoted]; rfl⟩

mutual

/-- A written value is read back, and the reader stops right behind it. -/
theorem parse_dump : ∀ (value : Json) (level fuel : Nat) (rest : Str), value.Sound floats →
    (dump floats level value).length ≤ fuel → Delimited rest →
    parseValue floats fuel (dump floats level value ++ rest) = some (value, rest)
  | value, _, 0, _, sound, enough, _ => by
      obtain ⟨c, more, shape, -⟩ := dump_starts sound _
      rw [shape] at enough
      simp at enough
  | .null, _, fuel + 1, rest, _, _, _ => rfl
  | .bool true, _, fuel + 1, rest, _, _, _ => rfl
  | .bool false, _, fuel + 1, rest, _, _, _ => rfl
  | .int value, _, fuel + 1, rest, _, _, delimited =>
      parseValue_number (intText_numeric value) (readNumber_intText value) delimited
  | .float (.finite value), _, fuel + 1, rest, double, _, delimited =>
      parseValue_number (float_numeric (floats.literal value double)) (readNumber_float double)
        delimited
  | .float (.infinite true), _, fuel + 1, rest, _, _, _ => rfl
  | .float (.infinite false), _, fuel + 1, rest, _, _, _ => rfl
  | .float .nan, _, fuel + 1, rest, _, _, _ => rfl
  | .str value, _, fuel + 1, rest, _, enough, _ => by
      have short := escaped_length value
      simp only [dump, quoted, List.length_append, List.length_cons, List.length_nil] at enough
      rw [dump, quoted, List.append_assoc, List.cons_append, parseValue]
      simp only [List.singleton_append]
      rw [parseString_escaped rest (by omega)]
      rfl
  | .arr [], _, fuel + 1, rest, _, _, _ => rfl
  | .arr (item :: items), level, fuel + 1, rest, sound, enough, _ => by
      obtain ⟨more, shape⟩ := @dumpItems_shape floats (level + 1) item items
      obtain ⟨c, tail, first, starts⟩ := dump_starts sound.1 (level + 1)
      simp only [dump, List.length_append, List.length_cons, List.length_nil] at enough
      have parsed := parse_dumpItems item items (level + 1) level fuel rest sound (by omega)
      have skipped : skipSpace (dumpItems floats (level + 1) (item :: items) ++
          (newline level ++ ']' :: rest)) = c :: (tail ++ more ++ (newline level ++ ']' :: rest)) := by
        rw [shape, first]
        simp only [List.cons_append, List.append_assoc, skipSpace_newline]
        exact skipSpace_starts starts
      have whole : dump floats level (.arr (item :: items)) ++ rest =
          '[' :: (dumpItems floats (level + 1) (item :: items) ++ (newline level ++ ']' :: rest)) := by
        simp [dump]
      rw [skipped] at parsed
      rw [whole, parseValue, skipped]
      split
      · next split => exact absurd (List.cons.inj split).1 starts.2.1
      · rw [parsed]
        rfl
  | .obj [], _, fuel + 1, rest, _, _, _ => rfl
  | .obj (field :: fields), level, fuel + 1, rest, sound, enough, _ => by
      obtain ⟨more, shape⟩ := @dumpFields_shape floats (level + 1) field fields
      simp only [dump, List.length_append, List.length_cons, List.length_nil] at enough
      have parsed := parse_dumpFields field fields (level + 1) level fuel rest sound.2 (by omega)
      have skipped : skipSpace (dumpFields floats (level + 1) (field :: fields) ++
          (newline level ++ '}' :: rest)) = '"' :: (more ++ (newline level ++ '}' :: rest)) := by
        rw [shape, List.append_assoc, skipSpace_newline]
        rfl
      have whole : dump floats level (.obj (field :: fields)) ++ rest =
          '{' :: (dumpFields floats (level + 1) (field :: fields) ++
            (newline level ++ '}' :: rest)) := by
        simp [dump]
      rw [skipped] at parsed
      rw [whole, parseValue, skipped]
      split
      · next split => exact absurd (List.cons.inj split).1 (by decide)
      · rw [parsed, Option.map_some, dictOf_distinct sound.1]
termination_by _ _ fuel => fuel

theorem parse_dumpItems : ∀ (item : Json) (items : List Json) (level outer fuel : Nat) (rest : Str),
    SoundItems floats (item :: items) → (dumpItems floats level (item :: items)).length < fuel →
    parseItems floats fuel (skipSpace (dumpItems floats level (item :: items) ++
      (newline outer ++ ']' :: rest))) = some (item :: items, rest)
  | _, _, _, _, 0, _, _, enough => by simp at enough
  | item, [], level, outer, fuel + 1, rest, ⟨sound, _⟩, enough => by
      obtain ⟨c, tail, first, starts⟩ := dump_starts sound level
      simp only [dumpItems, List.length_append] at enough
      have parsed := parse_dump item level fuel (newline outer ++ ']' :: rest) sound (by omega)
        (delimited_newline _ _)
      have bracket : skipSpace (']' :: rest) = ']' :: rest := rfl
      rw [dumpItems, List.append_assoc, skipSpace_newline, first, List.cons_append,
        skipSpace_starts starts, ← List.cons_append, ← first, parseItems, parsed]
      simp only [skipSpace_newline, bracket]
  | item, next :: items, level, outer, fuel + 1, rest, ⟨sound, later⟩, enough => by
      obtain ⟨c, tail, first, starts⟩ := dump_starts sound level
      have wide : 0 < (newline level).length := by simp [newline]
      have comma (tail : Str) : skipSpace (',' :: tail) = ',' :: tail := rfl
      simp only [dumpItems, List.length_append, List.length_cons] at enough
      have parsed := parse_dump item level fuel
        (',' :: (dumpItems floats level (next :: items) ++ (newline outer ++ ']' :: rest))) sound
        (by omega) (delimited_comma _)
      have others := parse_dumpItems next items level outer fuel rest later (by omega)
      rw [dumpItems, List.append_assoc, List.append_assoc, skipSpace_newline, first,
        List.cons_append, skipSpace_starts starts, ← List.cons_append, ← first, List.cons_append,
        parseItems, parsed]
      simp only [comma, others, Option.map_some]
termination_by _ _ _ _ fuel => fuel

theorem parse_dumpFields : ∀ (field : Str × Json) (fields : List (Str × Json))
    (level outer fuel : Nat) (rest : Str),
    SoundFields floats (field :: fields) →
    (dumpFields floats level (field :: fields)).length < fuel →
    parseFields floats fuel (skipSpace (dumpFields floats level (field :: fields) ++
      (newline outer ++ '}' :: rest))) = some (field :: fields, rest)
  | _, _, _, _, 0, _, _, enough => by simp at enough
  | (key, value), [], level, outer, fuel + 1, rest, ⟨sound, _⟩, enough => by
      obtain ⟨c, tail, first, starts⟩ := dump_starts sound level
      have short := escaped_length key
      simp only [dumpFields, quoted, List.length_append, List.length_cons] at enough
      have parsed := parse_dump value level fuel (newline outer ++ '}' :: rest) sound (by omega)
        (delimited_newline _ _)
      have brace : skipSpace ('}' :: rest) = '}' :: rest := rfl
      have named := @parseKey_quoted fuel key
        (dump floats level value ++ (newline outer ++ '}' :: rest)) (by omega)
      have skipped : skipSpace (dump floats level value ++ (newline outer ++ '}' :: rest)) =
          dump floats level value ++ (newline outer ++ '}' :: rest) := by
        rw [first]
        exact skipSpace_starts starts
      have whole : skipSpace (dumpFields floats level [(key, value)] ++
          (newline outer ++ '}' :: rest)) = quoted key ++ ':' :: ' ' ::
            (dump floats level value ++ (newline outer ++ '}' :: rest)) := by
        simp only [dumpFields, List.append_assoc, List.cons_append, skipSpace_newline]
        rfl
      rw [whole, parseFields, named, skipped]
      dsimp only
      rw [parsed]
      simp only [skipSpace_newline, brace]
  | (key, value), next :: fields, level, outer, fuel + 1, rest, ⟨sound, later⟩, enough => by
      obtain ⟨c, tail, first, starts⟩ := dump_starts sound level
      have short := escaped_length key
      have wide : 0 < (newline level).length := by simp [newline]
      have comma (tail : Str) : skipSpace (',' :: tail) = ',' :: tail := rfl
      simp only [dumpFields, quoted, List.length_append, List.length_cons] at enough
      have parsed := parse_dump value level fuel
        (',' :: (dumpFields floats level (next :: fields) ++ (newline outer ++ '}' :: rest))) sound
        (by omega) (delimited_comma _)
      have others := parse_dumpFields next fields level outer fuel rest later (by omega)
      have named := @parseKey_quoted fuel key (dump floats level value ++
        ',' :: (dumpFields floats level (next :: fields) ++ (newline outer ++ '}' :: rest)))
        (by omega)
      have skipped : skipSpace (dump floats level value ++
          ',' :: (dumpFields floats level (next :: fields) ++ (newline outer ++ '}' :: rest))) =
          dump floats level value ++
            ',' :: (dumpFields floats level (next :: fields) ++ (newline outer ++ '}' :: rest)) := by
        rw [first]
        exact skipSpace_starts starts
      have whole : skipSpace (dumpFields floats level ((key, value) :: next :: fields) ++
          (newline outer ++ '}' :: rest)) = quoted key ++ ':' :: ' ' :: (dump floats level value ++
            ',' :: (dumpFields floats level (next :: fields) ++ (newline outer ++ '}' :: rest))) := by
        simp only [dumpFields, List.append_assoc, List.cons_append, skipSpace_newline]
        rfl
      rw [whole, parseFields, named, skipped]
      dsimp only
      rw [parsed]
      simp only [comma, others, Option.map_some]
termination_by _ _ _ _ fuel => fuel

end

theorem loads_dump {value : Json} (sound : value.Sound floats) :
    loads floats (dump floats 0 value) = .ok value := by
  obtain ⟨c, rest, first, starts⟩ := dump_starts sound 0
  have parsed := parse_dump value 0 ((dump floats 0 value).length + 1) [] sound (by omega)
    (by simp [Delimited])
  have skipped : skipSpace (dump floats 0 value) = dump floats 0 value := by
    rw [first]
    exact skipSpace_starts starts
  rw [List.append_nil] at parsed
  rw [loads, skipped, parsed]
  rfl

end Values

end S3Manager.Python
