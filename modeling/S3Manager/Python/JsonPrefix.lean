import S3Manager.Python.JsonRoundTrip

/-! The brackets of a JSON text. What the reader takes is balanced, and the text of an
object is not balanced before its end: a text that was cut off is never read. -/

set_option autoImplicit false

namespace S3Manager.Python

open Library

section Scanning

/-- Where a scan of a text stands: outside of strings, in one, or behind a backslash. -/
inductive Mode where
  | outside
  | inside
  | escaped
  deriving DecidableEq

/-- The depth of the brackets that are open, and the mode, after one more character. -/
def scanChar (state : Nat × Mode) (c : Char) : Nat × Mode :=
  match state with
  | (depth, .outside) =>
      if c = '"' then (depth, .inside)
      else if c = '[' ∨ c = '{' then (depth + 1, .outside)
      else if c = ']' ∨ c = '}' then (depth - 1, .outside)
      else (depth, .outside)
  | (depth, .inside) =>
      if c = '"' then (depth, .outside)
      else if c = '\\' then (depth, .escaped)
      else (depth, .inside)
  | (depth, .escaped) => (depth, .inside)

def scan (state : Nat × Mode) (s : Str) : Nat × Mode :=
  s.foldl scanChar state

/-- The text leaves a mode as it found it, and closes no bracket that it did not open. -/
structure Keeps (mode : Mode) (s : Str) : Prop where
  whole : ∀ depth, scan (depth, mode) s = (depth, mode)
  above : ∀ depth front rest, s = front ++ rest → depth ≤ (scan (depth, mode) front).1

abbrev Balanced : Str → Prop := Keeps .outside

variable {mode : Mode} {s other : Str}

theorem scan_append (state : Nat × Mode) (s other : Str) :
    scan state (s ++ other) = scan (scan state s) other :=
  List.foldl_append

theorem keeps_nil : Keeps mode [] := by
  refine ⟨fun _ => rfl, fun depth front rest split => ?_⟩
  obtain ⟨rfl, -⟩ := List.append_eq_nil_iff.mp split.symm
  exact Nat.le_refl depth

theorem Keeps.append (first : Keeps mode s) (second : Keeps mode other) :
    Keeps mode (s ++ other) where
  whole depth := by rw [scan_append, first.whole, second.whole]
  above depth front rest split := by
    obtain ⟨more, rfl, -⟩ | ⟨more, within, -⟩ := List.append_eq_append_iff.mp split
    · rw [scan_append, first.whole]
      exact second.above depth more rest (by simpa using split)
    · exact first.above depth front more within

theorem keeps_char {c : Char} (stays : ∀ depth, scanChar (depth, mode) c = (depth, mode)) :
    Keeps mode [c] where
  whole := stays
  above depth front rest split := by
    cases front with
    | nil => exact Nat.le_refl depth
    | cons d more =>
        obtain ⟨rfl, nothing⟩ := List.cons.inj split
        obtain ⟨rfl, -⟩ := List.append_eq_nil_iff.mp nothing.symm
        rw [scan, List.foldl_cons, List.foldl_nil, stays]

theorem keeps_chars (stays : ∀ c ∈ s, ∀ depth, scanChar (depth, mode) c = (depth, mode)) :
    Keeps mode s := by
  induction s with
  | nil => exact keeps_nil
  | cons c rest ih =>
      have first := keeps_char (stays c List.mem_cons_self)
      exact first.append (ih fun other member => stays other (List.mem_cons_of_mem _ member))

/-- A text between two characters of which the second one undoes the first. -/
theorem keeps_between {opening closing : Char} {within : Mode} (deeper : Nat)
    (opens : ∀ depth, scanChar (depth, mode) opening = (depth + deeper, within))
    (closes : ∀ depth, scanChar (depth + deeper, within) closing = (depth, mode))
    (body : Keeps within s) : Keeps mode (opening :: (s ++ [closing])) where
  whole depth := by
    rw [scan, List.foldl_cons, opens, ← scan, scan_append, body.whole]
    exact closes depth
  above depth front rest split := by
    cases front with
    | nil => exact Nat.le_refl depth
    | cons d front =>
        obtain ⟨rfl, later⟩ := List.cons.inj split
        rw [scan, List.foldl_cons, opens, ← scan]
        obtain ⟨more, rfl, last⟩ | ⟨more, inside, -⟩ := List.append_eq_append_iff.mp later
        · rw [scan_append, body.whole]
          cases more with
          | nil => exact Nat.le_add_right depth deeper
          | cons e more =>
              obtain ⟨rfl, nothing⟩ := List.cons.inj last
              obtain ⟨rfl, -⟩ := List.append_eq_nil_iff.mp nothing.symm
              rw [scan, List.foldl_cons, List.foldl_nil, closes]
        · exact Nat.le_trans (Nat.le_add_right depth deeper) (body.above _ front more inside)

theorem keeps_quotes (body : Keeps .inside s) : Balanced ('"' :: (s ++ ['"'])) :=
  keeps_between 0 (fun _ => rfl) (fun _ => rfl) body

theorem keeps_brackets (body : Balanced s) : Balanced ('[' :: (s ++ [']'])) :=
  keeps_between 1 (fun _ => rfl) (fun _ => rfl) body

theorem keeps_braces (body : Balanced s) : Balanced ('{' :: (s ++ ['}'])) :=
  keeps_between 1 (fun _ => rfl) (fun _ => rfl) body

/-- A character outside of strings that is no bracket and no quote. -/
def isPlain (c : Char) : Bool :=
  c != '"' && c != '[' && c != ']' && c != '{' && c != '}'

theorem keeps_plain (plain : s.all isPlain = true) : Balanced s := by
  refine keeps_chars fun c member depth => ?_
  have known := List.all_eq_true.mp plain c member
  simp only [isPlain, Bool.and_eq_true, bne_iff_ne] at known
  obtain ⟨⟨⟨⟨quote, opening⟩, closing⟩, brace⟩, closingBrace⟩ := known
  simp [scanChar, quote, opening, closing, brace, closingBrace]

theorem keeps_escape (c : Char) : Keeps .inside ['\\', c] where
  whole depth := by rfl
  above depth front rest split := by
    cases front with
    | nil => exact Nat.le_refl depth
    | cons d front =>
        obtain ⟨rfl, later⟩ := List.cons.inj split
        cases front with
        | nil => exact Nat.le_refl depth
        | cons e front =>
            obtain ⟨rfl, nothing⟩ := List.cons.inj later
            obtain ⟨rfl, -⟩ := List.append_eq_nil_iff.mp nothing.symm
            exact Nat.le_refl depth

theorem keeps_inside {c : Char} (quote : c ≠ '"') (backslash : c ≠ '\\') :
    Keeps .inside [c] :=
  keeps_char fun depth => by simp [scanChar, quote, backslash]

end Scanning

section Reading

variable {floats : FloatText} {mode : Mode} {s rest : Str}

/-- A reader that left `rest` of a text has taken a part that keeps the mode. -/
def Consumes (mode : Mode) (s rest : Str) : Prop :=
  ∃ taken, s = taken ++ rest ∧ Keeps mode taken

theorem Consumes.trans {between : Str} (first : Consumes mode s between)
    (second : Consumes mode between rest) : Consumes mode s rest := by
  obtain ⟨front, rfl, keepsFront⟩ := first
  obtain ⟨back, rfl, keepsBack⟩ := second
  exact ⟨front ++ back, by simp, keepsFront.append keepsBack⟩

theorem consumes_char {c : Char} (plain : isPlain c = true) :
    Consumes .outside (c :: rest) rest :=
  ⟨[c], rfl, keeps_plain (by simp [plain])⟩

theorem consumes_space (s : Str) : Consumes .outside s (skipSpace s) := by
  refine ⟨s.takeWhile isJsonSpace, (List.takeWhile_append_dropWhile).symm, keeps_plain ?_⟩
  refine List.all_eq_true.mpr fun c member => ?_
  have space := List.mem_takeWhile_imp member
  simp only [isJsonSpace, Bool.or_eq_true, beq_iff_eq] at space
  obtain ((rfl | rfl) | rfl) | rfl := space <;> rfl

theorem hexDigit_inside {c : Char} {digit : Nat} (hex : hexDigit c = some digit) :
    c ≠ '"' ∧ c ≠ '\\' := by
  constructor <;>
    · rintro rfl
      simp [hexDigit] at hex

theorem keeps_hexFour {a b c d : Char} {code : Nat} (hex : hexFour a b c d = some code) :
    Keeps .inside ['\\', 'u', a, b, c, d] := by
  unfold hexFour at hex
  split at hex
  · next first second third fourth =>
      have digits : ∀ x ∈ [a, b, c, d], x ≠ '"' ∧ x ≠ '\\' := by
        simp only [List.forall_mem_cons]
        exact ⟨hexDigit_inside first, hexDigit_inside second, hexDigit_inside third,
          hexDigit_inside fourth, by simp⟩
      refine (keeps_escape 'u').append (keeps_chars fun x member depth => ?_)
      simp [scanChar, digits x member]
  · cases hex

theorem consumes_parseChar {c : Char} (quote : ∀ tail, s ≠ '"' :: tail)
    (parsed : parseChar s = some (c, rest)) : Consumes .inside s rest := by
  unfold parseChar at parsed
  split at parsed
  · next a b d e tail =>
      split at parsed
      · cases parsed
      · next code hex =>
          have first := keeps_hexFour hex
          split_ifs at parsed with single
          · obtain ⟨-, rfl⟩ := Prod.mk.inj (Option.some.inj parsed)
            exact ⟨_, rfl, first⟩
          · split at parsed
            · next f g h i more =>
                split at parsed
                · cases parsed
                · next low hexLow =>
                    split_ifs at parsed
                    obtain ⟨-, rfl⟩ := Prod.mk.inj (Option.some.inj parsed)
                    exact ⟨_, rfl, first.append (keeps_hexFour hexLow)⟩
            · cases parsed
  · next d tail _ =>
      obtain ⟨found, -, same⟩ := Option.map_eq_some_iff.mp parsed
      obtain ⟨-, rfl⟩ := Prod.mk.inj same
      exact ⟨_, rfl, keeps_escape d⟩
  · next d tail _ _ =>
      split_ifs at parsed with refused
      obtain ⟨rfl, rfl⟩ := Prod.mk.inj (Option.some.inj parsed)
      refine ⟨[d], rfl, keeps_inside ?_ fun backslash => refused (.inr backslash)⟩
      exact fun same => quote tail (same ▸ rfl)
  · cases parsed

theorem parseString_body {fuel : Nat} {text : Str} (parsed : parseString fuel s = some (text, rest)) :
    ∃ body, s = body ++ '"' :: rest ∧ Keeps .inside body := by
  induction fuel generalizing s text with
  | zero => cases parsed
  | succ fuel ih =>
      unfold parseString at parsed
      split at parsed
      · next tail =>
          obtain ⟨-, rfl⟩ := Prod.mk.inj (Option.some.inj parsed)
          exact ⟨[], rfl, keeps_nil⟩
      · next quote =>
          split at parsed
          · cases parsed
          · next c tail read =>
              obtain ⟨found, later, same⟩ := Option.map_eq_some_iff.mp parsed
              obtain ⟨-, rfl⟩ := Prod.mk.inj same
              obtain ⟨front, rfl, keepsFront⟩ := consumes_parseChar quote read
              obtain ⟨body, rfl, keepsBody⟩ := ih later
              exact ⟨front ++ body, by simp, keepsFront.append keepsBody⟩

theorem consumes_string {fuel : Nat} {text : Str}
    (parsed : parseString fuel s = some (text, rest)) : Consumes .outside ('"' :: s) rest := by
  obtain ⟨body, rfl, keeps⟩ := parseString_body parsed
  exact ⟨'"' :: (body ++ ['"']), by simp, keeps_quotes keeps⟩

theorem isPlain_of_number {c : Char} (number : isNumberChar c = true) : isPlain c = true := by
  by_contra special
  simp only [isPlain, Bool.and_eq_true, bne_iff_ne, not_and_or, not_not] at special
  obtain (((rfl | rfl) | rfl) | rfl) | rfl := special <;> exact absurd number (by decide)

theorem constants_plain : ∀ constant ∈ constants, constant.1.all isPlain = true := by
  decide

theorem consumes_atom {value : Json} (parsed : parseAtom floats s = some (value, rest)) :
    Consumes .outside s rest := by
  unfold parseAtom at parsed
  split at parsed
  · next word constant found =>
      obtain ⟨-, rfl⟩ := Prod.mk.inj (Option.some.inj parsed)
      have begins := List.find?_some found
      have starts := List.isPrefixOf_iff_prefix.mp begins
      refine ⟨word, (List.prefix_iff_eq_append.mp starts).symm, keeps_plain ?_⟩
      exact constants_plain _ (List.mem_of_find?_eq_some found)
  · obtain ⟨number, -, same⟩ := Option.map_eq_some_iff.mp parsed
    obtain ⟨-, rfl⟩ := Prod.mk.inj same
    refine ⟨s.takeWhile isNumberChar, (List.takeWhile_append_dropWhile).symm, keeps_plain ?_⟩
    exact List.all_eq_true.mpr fun c member => isPlain_of_number (List.mem_takeWhile_imp member)

theorem consumes_key {fuel : Nat} {key : Str} (parsed : parseKey fuel s = some (key, rest)) :
    Consumes .outside s rest := by
  unfold parseKey at parsed
  split at parsed
  · next tail =>
      split at parsed
      · cases parsed
      · next found more read =>
          split at parsed
          · next last colon =>
              obtain ⟨-, rfl⟩ := Prod.mk.inj (Option.some.inj parsed)
              have spaces := consumes_space more
              rw [colon] at spaces
              exact (consumes_string read).trans
                (spaces.trans ((consumes_char rfl).trans (consumes_space last)))
          · cases parsed
  · cases parsed

/-- A bracketed text up to its closing character. -/
def Closes (closing : Char) (s rest : Str) : Prop :=
  Consumes .outside s (closing :: rest)

theorem consumes_wrapped {opening closing : Char} (closes : Closes closing s rest)
    (pair : opening = '[' ∧ closing = ']' ∨ opening = '{' ∧ closing = '}') :
    Consumes .outside (opening :: s) rest := by
  obtain ⟨body, rfl, keeps⟩ := closes
  obtain ⟨rfl, rfl⟩ | ⟨rfl, rfl⟩ := pair
  · exact ⟨'[' :: (body ++ [']']), by simp, keeps_brackets keeps⟩
  · exact ⟨'{' :: (body ++ ['}']), by simp, keeps_braces keeps⟩

theorem object_closes {fuel : Nat} {value : Json}
    (fields : ∀ s rest found, parseFields floats fuel s = some (found, rest) → Closes '}' s rest)
    (parsed : parseValue floats (fuel + 1) ('{' :: s) = some (value, rest)) :
    Closes '}' s rest := by
  have spaces := consumes_space s
  rw [parseValue] at parsed
  split at parsed
  · next last closed =>
      obtain ⟨-, rfl⟩ := Prod.mk.inj (Option.some.inj parsed)
      rw [closed] at spaces
      exact spaces
  · obtain ⟨list, read, same⟩ := Option.map_eq_some_iff.mp parsed
    obtain ⟨-, rfl⟩ := Prod.mk.inj same
    exact spaces.trans (fields _ _ _ read)

/-- What the reader takes is balanced, by induction on its fuel. -/
theorem parse_consumes (fuel : Nat) :
    (∀ s rest value, parseValue floats fuel s = some (value, rest) → Consumes .outside s rest) ∧
      (∀ s rest items, parseItems floats fuel s = some (items, rest) → Closes ']' s rest) ∧
      ∀ s rest fields, parseFields floats fuel s = some (fields, rest) → Closes '}' s rest := by
  induction fuel with
  | zero => exact ⟨nofun, nofun, nofun⟩
  | succ fuel ih =>
      obtain ⟨value, items, fields⟩ := ih
      refine ⟨fun s rest found parsed => ?_, fun s rest found parsed => ?_,
        fun s rest found parsed => ?_⟩
      · unfold parseValue at parsed
        split at parsed
        · next tail =>
            obtain ⟨text, read, same⟩ := Option.map_eq_some_iff.mp parsed
            obtain ⟨-, rfl⟩ := Prod.mk.inj same
            exact consumes_string read
        · next tail =>
            have spaces := consumes_space tail
            split at parsed
            · next last closed =>
                obtain ⟨-, rfl⟩ := Prod.mk.inj (Option.some.inj parsed)
                rw [closed] at spaces
                exact consumes_wrapped spaces (.inl ⟨rfl, rfl⟩)
            · obtain ⟨list, read, same⟩ := Option.map_eq_some_iff.mp parsed
              obtain ⟨-, rfl⟩ := Prod.mk.inj same
              exact consumes_wrapped (spaces.trans (items _ _ _ read)) (.inl ⟨rfl, rfl⟩)
        · next tail =>
            have object : parseValue floats (fuel + 1) ('{' :: tail) = some (found, rest) := by
              rw [parseValue]
              exact parsed
            exact consumes_wrapped (object_closes fields object) (.inr ⟨rfl, rfl⟩)
        · exact consumes_atom parsed
      · unfold parseItems at parsed
        split at parsed
        · cases parsed
        · next item more read =>
            have before := (value _ _ _ read).trans (consumes_space more)
            split at parsed
            · next last closed =>
                obtain ⟨-, rfl⟩ := Prod.mk.inj (Option.some.inj parsed)
                rw [closed] at before
                exact before
            · next last comma =>
                obtain ⟨list, later, same⟩ := Option.map_eq_some_iff.mp parsed
                obtain ⟨-, rfl⟩ := Prod.mk.inj same
                rw [comma] at before
                exact before.trans ((consumes_char rfl).trans
                  ((consumes_space last).trans (items _ _ _ later)))
            · cases parsed
      · unfold parseFields at parsed
        split at parsed
        · cases parsed
        · next key afterKey named =>
            split at parsed
            · cases parsed
            · next found' more read =>
                have before := (consumes_key named).trans
                  ((value _ _ _ read).trans (consumes_space more))
                split at parsed
                · next last closed =>
                    obtain ⟨-, rfl⟩ := Prod.mk.inj (Option.some.inj parsed)
                    rw [closed] at before
                    exact before
                · next last comma =>
                    obtain ⟨list, later, same⟩ := Option.map_eq_some_iff.mp parsed
                    obtain ⟨-, rfl⟩ := Prod.mk.inj same
                    rw [comma] at before
                    exact before.trans ((consumes_char rfl).trans
                      ((consumes_space last).trans (fields _ _ _ later)))
                · cases parsed

theorem balanced_of_loads {value : Json} (loaded : loads floats s = .ok value) :
    Balanced s ∧ s ≠ [] := by
  unfold loads at loaded
  split at loaded
  · cases loaded
  · next found rest parsed =>
      by_cases finished : (skipSpace rest).isEmpty
      · have spaces := (consumes_space s).trans
          (((parse_consumes _).1 _ _ _ parsed).trans (consumes_space rest))
        rw [List.isEmpty_iff.mp finished] at spaces
        obtain ⟨taken, whole, keeps⟩ := spaces
        rw [List.append_nil] at whole
        refine ⟨whole ▸ keeps, ?_⟩
        rintro rfl
        cases parsed
      · rw [if_neg finished] at loaded
        cases loaded

/-- The text of an object opens with a brace that its last character closes. -/
theorem dump_object {fields : Dict} (sound : Json.Sound floats (.obj fields)) :
    ∃ body, dump floats 0 (.obj fields) = '{' :: (body ++ ['}']) ∧ Balanced body := by
  obtain ⟨inner, brace⟩ : ∃ inner, dump floats 0 (.obj fields) = '{' :: inner := by
    cases fields with
    | nil => exact ⟨_, rfl⟩
    | cons field rest => exact ⟨_, by rw [dump]⟩
  have parsed := parse_dump (.obj fields) 0 (inner.length + 1) [] sound (by simp [brace])
    (by simp [Delimited])
  rw [List.append_nil, brace] at parsed
  obtain ⟨body, rfl, keeps⟩ := object_closes (parse_consumes _).2.2 parsed
  exact ⟨body, brace, keeps⟩

/-- No part of the text of an object is read as a document, unless it is all of it. -/
theorem loads_cut {fields : Dict} {front : Str} {value : Json}
    (sound : Json.Sound floats (.obj fields)) (cut : dump floats 0 (.obj fields) = front ++ rest)
    (loaded : loads floats front = .ok value) : rest = [] := by
  obtain ⟨body, shape, keeps⟩ := dump_object sound
  obtain ⟨balanced, live⟩ := balanced_of_loads loaded
  cases front with
  | nil => exact absurd rfl live
  | cons c front =>
      rw [shape] at cut
      obtain ⟨rfl, split⟩ := List.cons.inj cut
      obtain ⟨more, rfl, last⟩ | ⟨more, inside, -⟩ := List.append_eq_append_iff.mp split
      · cases more with
        | nil =>
            -- Only the last brace is missing.
            have opened : scan (0, .outside) ('{' :: (body ++ [])) = scan (1, .outside) body := by
              rw [List.append_nil]
              rfl
            have closed := balanced.whole 0
            rw [opened, keeps.whole] at closed
            cases closed
        | cons d more =>
            obtain ⟨-, nothing⟩ := List.cons.inj last
            exact (List.append_eq_nil_iff.mp nothing.symm).2
      · -- The brace is still open.
        have depth := keeps.above 1 front more inside
        have closed := congrArg Prod.fst (balanced.whole 0)
        have opened : scan (0, .outside) ('{' :: front) = scan (1, .outside) front := rfl
        rw [opened] at closed
        omega

end Reading

end S3Manager.Python
