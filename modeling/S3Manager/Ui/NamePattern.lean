import Mathlib.Data.Bool.AllAny
import S3Manager.Library.Scan
import S3Manager.Python.Text

/-! The pattern `/filename(\*?)=(?:UTF-8'')?"?([^";]+)"?/gi` as the browser applies it, and what
its matches are in a text that is cut up by quotes and semicolons. -/

set_option autoImplicit false

namespace S3Manager.Ui

open Python Library

section Pattern

/-- What ends a run of `[^";]+`. -/
def isSeparator (c : Char) : Bool := c == '"' || c == ';'

/-- The text behind these letters, which are given in lower case, with the flag `i`. -/
def afterIgnoringCase (letters text : Str) : Option Str :=
  if (text.take letters.length).map Char.toLower = letters then some (text.drop letters.length)
  else none

/-- `(\*?)=`, and whether there is a star. -/
def starEquals : Str → Option (Bool × Str)
  | '*' :: '=' :: rest => some (true, rest)
  | '=' :: rest => some (false, rest)
  | _ => none

/-- `filename(\*?)=` -/
def keywordAt (text : Str) : Option (Bool × Str) :=
  (afterIgnoringCase (lit "filename") text).bind starEquals

/-- `"?`, with a quote if there is one. -/
def dropQuote : Str → Str
  | '"' :: rest => rest
  | text => text

/-- `([^";]+)"?` -/
def runAt (text : Str) : Option (Str × Str) :=
  let value := text.takeWhile fun c => !isSeparator c
  if value.isEmpty then none else some (value, dropQuote (text.drop value.length))

/-- `"?([^";]+)"?`, first with the quote. -/
def quotedRunAt (text : Str) : Option (Str × Str) :=
  (match text with
    | '"' :: rest => runAt rest
    | _ => none).or (runAt text)

/-- `(?:UTF-8'')?"?([^";]+)"?`, first with the charset. -/
def valueAt (text : Str) : Option (Str × Str) :=
  ((afterIgnoringCase (lit "utf-8''") text).bind quotedRunAt).or (quotedRunAt text)

/-- The first keyword in a piece, and what follows it there. -/
def keywordIn : Str → Option (Bool × Str)
  | [] => none
  | c :: rest =>
      match keywordAt (c :: rest) with
      | some found => some found
      | none => keywordIn rest

/-- Behind a keyword and nothing but the charset, a quote and the next piece are taken too. -/
def takesNext (value : Str) : Bool :=
  value.isEmpty || value.map Char.toLower == lit "utf-8''"

structure FilenameMatch where
  starred : Bool
  value : Str
  deriving DecidableEq

def filenameAt (text : Str) : Option (FilenameMatch × Str) :=
  (keywordAt text).bind fun keyword =>
    (valueAt keyword.2).map fun found => (⟨keyword.1, found.1⟩, found.2)

def filenameMatches (disposition : Str) : List FilenameMatch :=
  Scan.all filenameAt disposition

end Pattern

section Matching

variable {text rest more after value : Str} {stop : Char} {found : Bool × Str}

def Clean (text : Str) : Prop := ∀ c ∈ text, isSeparator c = false

theorem Clean.tail {c : Char} (clean : Clean (c :: rest)) : Clean rest :=
  fun d member => clean d (List.mem_cons_of_mem c member)

theorem Clean.of_suffix (clean : Clean text) (within : rest <:+ text) : Clean rest :=
  fun d member => clean d (within.subset member)

theorem separator_lower {c : Char} (separates : isSeparator c = true) : c.toLower = c := by
  simp only [isSeparator, Bool.or_eq_true, beq_iff_eq] at separates
  obtain rfl | rfl := separates <;> rfl

theorem afterIgnoringCase_suffix {letters : Str} (read : afterIgnoringCase letters text = some rest) :
    rest <:+ text ∧ text.length = letters.length + rest.length := by
  unfold afterIgnoringCase at read
  split_ifs at read with same
  obtain rfl := Option.some.inj read
  have length : (text.take letters.length).length = letters.length := by
    rw [← List.length_map (f := Char.toLower), same]
  rw [List.length_take] at length
  refine ⟨List.drop_suffix _ _, ?_⟩
  rw [List.length_drop]
  omega

theorem afterIgnoringCase_longer {letters : Str} (long : letters.length ≤ text.length) :
    afterIgnoringCase letters (text ++ more) = (afterIgnoringCase letters text).map (· ++ more) := by
  unfold afterIgnoringCase
  rw [List.take_append_of_le_length long, List.drop_append_of_le_length long]
  split_ifs <;> rfl

/-- Letters do not reach over a separator. -/
theorem afterIgnoringCase_append {letters : Str} (plain : ∀ c ∈ letters, isSeparator c = false)
    (separates : isSeparator stop = true) :
    afterIgnoringCase letters (text ++ stop :: more) =
      (afterIgnoringCase letters text).map (· ++ stop :: more) := by
  by_cases long : letters.length ≤ text.length
  · exact afterIgnoringCase_longer long
  · unfold afterIgnoringCase
    have whole : (text.take letters.length).map Char.toLower ≠ letters := by
      intro same
      have length := congrArg List.length same
      rw [List.length_map, List.length_take] at length
      omega
    have crossing : ((text ++ stop :: more).take letters.length).map Char.toLower ≠ letters := by
      intro same
      have among : stop.toLower ∈ letters := by
        rw [← same]
        refine List.mem_map_of_mem (List.mem_take_iff_getElem.mpr ⟨text.length, ?_, ?_⟩)
        · rw [List.length_append, List.length_cons]
          omega
        · simp
      rw [separator_lower separates] at among
      rw [plain stop among] at separates
      cases separates
    rw [if_neg whole, if_neg crossing]
    rfl

theorem separator_cases (separates : isSeparator stop = true) : stop = '"' ∨ stop = ';' := by
  simpa [isSeparator] using separates

theorem starEquals_length (read : starEquals text = some found) :
    found.2 <:+ text ∧ text.length = (if found.1 then 2 else 1) + found.2.length := by
  unfold starEquals at read
  split at read
  · obtain rfl := Option.some.inj read
    refine ⟨(List.suffix_cons _ _).trans (List.suffix_cons _ _), ?_⟩
    simp only [List.length_cons, if_true]
    omega
  · obtain rfl := Option.some.inj read
    refine ⟨List.suffix_cons _ _, ?_⟩
    simp only [List.length_cons, Bool.false_eq_true, if_false]
    omega
  · cases read

theorem starEquals_longer (long : 2 ≤ text.length) :
    starEquals (text ++ more) = (starEquals text).map fun found => (found.1, found.2 ++ more) := by
  match text, long with
  | c :: d :: rest, _ =>
      by_cases equals : c = '='
      · simp [starEquals, equals]
      · by_cases both : c = '*' ∧ d = '='
        · simp [starEquals, both]
        · have neither : ∀ tail : Str, starEquals (c :: d :: tail) = none := by
            intro tail
            unfold starEquals
            split
            · next same => exact absurd ⟨(List.cons.inj same).1,
                (List.cons.inj (List.cons.inj same).2).1⟩ both
            · next same => exact absurd (List.cons.inj same).1 equals
            · rfl
          rw [List.cons_append, List.cons_append, neither, neither]
          rfl

theorem starEquals_append (separates : isSeparator stop = true) :
    starEquals (text ++ stop :: more) =
      (starEquals text).map fun found => (found.1, found.2 ++ stop :: more) := by
  have other : stop ≠ '=' ∧ stop ≠ '*' := by
    obtain rfl | rfl := separator_cases separates <;> decide
  match text with
  | [] => simp [starEquals, other]
  | [c] =>
      by_cases star : c = '*'
      · simp [starEquals, star, other]
      · by_cases equals : c = '='
        · simp [starEquals, equals]
        · simp [starEquals, star, equals]
  | c :: d :: rest => exact starEquals_longer (Nat.le_add_left 2 rest.length)

theorem keywordAt_length (read : keywordAt text = some found) :
    found.2 <:+ text ∧ text.length = (if found.1 then 10 else 9) + found.2.length := by
  obtain ⟨after, letters, equals⟩ := Option.bind_eq_some_iff.mp read
  obtain ⟨within, length⟩ := afterIgnoringCase_suffix letters
  obtain ⟨later, fewer⟩ := starEquals_length equals
  have eight : (lit "filename").length = 8 := rfl
  refine ⟨later.trans within, ?_⟩
  split_ifs at fewer ⊢ <;> omega

theorem keywordAt_prefix (long : 10 ≤ text.length) :
    keywordAt (text ++ more) = (keywordAt text).map fun found => (found.1, found.2 ++ more) := by
  have eight : (lit "filename").length = 8 := rfl
  unfold keywordAt
  rw [afterIgnoringCase_longer (by omega)]
  cases letters : afterIgnoringCase (lit "filename") text with
  | none => rfl
  | some after =>
      have length := (afterIgnoringCase_suffix letters).2
      exact starEquals_longer (by omega)

theorem keywordAt_append (separates : isSeparator stop = true) :
    keywordAt (text ++ stop :: more) =
      (keywordAt text).map fun found => (found.1, found.2 ++ stop :: more) := by
  unfold keywordAt
  rw [afterIgnoringCase_append (List.all_iff_forall_prop.1 (by decide)) separates]
  cases afterIgnoringCase (lit "filename") text with
  | none => rfl
  | some after => exact starEquals_append separates

/-- A keyword with nothing behind it has no other keyword inside. -/
theorem keywordIn_short (short : text.length < 9) : keywordIn text = none := by
  induction text with
  | nil => rfl
  | cons c rest ih =>
      have none_ : keywordAt (c :: rest) = none := by
        cases read : keywordAt (c :: rest) with
        | none => rfl
        | some found =>
            have length := (keywordAt_length read).2
            split_ifs at length <;> omega
      rw [keywordIn, none_]
      exact ih (Nat.lt_of_succ_lt short)

theorem keywordIn_rest {c : Char} {starred : Bool} (read : keywordAt (c :: rest) = some (starred, [])) :
    keywordIn rest = none := by
  have length := (keywordAt_length read).2
  cases starred with
  | false =>
      refine keywordIn_short ?_
      simp only [List.length_cons, List.length_nil, Bool.false_eq_true, if_false] at length
      omega
  | true =>
      simp only [List.length_cons, List.length_nil, if_true] at length
      match rest, length with
      | d :: tail, length =>
          have second : d.toLower = 'i' := by
            obtain ⟨after, letters, -⟩ := Option.bind_eq_some_iff.mp read
            unfold afterIgnoringCase at letters
            split_ifs at letters with same
            exact (List.cons.inj (List.cons.inj same).2).1
          have missed : keywordAt (d :: tail) = none := by
            have other : (((d :: tail).take (lit "filename").length).map Char.toLower) ≠
                lit "filename" := by
              intro same
              have first : d.toLower = 'f' := (List.cons.inj same).1
              rw [second] at first
              cases first
            rw [keywordAt, afterIgnoringCase, if_neg other]
            rfl
          rw [keywordIn, missed]
          refine keywordIn_short ?_
          simp only [List.length_cons] at length
          omega

theorem run_clean (clean : Clean text) (separates : isSeparator stop = true) :
    (text ++ stop :: more).takeWhile (fun c => !isSeparator c) = text := by
  induction text with
  | nil => simp [separates]
  | cons c rest ih =>
      have plain := clean c List.mem_cons_self
      simp [plain, ih clean.tail]

theorem runAt_clean (clean : Clean text) (live : text ≠ []) (separates : isSeparator stop = true) :
    runAt (text ++ stop :: more) = some (text, dropQuote (stop :: more)) := by
  have nonempty : text.isEmpty = false := by simpa using live
  unfold runAt
  simp only [run_clean clean separates, nonempty, Bool.false_eq_true, if_false, List.drop_left]

theorem runAt_stop (separates : isSeparator stop = true) : runAt (stop :: more) = none := by
  simp [runAt, separates]

theorem dropQuote_suffix (text : Str) : dropQuote text <:+ text := by
  unfold dropQuote
  split
  · exact List.suffix_cons _ _
  · exact List.suffix_rfl

theorem runAt_suffix (read : runAt text = some (value, after)) : after <:+ text := by
  unfold runAt at read
  dsimp only at read
  split_ifs at read
  obtain ⟨-, rfl⟩ := Prod.mk.inj (Option.some.inj read)
  exact (dropQuote_suffix _).trans (List.drop_suffix _ _)

theorem quotedRunAt_suffix (read : quotedRunAt text = some (value, after)) : after <:+ text := by
  unfold quotedRunAt at read
  obtain quoted | ⟨-, plain⟩ := Option.or_eq_some_iff.mp read
  · split at quoted
    · exact (runAt_suffix quoted).trans (List.suffix_cons _ _)
    · cases quoted
  · exact runAt_suffix plain

theorem valueAt_suffix (read : valueAt text = some (value, after)) : after <:+ text := by
  obtain charset | ⟨-, plain⟩ := Option.or_eq_some_iff.mp read
  · obtain ⟨behind, letters, run⟩ := Option.bind_eq_some_iff.mp charset
    exact (quotedRunAt_suffix run).trans (afterIgnoringCase_suffix letters).1
  · exact quotedRunAt_suffix plain

theorem quotedRunAt_clean (clean : Clean text) (live : text ≠ [])
    (separates : isSeparator stop = true) :
    quotedRunAt (text ++ stop :: more) = some (text, dropQuote (stop :: more)) := by
  unfold quotedRunAt
  rw [runAt_clean clean live separates]
  cases text with
  | nil => exact absurd rfl live
  | cons c rest =>
      have plain := clean c List.mem_cons_self
      have unquoted : c ≠ '"' := by
        rintro rfl
        cases plain
      simp [unquoted]

/-- In front of a separator there is a run only behind a quote. -/
theorem quotedRunAt_stop (separates : isSeparator stop = true) :
    quotedRunAt (stop :: more) = if stop = '"' then runAt more else none := by
  unfold quotedRunAt
  rw [runAt_stop separates]
  obtain rfl | rfl := separator_cases separates
  · simp
  · simp

theorem charset_append (separates : isSeparator stop = true) :
    afterIgnoringCase (lit "utf-8''") (text ++ stop :: more) =
      (afterIgnoringCase (lit "utf-8''") text).map (· ++ stop :: more) :=
  afterIgnoringCase_append (List.all_iff_forall_prop.1 (by decide)) separates

theorem charset_takesNext (whole : afterIgnoringCase (lit "utf-8''") text = some []) :
    takesNext text = true ∧ text ≠ [] := by
  have length := (afterIgnoringCase_suffix whole).2
  have seven : (lit "utf-8''").length = 7 := rfl
  unfold afterIgnoringCase at whole
  split_ifs at whole with same
  rw [List.take_of_length_le (by simp only [List.length_nil] at length; omega)] at same
  refine ⟨by simp [takesNext, same], ?_⟩
  rintro rfl
  cases same

theorem takesNext_charset (takes : takesNext text = true) (live : text ≠ []) :
    afterIgnoringCase (lit "utf-8''") text = some [] := by
  have same : text.map Char.toLower = lit "utf-8''" := by simpa [takesNext, live] using takes
  have length : text.length = (lit "utf-8''").length := by rw [← same, List.length_map]
  rw [afterIgnoringCase, List.take_of_length_le length.le, if_pos same,
    List.drop_eq_nil_of_le length.le]

/-- A value that needs nothing from the next piece. -/
theorem valueAt_alone (clean : Clean text) (own : takesNext text = false)
    (separates : isSeparator stop = true) :
    ∃ value, valueAt (text ++ stop :: more) = some (value, dropQuote (stop :: more)) ∧
      value <:+ text := by
  have live : text ≠ [] := by
    rintro rfl
    cases own
  unfold valueAt
  rw [charset_append separates, quotedRunAt_clean clean live separates]
  cases charset : afterIgnoringCase (lit "utf-8''") text with
  | none => exact ⟨text, rfl, List.suffix_rfl⟩
  | some behind =>
      have within := (afterIgnoringCase_suffix charset).1
      cases behind with
      | nil =>
          rw [(charset_takesNext charset).1] at own
          cases own
      | cons c rest =>
          refine ⟨c :: rest, ?_, within⟩
          rw [Option.map_some, Option.bind_some,
            quotedRunAt_clean (clean.of_suffix within) (List.cons_ne_nil c rest) separates]
          rfl

/-- A value that goes on behind the quote. -/
theorem valueAt_behind {found : Str × Str} (takes : takesNext text = true)
    (run : runAt more = some found) : valueAt (text ++ '"' :: more) = some found := by
  have behind : quotedRunAt ('"' :: more) = some found := by
    rw [quotedRunAt_stop rfl, if_pos rfl, run]
  unfold valueAt
  rw [charset_append rfl]
  cases text with
  | nil =>
      have bare : afterIgnoringCase (lit "utf-8''") [] = none := by decide
      rw [bare]
      exact behind
  | cons c rest =>
      rw [takesNext_charset takes (List.cons_ne_nil c rest), Option.map_some, Option.bind_some]
      exact (congrArg (Option.or · _) behind).trans rfl

/-- A value that could go on behind a quote, but does not. -/
theorem valueAt_stopped (takes : takesNext text = true) (clean : Clean text)
    (separates : isSeparator stop = true) (stopped : stop = '"' → runAt more = none) :
    valueAt (text ++ stop :: more) =
      if text.isEmpty then none else some (text, dropQuote (stop :: more)) := by
  have nothing : quotedRunAt (stop :: more) = none := by
    rw [quotedRunAt_stop separates]
    split_ifs with quote
    · exact stopped quote
    · rfl
  unfold valueAt
  rw [charset_append separates]
  cases text with
  | nil =>
      have bare : afterIgnoringCase (lit "utf-8''") [] = none := by decide
      rw [bare]
      exact nothing
  | cons c rest =>
      rw [takesNext_charset takes (List.cons_ne_nil c rest), Option.map_some, Option.bind_some,
        quotedRunAt_clean clean (List.cons_ne_nil c rest) separates]
      exact (congrArg (Option.or · _) nothing).trans rfl

end Matching

section Scanning

variable {text rest more after value : Str} {stop c : Char} {starred : Bool}

theorem keywordAt_longer (separates : isSeparator stop = true) :
    keywordAt (c :: (rest ++ stop :: more)) =
      (keywordAt (c :: rest)).map fun found => (found.1, found.2 ++ stop :: more) :=
  @keywordAt_append (c :: rest) more stop separates

theorem filenameMatches_skip (miss : keywordAt (c :: rest) = none) :
    filenameMatches (c :: rest) = filenameMatches rest :=
  Scan.all_miss (by rw [filenameAt, miss]; rfl)

theorem filenameMatches_void {behind : Str} (read : keywordAt (c :: rest) = some (starred, behind))
    (none_ : valueAt behind = none) : filenameMatches (c :: rest) = filenameMatches rest :=
  Scan.all_miss (by rw [filenameAt, read, Option.bind_some, none_]; rfl)

theorem filenameMatches_hit {behind : Str} (read : keywordAt (c :: rest) = some (starred, behind))
    (run : valueAt behind = some (value, after)) :
    filenameMatches (c :: rest) = ⟨starred, value⟩ :: filenameMatches after := by
  obtain ⟨within, length⟩ := keywordAt_length read
  have later : behind <:+ rest := by
    refine (List.suffix_cons_iff.mp within).resolve_left ?_
    intro same
    rw [same] at length
    dsimp only at length
    split_ifs at length <;> omega
  exact Scan.all_hit (by rw [filenameAt, read, Option.bind_some, run]; rfl)
    ((valueAt_suffix run).trans later)

theorem filenameMatches_stop (separates : isSeparator stop = true) :
    filenameMatches (stop :: more) = filenameMatches more := by
  refine filenameMatches_skip ?_
  rw [← List.nil_append (stop :: more), keywordAt_append separates]
  rfl

theorem filenameMatches_dropQuote (separates : isSeparator stop = true) :
    filenameMatches (dropQuote (stop :: more)) = filenameMatches more := by
  obtain rfl | rfl := separator_cases separates
  · rfl
  · exact filenameMatches_stop separates

/-- A piece without a keyword has no match. -/
theorem filenameMatches_piece (bare : keywordIn text = none) (separates : isSeparator stop = true) :
    filenameMatches (text ++ stop :: more) = filenameMatches more := by
  induction text with
  | nil => exact filenameMatches_stop separates
  | cons c rest ih =>
      unfold keywordIn at bare
      split at bare
      · cases bare
      · next missed =>
          have skipped : keywordAt (c :: (rest ++ stop :: more)) = none := by
            rw [keywordAt_longer separates, missed]
            rfl
          exact (filenameMatches_skip skipped).trans (ih bare)

theorem keywordIn_length (read : keywordIn text = some (starred, value)) :
    value <:+ text ∧ (if starred then 10 else 9) + value.length ≤ text.length := by
  induction text with
  | nil => cases read
  | cons c rest ih =>
      unfold keywordIn at read
      split at read
      · next found here =>
          obtain rfl := Option.some.inj read
          obtain ⟨within, length⟩ := keywordAt_length here
          exact ⟨within, length.ge⟩
      · obtain ⟨within, length⟩ := ih read
        refine ⟨within.trans (List.suffix_cons c rest), ?_⟩
        rw [List.length_cons]
        omega

theorem filenameMatches_keyword {found : Str} (read : keywordIn text = some (starred, value))
    (separates : isSeparator stop = true)
    (run : valueAt (value ++ stop :: more) = some (found, after)) :
    filenameMatches (text ++ stop :: more) = ⟨starred, found⟩ :: filenameMatches after := by
  induction text with
  | nil => cases read
  | cons c rest ih =>
      unfold keywordIn at read
      split at read
      · next found here =>
          obtain rfl := Option.some.inj read
          have longer : keywordAt (c :: (rest ++ stop :: more)) =
              some (starred, value ++ stop :: more) := by
            rw [keywordAt_longer separates, here]
            rfl
          exact filenameMatches_hit longer run
      · next missed =>
          have skipped : keywordAt (c :: (rest ++ stop :: more)) = none := by
            rw [keywordAt_longer separates, missed]
            rfl
          exact (filenameMatches_skip skipped).trans (ih read)

theorem filenameMatches_useless (read : keywordIn text = some (starred, []))
    (separates : isSeparator stop = true) (none_ : valueAt (stop :: more) = none) :
    filenameMatches (text ++ stop :: more) = filenameMatches more := by
  induction text with
  | nil => cases read
  | cons c rest ih =>
      unfold keywordIn at read
      split at read
      · next found here =>
          obtain rfl := Option.some.inj read
          have useless : keywordAt (c :: (rest ++ stop :: more)) = some (starred, stop :: more) := by
            rw [keywordAt_longer separates, here]
            rfl
          exact (filenameMatches_void useless none_).trans
            (filenameMatches_piece (keywordIn_rest here) separates)
      · next missed =>
          have skipped : keywordAt (c :: (rest ++ stop :: more)) = none := by
            rw [keywordAt_longer separates, missed]
            rfl
          exact (filenameMatches_skip skipped).trans (ih read)

end Scanning

end S3Manager.Ui
