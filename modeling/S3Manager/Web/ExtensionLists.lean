import S3Manager.Python.AsciiCase
import S3Manager.Web.ConfigLaws

/-! The extension lists of a config: what `update_config` stores of the entries that are
sent, and which uploads are inline then. -/

set_option autoImplicit false

namespace S3Manager.Web

open Python Utils Access Config Library

section Lists

def withoutDots (text : Str) : Str :=
  text.dropWhile fun c => c == '.'

variable (unicode : Unicode)

/-- What is stored of a list of strings. -/
def storedExtensions (extensions : List Str) : List Str :=
  (extensions.filter fun extension => !(strip extension).isEmpty).map fun extension =>
    unicode.lower (withoutDots extension)

/-- What is relied on of `str.lower`, beyond ASCII. -/
structure CaseLaws : Prop where
  lower_lower : ∀ text, unicode.lower (unicode.lower text) = unicode.lower text
  lower_nil : ∀ text, unicode.lower text = [] → text = []
  lower_dot : ∀ text, (unicode.lower text).head? = some '.' → text.head? = some '.'
  lower_trimmed : ∀ text, strip (unicode.lower text) = unicode.lower text ↔ strip text = text

structure CleanExtension (stored : Str) : Prop where
  nonempty : stored ≠ []
  small : unicode.lower stored = stored
  dotless : stored.head? ≠ some '.'
  trimmed : strip stored = stored

/-- An entry without the dots and blanks around it. -/
def bareExtension (extension : Str) : Str :=
  rstrip (extension.dropWhile fun c => c == '.' || isSpace c)

/-- The key has an extension, and some entry is this extension. -/
def Submitted (extensions : List Str) (key : Str) : Prop :=
  pathSuffix key ≠ [] ∧ ∃ extension ∈ extensions, bareExtension extension ≠ [] ∧
    unicode.lower (bareExtension extension) = unicode.lower (withoutDots (pathSuffix key))

/-- What is meant by storing a list in normal form. -/
structure Normalized (extensions : List Str) : Prop where
  clean : ∀ stored ∈ storedExtensions unicode extensions, CleanExtension unicode stored
  again : storedExtensions unicode (storedExtensions unicode extensions) =
    storedExtensions unicode extensions
  inline : ∀ config key, dictGet config "upload_inline_extensions" =
      .arr ((storedExtensions unicode extensions).map .str) →
    (inlineDisposition unicode config key = .ok (some (lit "inline")) ↔
      Submitted unicode extensions key)

/-- An entry with more than blanks in it has, behind its leading dots, something
without blanks around it. -/
def Tidy (extension : Str) : Prop :=
  strip extension ≠ [] → withoutDots extension ≠ [] ∧
    strip (withoutDots extension) = withoutDots extension

end Lists

section Entries

variable {unicode : Unicode} {extensions : List Str} {extension : Str}

theorem lower_empty : unicode.lower [] = [] :=
  unicode.lower_ascii [] (by simp)

theorem withoutDots_head : (withoutDots extension).head? ≠ some '.' := by
  intro head
  cases shape : withoutDots extension with
  | nil => simp [shape] at head
  | cons c rest =>
      obtain rfl : c = '.' := by simpa [shape] using head
      have kept := dropWhile_head_not _ shape
      simp at kept

theorem clean_iff (laws : CaseLaws unicode) : CleanExtension unicode (unicode.lower (withoutDots extension)) ↔
    withoutDots extension ≠ [] ∧ strip (withoutDots extension) = withoutDots extension := by
  constructor
  · intro clean
    refine ⟨fun empty => clean.nonempty ?_, (laws.lower_trimmed _).mp clean.trimmed⟩
    rw [empty, lower_empty]
  · rintro ⟨live, trimmed⟩
    exact ⟨fun empty => live (laws.lower_nil _ empty), laws.lower_lower _,
      fun head => withoutDots_head (laws.lower_dot _ head), (laws.lower_trimmed _).mpr trimmed⟩

theorem mem_stored {stored : Str} : stored ∈ storedExtensions unicode extensions ↔
    ∃ extension ∈ extensions, strip extension ≠ [] ∧
      stored = unicode.lower (withoutDots extension) := by
  simp only [storedExtensions, List.mem_map, List.mem_filter, Bool.not_eq_true',
    List.isEmpty_eq_false_iff]
  constructor
  · rintro ⟨extension, ⟨listed, visible⟩, rfl⟩
    exact ⟨extension, listed, visible, rfl⟩
  · rintro ⟨extension, listed, visible, rfl⟩
    exact ⟨extension, ⟨listed, visible⟩, rfl⟩

theorem clean_all_iff (laws : CaseLaws unicode) :
    (∀ stored ∈ storedExtensions unicode extensions, CleanExtension unicode stored) ↔
      ∀ extension ∈ extensions, Tidy extension := by
  constructor
  · intro clean extension member visible
    exact (clean_iff laws).mp (clean _ (mem_stored.mpr ⟨extension, member, visible, rfl⟩))
  · intro tidy stored member
    obtain ⟨extension, listed, visible, rfl⟩ := mem_stored.mp member
    exact (clean_iff laws).mpr (tidy extension listed visible)

theorem withoutDots_clean {stored : Str} (dotless : stored.head? ≠ some '.') :
    withoutDots stored = stored := by
  refine dropWhile_eq_self_of_head _ fun c rest shape => ?_
  rw [beq_eq_false_iff_ne]
  rintro rfl
  exact dotless (by rw [shape]; rfl)

/-- A list of clean entries is stored as it is. -/
theorem stored_of_clean {entries : List Str}
    (clean : ∀ stored ∈ entries, CleanExtension unicode stored) :
    storedExtensions unicode entries = entries := by
  have visible : (entries.filter fun entry => !(strip entry).isEmpty) = entries := by
    refine List.filter_eq_self.mpr fun entry member => ?_
    have live := (clean entry member).nonempty
    rw [(clean entry member).trimmed]
    simpa using live
  rw [storedExtensions, visible]
  refine (List.map_congr_left fun entry member => ?_).trans (List.map_id entries)
  rw [withoutDots_clean (clean entry member).dotless]
  exact (clean entry member).small

end Entries

section Uploads

variable {unicode : Unicode} {extensions : List Str} {extension key : Str} {config : Dict}

theorem dropWhile_dropWhile {α : Type} {p q : α → Bool} (weaker : ∀ x, q x = true → p x = true)
    (values : List α) : (values.dropWhile q).dropWhile p = values.dropWhile p := by
  induction values with
  | nil => rfl
  | cons x rest ih =>
      by_cases drops : q x = true
      · rw [List.dropWhile_cons_of_pos drops, List.dropWhile_cons_of_pos (weaker x drops), ih]
      · rw [List.dropWhile_cons_of_neg drops]

/-- Of a tidy entry only the leading dots go. -/
theorem bare_of_tidy (trimmed : strip (withoutDots extension) = withoutDots extension) :
    bareExtension extension = withoutDots extension := by
  have head : (withoutDots extension).dropWhile (fun c => c == '.' || isSpace c) =
      withoutDots extension := by
    refine dropWhile_eq_self_of_head _ fun c rest shape => ?_
    have dot : c ≠ '.' := by
      rintro rfl
      exact withoutDots_head (by rw [shape]; rfl)
    simp [dot, trimBy_head_not isSpace (trimmed.trans shape)]
  have dropped : extension.dropWhile (fun c => c == '.' || isSpace c) = withoutDots extension :=
    (dropWhile_dropWhile (fun c dot => by simp [dot]) extension).symm.trans head
  rw [bareExtension, dropped]
  exact ((trimBy_eq_self_iff isSpace).mp trimmed).2

theorem visible_of_bare (bare : bareExtension extension ≠ []) : strip extension ≠ [] := by
  intro blank
  have spaces := (trimBy_eq_nil_iff isSpace).mp blank
  have dropped : extension.dropWhile (fun c => c == '.' || isSpace c) = [] := by
    rw [List.dropWhile_eq_nil_iff]
    exact fun c member => by simp [spaces c member]
  exact bare (by rw [bareExtension, dropped]; rfl)

theorem get?_of_dictGet {record : Dict} {field : String} {items : List Json}
    (read : dictGet record field = .arr items) :
    Assoc.get? record (lit field) = some (.arr items) := by
  unfold dictGet at read
  cases found : Assoc.get? record (lit field) with
  | none => simp [found] at read
  | some value => simpa [found] using read

/-- The route looks the extension of the key up in the list that is stored. -/
theorem inline_iff (stored : dictGet config "upload_inline_extensions" =
      .arr (extensions.map .str)) :
    inlineDisposition unicode config key = .ok (some (lit "inline")) ↔
      unicode.lower (withoutDots (pathSuffix key)) ∈ extensions := by
  have read : dictGetD config "upload_inline_extensions" (.arr []) = .arr (extensions.map .str) := by
    rw [dictGetD, get?_of_dictGet stored, Option.getD_some]
  unfold inlineDisposition
  rw [read]
  by_cases empty : extensions = []
  · subst empty
    simp [Json.truthy]
  · have live : (Json.arr (extensions.map .str)).truthy = true := by
      simp [Json.truthy, empty]
    have listed : Json.str (unicode.lower (withoutDots (pathSuffix key))) ∈ extensions.map Json.str ↔
        unicode.lower (withoutDots (pathSuffix key)) ∈ extensions := by
      simp
    simp only [live, if_true, containsText, result_bind_ok, Except.ok.injEq]
    rw [← listed, withoutDots]
    split <;> simp_all

theorem submitted_iff (laws : CaseLaws unicode) (tidy : ∀ extension ∈ extensions, Tidy extension) :
    unicode.lower (withoutDots (pathSuffix key)) ∈ storedExtensions unicode extensions ↔
      Submitted unicode extensions key := by
  rw [mem_stored]
  constructor
  · rintro ⟨extension, listed, visible, same⟩
    obtain ⟨live, trimmed⟩ := tidy extension listed visible
    refine ⟨fun none => ?_, extension, listed, ?_⟩
    · rw [none] at same
      exact live (laws.lower_nil _ (same.symm.trans lower_empty))
    · rw [bare_of_tidy trimmed]
      exact ⟨live, same.symm⟩
  · rintro ⟨-, extension, listed, bare, same⟩
    have visible := visible_of_bare bare
    obtain ⟨-, trimmed⟩ := tidy extension listed visible
    rw [bare_of_tidy trimmed] at same
    exact ⟨extension, listed, visible, same.symm⟩

end Uploads

section Law

variable {environ : Environ} {current body saved : Dict} {isAdmin writable : Bool} {field : String}
  {extensions : List Str}

theorem normalizeExtensions_str : normalizeExtensions environ field (extensions.map .str) =
    .ok ((storedExtensions environ.unicode extensions).map .str) := by
  induction extensions with
  | nil => rfl
  | cons extension rest ih =>
      rw [List.map_cons, normalizeExtensions, ih, result_bind_ok]
      by_cases blank : strip extension = []
      · simp [storedExtensions, blank]
      · simp [storedExtensions, blank, withoutDots]

theorem extensions_saved (known : field ∈ ["preview_text_extensions", "upload_inline_extensions"])
    (updated : updateConfig environ current isAdmin writable body = .ok saved)
    (sent : dictGet body field = .arr (extensions.map .str)) :
    dictGet saved field = .arr ((storedExtensions environ.unicode extensions).map .str) := by
  obtain ⟨limits, settled, accepted⟩ := accepted_of_update updated
  have member : extensionsRule environ current field ∈ serverRules environ current := by
    rcases List.mem_cons.mp known with rfl | known
    · simp [serverRules]
    · obtain rfl := List.mem_singleton.mp known
      simp [serverRules]
  obtain ⟨value, revised, after⟩ := accepted.server member
  have before : Assoc.get? body (extensionsRule environ current field).key =
      some (.arr (extensions.map .str)) := get?_of_dictGet sent
  rw [before] at revised after
  obtain ⟨normalized, result, stored⟩ := bind_eq_ok_iff.mp revised
  rw [normalizeExtensions_str] at result
  obtain rfl := Except.ok.inj result
  obtain rfl := Except.ok.inj stored
  rw [dictGet]
  exact congrArg (fun found => found.getD .null) after

/-- A list is stored in normal form exactly when its entries are tidy: blanks inside the dots
are kept, and an entry that is nothing but dots becomes an empty one. -/
theorem extensions_normalized_iff (laws : CaseLaws environ.unicode) :
    (∀ extensions, Normalized environ.unicode extensions ↔
      ∀ extension ∈ extensions, Tidy extension) ∧
      ∀ field ∈ ["preview_text_extensions", "upload_inline_extensions"],
        ∀ current isAdmin writable body saved extensions,
          updateConfig environ current isAdmin writable body = .ok saved →
            dictGet body field = .arr (extensions.map .str) →
              dictGet saved field =
                .arr ((storedExtensions environ.unicode extensions).map .str) := by
  refine ⟨fun extensions => ⟨fun normal => (clean_all_iff laws).mp normal.clean, fun tidy => ?_⟩,
    fun field known _ _ _ _ _ _ updated sent => extensions_saved known updated sent⟩
  have clean := (clean_all_iff laws).mpr tidy
  exact ⟨clean, stored_of_clean clean, fun config key stored =>
    (inline_iff stored).trans (submitted_iff laws tidy)⟩

end Law

section Examples

theorem ascii_laws : CaseLaws Unicode.ascii where
  lower_lower := fun text => by
    change (text.map Char.toLower).map Char.toLower = text.map Char.toLower
    rw [List.map_map]
    exact List.map_congr_left fun c _ => toLower_toLower c
  lower_nil := fun text empty => List.map_eq_nil_iff.mp empty
  lower_dot := fun text head => by
    cases text with
    | nil => cases head
    | cons c rest => exact congrArg some (toLower_dot (Option.some.inj head))
  lower_trimmed := fun text => by
    show strip (text.map Char.toLower) = text.map Char.toLower ↔ strip text = text
    rw [strip_map_toLower]
    constructor
    · intro same
      have lengths := congrArg List.length same
      rw [List.length_map, List.length_map] at lengths
      exact trimBy_eq_self_of_length isSpace lengths.ge
    · intro same
      rw [same]

/-- Capitals, dots in front and a blank entry do no harm. -/
theorem tidy_normalized : Normalized .ascii [lit "..TXT", lit "md", lit "  "] := by
  refine ((@extensions_normalized_iff bareEnviron ascii_laws).1 _).mpr fun extension member => ?_
  have tidy : ∀ extension ∈ [lit "..TXT", lit "md", lit "  "], strip extension ≠ [] →
      withoutDots extension ≠ [] ∧ strip (withoutDots extension) = withoutDots extension := by
    decide +kernel
  exact tidy extension member

/-- A single dot is stored as an empty entry, which makes a key without an extension inline
and is gone when the list is saved again; an entry with a blank in front matches no key. -/
theorem dot_stored_empty :
    (¬ Normalized .ascii [lit "."] ∧ ¬ Normalized .ascii [lit " txt"]) ∧
      normalizeExtensions bareEnviron "upload_inline_extensions" [.str (lit ".")] = .ok [.str []] ∧
      normalizeExtensions bareEnviron "upload_inline_extensions" [.str []] = .ok [] ∧
      inlineDisposition .ascii [(lit "upload_inline_extensions", .arr [.str []])] (lit "README") =
        .ok (some (lit "inline")) ∧
      ¬ Submitted .ascii [lit "."] (lit "README") ∧
      normalizeExtensions bareEnviron "upload_inline_extensions" [.str (lit " txt")] =
        .ok [.str (lit " txt")] ∧
      inlineDisposition .ascii [(lit "upload_inline_extensions", .arr [.str (lit " txt")])]
        (lit "a.txt") = .ok none ∧
      Submitted .ascii [lit " txt"] (lit "a.txt") := by
  refine ⟨⟨fun normal => ?_, fun normal => ?_⟩, by rfl, by rfl, by rfl,
    fun submitted => submitted.1 (by rfl), by rfl, by rfl,
    by decide +kernel, lit " txt", by simp, by decide +kernel, by rfl⟩
  · exact absurd normal.again (by decide +kernel)
  · have stored : lit " txt" ∈ storedExtensions .ascii [lit " txt"] := by decide +kernel
    exact absurd (normal.clean _ stored).trimmed (by decide +kernel)

end Examples

end S3Manager.Web
