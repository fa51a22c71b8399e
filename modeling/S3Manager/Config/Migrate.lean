import S3Manager.Python.Json

/-! The migration of `config.py`: fields that a configuration lacks are added with
their defaults when it is loaded. -/

set_option autoImplicit false

namespace S3Manager.Config

open Python Library

/-- What `os.getenv` reads. -/
structure Environ where
  unicode : Unicode
  getenv : Str → Option Str

/-- `int(os.getenv(name, str(default)))` -/
def Environ.int (environ : Environ) (name : String) (default : Int) : Result Json :=
  match environ.getenv (lit name) with
  | none => .ok (.int default)
  | some text => (pyInt environ.unicode (.str text)).map .int

/-- `os.getenv(name, default).lower() == "true"` -/
def Environ.isTrue (environ : Environ) (name default : String) : Bool :=
  environ.unicode.lower ((environ.getenv (lit name)).getD (lit default)) == lit "true"

section Constants

def defaultMaxFileSize : Int := 104857600

def defaultMaxClientLoad : Int := 10000

def defaultPresignedUrlDefaultTtl : Int := 3600

def defaultPresignedUrlMaxTtl : Int := 604800

def stringList (items : List String) : Json :=
  .arr (items.map fun item => .str (lit item))

def defaultPreviewTextExtensions : List String := ["txt", "md", "json", "yaml", "yml", "log", "csv"]

def defaultUploadInlineExtensions : List String := ["pdf", "png", "jpg", "jpeg", "gif", "webp"]

end Constants

section Migration

variable (environ : Environ)

/-- `if key not in config: config[key] = value; config_modified = True` -/
def addMissing (field : String × Result Json) (state : Dict × Bool) : Result (Dict × Bool) :=
  if dictHas state.1 field.1 then .ok state
  else field.2.map fun value => (dictSet state.1 field.1 value, true)

def addAll : List (String × Result Json) → Dict × Bool → Result (Dict × Bool)
  | [], state => .ok state
  | field :: rest, state => addMissing field state >>= addAll rest

def limitFields : List (String × Result Json) :=
  [("enable_lazy_loading", .ok (.bool (environ.isTrue "ENABLE_LAZY_LOADING" "true"))),
    ("max_file_size", environ.int "MAX_FILE_SIZE" defaultMaxFileSize),
    ("max_client_load", environ.int "MAX_CLIENT_LOAD" defaultMaxClientLoad)]

/-- The union of a legacy list with the defaults that it lacks. -/
def withInlineDefaults (legacy : List Json) : Json :=
  .arr (legacy ++ (defaultUploadInlineExtensions.map fun item => Json.str (lit item)).filter
    fun item => !legacy.contains item)

def setDefault (config : Dict) (key : String) (value : Json) : Dict :=
  if dictHas config key then config else dictSet config key value

/-- `list(legacy) if isinstance(legacy, list) else None` -/
def legacyList (config : Dict) : Option (List Json) :=
  match dictGet config "auto_inline_extensions" with
  | .arr items => some items
  | _ => none

/-- The split of `auto_inline_extensions` into two lists. -/
def splitExtensions (state : Dict × Bool) : Dict × Bool :=
  if dictHas state.1 "preview_text_extensions" then state
  else
    let legacy := legacyList state.1
    let config := dictSet state.1 "preview_text_extensions"
      ((legacy.map Json.arr).getD (stringList defaultPreviewTextExtensions))
    let config := setDefault config "upload_inline_extensions"
      ((legacy.map withInlineDefaults).getD (stringList defaultUploadInlineExtensions))
    (Assoc.erase (Assoc.erase config (lit "auto_inline_extensions")) (lit "_auto_inline_seeded"),
      true)

def serverFields : List (String × Result Json) :=
  [("password_min_length", .ok (.int 8)), ("password_min_uppercase", .ok (.int 1)),
    ("password_min_lowercase", .ok (.int 1)), ("password_min_digits", .ok (.int 1)),
    ("password_min_special", .ok (.int 0)), ("mcp_enabled", .ok (.bool true)),
    ("mcp_disable_writes", .ok (.bool false)), ("mcp_text_extensions", .ok (.arr [])),
    ("mcp_global_max_read_bytes", .ok (.int 10485760)),
    ("mcp_summary_max_keys", .ok (.int 50000)),
    ("mcp_summary_prefix_scan_pages", .ok (.int 20)), ("mcp_list_page_size", .ok (.int 1000)),
    ("mcp_list_max_page_size", .ok (.int 10000)),
    ("presigned_url_default_ttl",
      environ.int "PRESIGNED_URL_DEFAULT_TTL" defaultPresignedUrlDefaultTtl),
    ("presigned_url_max_ttl", environ.int "PRESIGNED_URL_MAX_TTL" defaultPresignedUrlMaxTtl)]

/-- `_migrate_config`: the migrated config, and whether anything was added. -/
def migrateConfig (config : Dict) : Result (Dict × Bool) := do
  let state ← addAll (limitFields environ) (config, false)
  addAll (serverFields environ) (splitExtensions state)

end Migration

section Laws

variable {environ : Environ}

/-- The fields whose absence makes a migration. -/
def Complete (config : Dict) : Prop :=
  (∀ field ∈ limitFields environ, dictHas config field.1 = true) ∧
    dictHas config "preview_text_extensions" = true ∧
    ∀ field ∈ serverFields environ, dictHas config field.1 = true

theorem dictHas_set_self (config : Dict) (key : String) (value : Json) :
    dictHas (dictSet config key value) key = true := by
  simp [dictHas, dictSet, Assoc.contains]

theorem dictHas_set {config : Dict} {key other : String} (value : Json)
    (present : dictHas config other = true) : dictHas (dictSet config key value) other = true := by
  by_cases same : lit other = lit key
  · simp [dictHas, dictSet, Assoc.contains, same]
  · simpa [dictHas, dictSet, Assoc.contains, Assoc.get?_set_ne _ value same] using present

theorem dictHas_erase {config : Dict} {other : String} {key : Str} (different : lit other ≠ key)
    (present : dictHas config other = true) : dictHas (Assoc.erase config key) other = true := by
  simpa [dictHas, Assoc.contains, Assoc.get?_erase_ne _ different] using present

theorem dictHas_setDefault {config : Dict} {key other : String} (value : Json)
    (present : dictHas config other = true) :
    dictHas (setDefault config key value) other = true := by
  unfold setDefault
  split
  · exact present
  · exact dictHas_set value present

theorem addAll_present {fields : List (String × Result Json)} {state : Dict × Bool}
    (present : ∀ field ∈ fields, dictHas state.1 field.1 = true) : addAll fields state = .ok state := by
  induction fields with
  | nil => rfl
  | cons field rest ih =>
      have here : addMissing field state = .ok state := by
        simp [addMissing, present field List.mem_cons_self]
      rw [addAll, here]
      exact ih fun later member => present later (List.mem_cons_of_mem _ member)

/-- Afterwards all the fields are there, and whatever was there before; without a
change nothing was added. -/
theorem addAll_ok {fields : List (String × Result Json)} {state after : Dict × Bool}
    (added : addAll fields state = .ok after) :
    (∀ field ∈ fields, dictHas after.1 field.1 = true) ∧
      (∀ key, dictHas state.1 key = true → dictHas after.1 key = true) ∧
      (after.2 = false → after = state) := by
  induction fields generalizing state with
  | nil =>
      obtain rfl := Except.ok.inj added
      exact ⟨by simp, fun _ present => present, fun _ => rfl⟩
  | cons field rest ih =>
      obtain ⟨next, first, later⟩ := bind_eq_ok_iff.mp added
      obtain ⟨all, kept, unchanged⟩ := ih later
      have step : dictHas next.1 field.1 = true ∧
          (∀ key, dictHas state.1 key = true → dictHas next.1 key = true) ∧
          (next.2 = false → next = state) := by
        unfold addMissing at first
        split at first
        · next present =>
            obtain rfl := Except.ok.inj first
            exact ⟨present, fun _ => id, fun _ => rfl⟩
        · cases value : field.2 with
          | error exc => simp [value, Except.map] at first
          | ok found =>
              rw [value] at first
              obtain rfl := Except.ok.inj first
              exact ⟨dictHas_set_self _ _ _, fun _ => dictHas_set found, by simp⟩
      obtain ⟨here, keptFirst, unchangedFirst⟩ := step
      refine ⟨fun other member => ?_, fun key present => kept key (keptFirst key present),
        fun same => ?_⟩
      · obtain rfl | inRest := List.mem_cons.mp member
        · exact kept _ here
        · exact all other inRest
      · have last := unchanged same
        exact last.trans (unchangedFirst (last ▸ same))

theorem splitExtensions_keeps {state : Dict × Bool} {key : String}
    (legacy : lit key ≠ lit "auto_inline_extensions" ∧ lit key ≠ lit "_auto_inline_seeded")
    (present : dictHas state.1 key = true) : dictHas (splitExtensions state).1 key = true := by
  unfold splitExtensions
  split
  · exact present
  · refine dictHas_erase legacy.2 (dictHas_erase legacy.1 ?_)
    exact dictHas_setDefault _ (dictHas_set _ present)

theorem splitExtensions_marker (state : Dict × Bool) :
    dictHas (splitExtensions state).1 "preview_text_extensions" = true ∧
      ((splitExtensions state).2 = false → splitExtensions state = state) := by
  unfold splitExtensions
  split
  · next present => exact ⟨present, fun _ => rfl⟩
  · refine ⟨dictHas_erase (by decide) (dictHas_erase (by decide) ?_), by simp⟩
    exact dictHas_setDefault _ (dictHas_set_self _ _ _)

theorem migrateConfig_complete {config : Dict} (complete : @Complete environ config) :
    migrateConfig environ config = .ok (config, false) := by
  obtain ⟨limits, marker, server⟩ := complete
  have first : addAll (limitFields environ) (config, false) = .ok (config, false) :=
    addAll_present limits
  have split : splitExtensions (config, false) = (config, false) := by
    simp [splitExtensions, marker]
  rw [migrateConfig, first, result_bind_ok, split]
  exact addAll_present server

/-- A migrated config is complete, and a config without changes is the one that was
migrated. -/
theorem migrateConfig_ok {config migrated : Dict} {modified : Bool}
    (result : migrateConfig environ config = .ok (migrated, modified)) :
    @Complete environ migrated ∧ (modified = false → migrated = config) := by
  obtain ⟨state, first, last⟩ := bind_eq_ok_iff.mp result
  obtain ⟨limits, -, unchangedFirst⟩ := addAll_ok first
  obtain ⟨server, kept, unchangedLast⟩ := addAll_ok last
  obtain ⟨marker, unchangedSplit⟩ := splitExtensions_marker state
  refine ⟨⟨fun field member => kept _ (splitExtensions_keeps ?_ (limits field member)),
    kept _ marker, server⟩, fun same => ?_⟩
  · simp only [limitFields, List.mem_cons, List.not_mem_nil, or_false] at member
    obtain rfl | rfl | rfl := member <;>
      · dsimp only
        decide
  · have lastSame := unchangedLast same
    have splitSame := unchangedSplit ((congrArg Prod.snd lastSame).symm.trans same)
    have firstSame := unchangedFirst
      ((congrArg Prod.snd (lastSame.trans splitSame)).symm.trans same)
    exact congrArg Prod.fst (lastSame.trans (splitSame.trans firstSame))

theorem addAll_succeeds {fields : List (String × Result Json)} (state : Dict × Bool)
    (values : ∀ field ∈ fields, ∃ value, field.2 = .ok value) :
    ∃ after, addAll fields state = .ok after := by
  induction fields generalizing state with
  | nil => exact ⟨state, rfl⟩
  | cons field rest ih =>
      have first : ∃ next, addMissing field state = .ok next := by
        unfold addMissing
        split
        · exact ⟨_, rfl⟩
        · obtain ⟨value, found⟩ := values field List.mem_cons_self
          exact ⟨_, by rw [found]; rfl⟩
      obtain ⟨next, added⟩ := first
      rw [addAll, added]
      exact ih next fun later member => values later (List.mem_cons_of_mem _ member)

theorem migrateConfig_succeeds (config : Dict)
    (limits : ∀ field ∈ limitFields environ, ∃ value, field.2 = .ok value)
    (server : ∀ field ∈ serverFields environ, ∃ value, field.2 = .ok value) :
    ∃ migrated modified, migrateConfig environ config = .ok (migrated, modified) := by
  obtain ⟨state, first⟩ := addAll_succeeds (config, false) limits
  obtain ⟨after, last⟩ := addAll_succeeds (splitExtensions state) server
  exact ⟨after.1, after.2, bind_eq_ok_iff.mpr ⟨state, first, last⟩⟩

theorem migrateConfig_again {config migrated : Dict} {modified : Bool}
    (result : migrateConfig environ config = .ok (migrated, modified)) :
    migrateConfig environ migrated = .ok (migrated, false) :=
  migrateConfig_complete (migrateConfig_ok result).1

theorem complete_nonempty {config : Dict} (complete : @Complete environ config) : config ≠ [] := by
  rintro rfl
  have present := complete.2.1
  simp [dictHas, Assoc.contains] at present

/-- The config as the next load migrates it. -/
def migratedOf (environ : Environ) (config : Dict) : Dict :=
  match migrateConfig environ config with
  | .ok (migrated, _) => migrated
  | .error _ => config

theorem migratedOf_complete {config migrated : Dict} {modified : Bool}
    (result : migrateConfig environ config = .ok (migrated, modified)) :
    @Complete environ (migratedOf environ config) := by
  rw [migratedOf, result]
  exact (migrateConfig_ok result).1

/-- An environment without variables. -/
def bareEnviron : Environ := ⟨Unicode.ascii, fun _ => none⟩

theorem migrate_bare (config : Dict) :
    ∃ migrated modified, migrateConfig bareEnviron config = .ok (migrated, modified) := by
  apply migrateConfig_succeeds
  · simp [limitFields, Environ.int, bareEnviron]
  · simp [serverFields, Environ.int, bareEnviron]

end Laws

end S3Manager.Config
