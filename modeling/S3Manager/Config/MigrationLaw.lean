import S3Manager.Config.Migrate

/-! What `_migrate_config` makes of any stored config: what it keeps, what it adds, what
it drops, and when a config is migrated as a whole. -/

set_option autoImplicit false

namespace S3Manager.Config

open Python Library

section Fields

variable {environ : Environ} {fields : List (String × Result Json)} {state after : Dict × Bool}

theorem addMissing_ok {field : String × Result Json} (added : addMissing field state = .ok after) :
    after = state ∨ dictHas state.1 field.1 = false ∧
      ∃ value, field.2 = .ok value ∧ after = (dictSet state.1 field.1 value, true) := by
  unfold addMissing at added
  split_ifs at added with present
  · exact .inl (Except.ok.inj added).symm
  · cases found : field.2 with
    | error exc =>
        rw [found] at added
        cases added
    | ok value =>
        rw [found] at added
        exact .inr ⟨by simpa using present, value, rfl, (Except.ok.inj added).symm⟩

/-- What is there keeps its value. -/
theorem addAll_keeps {key : Str} {value : Json} (added : addAll fields state = .ok after)
    (found : Assoc.get? state.1 key = some value) : Assoc.get? after.1 key = some value := by
  induction fields generalizing state with
  | nil =>
      obtain rfl := Except.ok.inj added
      exact found
  | cons field rest ih =>
      obtain ⟨next, first, later⟩ := bind_eq_ok_iff.mp added
      refine ih later ?_
      obtain rfl | ⟨missing, new, -, rfl⟩ := addMissing_ok first
      · exact found
      · have different : key ≠ lit field.1 := by
          rintro rfl
          simp [dictHas, Assoc.contains, found] at missing
        exact (Assoc.get?_set_ne _ new different).trans found

/-- Only the fields of the list are added. -/
theorem addAll_adds {key : String} (added : addAll fields state = .ok after)
    (other : ∀ field ∈ fields, lit key ≠ lit field.1) :
    Assoc.get? after.1 (lit key) = Assoc.get? state.1 (lit key) := by
  induction fields generalizing state with
  | nil => rw [Except.ok.inj added]
  | cons field rest ih =>
      obtain ⟨next, first, later⟩ := bind_eq_ok_iff.mp added
      refine (ih later fun field member => other field (List.mem_cons_of_mem _ member)).trans ?_
      obtain rfl | ⟨-, new, -, rfl⟩ := addMissing_ok first
      · rfl
      · exact Assoc.get?_set_ne _ new (other field List.mem_cons_self)

/-- A value was there before, or it is that of a field. -/
theorem addAll_source {key : Str} {value : Json} (added : addAll fields state = .ok after)
    (found : Assoc.get? after.1 key = some value) :
    Assoc.get? state.1 key = some value ∨
      ∃ field ∈ fields, lit field.1 = key ∧ field.2 = .ok value := by
  induction fields generalizing state with
  | nil =>
      obtain rfl := Except.ok.inj added
      exact .inl found
  | cons field rest ih =>
      obtain ⟨next, first, later⟩ := bind_eq_ok_iff.mp added
      obtain before | ⟨source, member, same, default⟩ := ih later
      · obtain rfl | ⟨-, new, given, rfl⟩ := addMissing_ok first
        · exact .inl before
        · by_cases same : key = lit field.1
          · subst same
            rw [dictSet, Assoc.get?_set_self] at before
            exact .inr ⟨field, List.mem_cons_self, rfl, given.trans (congrArg _ (Option.some.inj before))⟩
          · exact .inl ((Assoc.get?_set_ne _ new same).symm.trans before)
      · exact .inr ⟨source, List.mem_cons_of_mem _ member, same, default⟩

end Fields

section Law

/-- The numeric environment variables that `_migrate_config` reads. -/
def numericVariables : List String :=
  ["MAX_FILE_SIZE", "MAX_CLIENT_LOAD", "PRESIGNED_URL_DEFAULT_TTL", "PRESIGNED_URL_MAX_TTL"]

def Environ.Numeric (environ : Environ) : Prop :=
  ∀ name ∈ numericVariables, ∀ text, environ.getenv (lit name) = some text →
    (intOfStr environ.unicode text).isSome = true

def legacyKeys : List String := ["auto_inline_extensions", "_auto_inline_seeded"]

def extensionKeys : List String := ["preview_text_extensions", "upload_inline_extensions"]

variable (environ : Environ) (config : Dict)

/-- Each key that the migration is responsible for. -/
def managedKeys : List String :=
  (limitFields environ).map Prod.fst ++ extensionKeys ++ (serverFields environ).map Prod.fst

/-- The migration of a config as a whole. -/
structure MigrationLaw (migrated : Dict) : Prop where
  again : migrateConfig environ migrated = .ok (migrated, false)
  kept : ∀ key value, (∀ legacy ∈ legacyKeys, key ≠ lit legacy) →
    Assoc.get? config key = some value → Assoc.get? migrated key = some value
  complete : ∀ key ∈ managedKeys environ, dictHas migrated key = true
  gone : ∀ legacy ∈ legacyKeys, dictHas migrated legacy = false
  union : dictHas config "upload_inline_extensions" = false → ∀ legacy,
    legacyList config = some legacy → ∃ items,
      dictGet migrated "upload_inline_extensions" = .arr items ∧ (∀ item ∈ legacy, item ∈ items) ∧
        ∀ item ∈ defaultUploadInlineExtensions, .str (lit item) ∈ items

variable {environ config}

theorem Environ.Numeric.int (numeric : environ.Numeric) {name : String} (default : Int)
    (member : name ∈ numericVariables) : ∃ value, environ.int name default = .ok value := by
  unfold Environ.int
  cases found : environ.getenv (lit name) with
  | none => exact ⟨_, rfl⟩
  | some text =>
      obtain ⟨number, read⟩ := Option.isSome_iff_exists.mp (numeric name member text found)
      exact ⟨.int number, by simp [pyInt, read, Except.map]⟩

theorem migrate_numeric (numeric : environ.Numeric) (config : Dict) :
    ∃ migrated modified, migrateConfig environ config = .ok (migrated, modified) := by
  refine migrateConfig_succeeds config ?_ ?_
  · simp only [limitFields, List.forall_mem_cons, List.not_mem_nil, false_imp_iff, implies_true,
      and_true]
    exact ⟨⟨_, rfl⟩, numeric.int _ (by decide), numeric.int _ (by decide)⟩
  · simp only [serverFields, List.forall_mem_cons, List.not_mem_nil, false_imp_iff, implies_true,
      and_true]
    refine ⟨⟨_, rfl⟩, ⟨_, rfl⟩, ⟨_, rfl⟩, ⟨_, rfl⟩, ⟨_, rfl⟩, ⟨_, rfl⟩, ⟨_, rfl⟩, ⟨_, rfl⟩, ⟨_, rfl⟩,
      ⟨_, rfl⟩, ⟨_, rfl⟩, ⟨_, rfl⟩, ⟨_, rfl⟩, numeric.int _ (by decide), numeric.int _ (by decide)⟩

theorem get?_setDefault_of_present {key : String} {other : Str} {value found : Json}
    (present : Assoc.get? config other = some found) :
    Assoc.get? (setDefault config key value) other = some found := by
  unfold setDefault
  split_ifs with has
  · exact present
  · have different : other ≠ lit key := by
      rintro rfl
      simp [dictHas, Assoc.contains, present] at has
    exact (Assoc.get?_set_ne _ value different).trans present

theorem get?_setDefault_self {key : String} (value : Json) (missing : dictHas config key = false) :
    Assoc.get? (setDefault config key value) (lit key) = some value := by
  rw [setDefault, missing]
  exact Assoc.get?_set_self ..

variable {state : Dict × Bool}

theorem split_keeps {key : Str} {value : Json} (other : ∀ legacy ∈ legacyKeys, key ≠ lit legacy)
    (found : Assoc.get? state.1 key = some value) :
    Assoc.get? (splitExtensions state).1 key = some value := by
  unfold splitExtensions
  split_ifs with marked
  · exact found
  · have different : key ≠ lit "preview_text_extensions" := by
      rintro rfl
      simp [dictHas, Assoc.contains, found] at marked
    dsimp only
    rw [Assoc.get?_erase_ne _ (other "_auto_inline_seeded" (by decide)),
      Assoc.get?_erase_ne _ (other "auto_inline_extensions" (by decide))]
    exact get?_setDefault_of_present ((Assoc.get?_set_ne _ _ different).trans found)

/-- Without the marker the legacy keys go, and the upload list takes over the legacy one. -/
theorem split_fresh (fresh : dictHas state.1 "preview_text_extensions" = false) :
    (∀ legacy ∈ legacyKeys, Assoc.get? (splitExtensions state).1 (lit legacy) = none) ∧
      dictHas (splitExtensions state).1 "upload_inline_extensions" = true ∧
      (dictHas state.1 "upload_inline_extensions" = false → ∀ legacy,
        legacyList state.1 = some legacy →
          Assoc.get? (splitExtensions state).1 (lit "upload_inline_extensions") =
            some (withInlineDefaults legacy)) := by
  have upload (config : Dict) (value : Json) :
      Assoc.get? (Assoc.erase (Assoc.erase (setDefault config "upload_inline_extensions" value)
          (lit "auto_inline_extensions")) (lit "_auto_inline_seeded"))
        (lit "upload_inline_extensions") =
      Assoc.get? (setDefault config "upload_inline_extensions" value)
        (lit "upload_inline_extensions") := by
    rw [Assoc.get?_erase_ne _ (by decide), Assoc.get?_erase_ne _ (by decide)]
  rw [splitExtensions, fresh]
  simp only [Bool.false_eq_true, if_false]
  refine ⟨?_, ?_, fun missing legacy list => ?_⟩
  · simp only [legacyKeys, List.forall_mem_cons, List.not_mem_nil, false_imp_iff, implies_true,
      and_true]
    refine ⟨?_, Assoc.get?_erase_self ..⟩
    rw [Assoc.get?_erase_ne _ (by decide)]
    exact Assoc.get?_erase_self ..
  · refine dictHas_erase (by decide) (dictHas_erase (by decide) ?_)
    unfold setDefault
    split_ifs with has
    · exact has
    · exact dictHas_set_self ..
  · rw [upload, list]
    have absent : dictHas (dictSet state.1 "preview_text_extensions"
        ((Option.map Json.arr (some legacy)).getD (stringList defaultPreviewTextExtensions)))
        "upload_inline_extensions" = false := by
      rw [dictHas, Assoc.contains, dictSet, Assoc.get?_set_ne _ _ (by decide)]
      exact missing
    exact get?_setDefault_self _ absent

theorem split_marked (marked : dictHas state.1 "preview_text_extensions" = true) :
    splitExtensions state = state := by
  rw [splitExtensions, if_pos marked]

/-- The three stages of a migration. -/
theorem migrate_stages {migrated : Dict} {modified : Bool}
    (result : migrateConfig environ config = .ok (migrated, modified)) :
    ∃ limited, addAll (limitFields environ) (config, false) = .ok limited ∧
      addAll (serverFields environ) (splitExtensions limited) = .ok (migrated, modified) := by
  obtain ⟨limited, first, last⟩ := bind_eq_ok_iff.mp result
  exact ⟨limited, first, last⟩

/-- Neither list of fields has an extension list or a legacy key. -/
theorem fields_not_extensions :
    (∀ key ∈ extensionKeys ++ legacyKeys, ∀ field ∈ limitFields environ, lit key ≠ lit field.1) ∧
      ∀ key ∈ extensionKeys ++ legacyKeys, ∀ field ∈ serverFields environ,
        lit key ≠ lit field.1 := by
  have limits : ∀ key ∈ extensionKeys ++ legacyKeys,
      ∀ name ∈ ["enable_lazy_loading", "max_file_size", "max_client_load"],
        lit key ≠ lit name := by
    decide
  have server : ∀ key ∈ extensionKeys ++ legacyKeys,
      ∀ name ∈ ["password_min_length", "password_min_uppercase", "password_min_lowercase",
        "password_min_digits", "password_min_special", "mcp_enabled", "mcp_disable_writes",
        "mcp_text_extensions", "mcp_global_max_read_bytes", "mcp_summary_max_keys",
        "mcp_summary_prefix_scan_pages", "mcp_list_page_size", "mcp_list_max_page_size",
        "presigned_url_default_ttl", "presigned_url_max_ttl"], lit key ≠ lit name := by
    decide
  exact ⟨fun key member field listed => limits key member _ (List.mem_map_of_mem listed),
    fun key member field listed => server key member _ (List.mem_map_of_mem listed)⟩

/-- The first stage leaves the extension lists and the legacy keys as they are. -/
theorem limited_extension {limited : Dict × Bool} {key : String}
    (added : addAll (limitFields environ) (config, false) = .ok limited)
    (member : key ∈ extensionKeys ++ legacyKeys) :
    Assoc.get? limited.1 (lit key) = Assoc.get? config (lit key) :=
  addAll_adds added (fields_not_extensions.1 key member)

theorem migrate_kept {migrated : Dict} {modified : Bool} {key : Str} {value : Json}
    (result : migrateConfig environ config = .ok (migrated, modified))
    (other : ∀ legacy ∈ legacyKeys, key ≠ lit legacy)
    (found : Assoc.get? config key = some value) : Assoc.get? migrated key = some value := by
  obtain ⟨limited, first, last⟩ := migrate_stages result
  exact addAll_keeps last (split_keeps other (addAll_keeps first found))

theorem get?_setDefault_ne {key : String} {other : Str} (value : Json)
    (different : other ≠ lit key) :
    Assoc.get? (setDefault config key value) other = Assoc.get? config other := by
  unfold setDefault
  split_ifs with has
  · rfl
  · exact Assoc.get?_set_ne _ value different

/-- The split changes no key but those of the extension lists. -/
theorem split_other {key : Str} (other : ∀ name ∈ extensionKeys ++ legacyKeys, key ≠ lit name) :
    Assoc.get? (splitExtensions state).1 key = Assoc.get? state.1 key := by
  unfold splitExtensions
  split_ifs with marked
  · rfl
  · dsimp only
    rw [Assoc.get?_erase_ne _ (other "_auto_inline_seeded" (by decide)),
      Assoc.get?_erase_ne _ (other "auto_inline_extensions" (by decide)),
      get?_setDefault_ne _ (other "upload_inline_extensions" (by decide))]
    exact Assoc.get?_set_ne _ _ (other "preview_text_extensions" (by decide))

/-- A value outside the extension lists was there before, or it is a default. -/
theorem migrate_source {migrated : Dict} {modified : Bool} {key : Str} {value : Json}
    (result : migrateConfig environ config = .ok (migrated, modified))
    (other : ∀ name ∈ extensionKeys ++ legacyKeys, key ≠ lit name)
    (found : Assoc.get? migrated key = some value) :
    Assoc.get? config key = some value ∨
      ∃ field ∈ limitFields environ ++ serverFields environ,
        lit field.1 = key ∧ field.2 = .ok value := by
  obtain ⟨limited, first, last⟩ := migrate_stages result
  obtain before | ⟨field, member, same, default⟩ := addAll_source last found
  · rw [split_other other] at before
    obtain early | ⟨field, member, same, default⟩ := addAll_source first before
    · exact .inl early
    · exact .inr ⟨field, List.mem_append_left _ member, same, default⟩
  · exact .inr ⟨field, List.mem_append_right _ member, same, default⟩

/-- A migrated config has all its keys but, maybe, the upload list. -/
theorem migrate_managed {migrated : Dict} {modified : Bool}
    (result : migrateConfig environ config = .ok (migrated, modified))
    (upload : dictHas migrated "upload_inline_extensions" = true) :
    ∀ key ∈ managedKeys environ, dictHas migrated key = true := by
  obtain ⟨⟨limits, preview, server⟩, -⟩ := migrateConfig_ok result
  intro key member
  simp only [managedKeys, extensionKeys, List.mem_append, List.mem_cons, List.not_mem_nil,
    or_false] at member
  obtain (limit | rfl | rfl) | own := member
  · obtain ⟨field, listed, rfl⟩ := List.mem_map.mp limit
    exact limits field listed
  · exact preview
  · exact upload
  · obtain ⟨field, listed, rfl⟩ := List.mem_map.mp own
    exact server field listed

theorem mem_withInlineDefaults (legacy : List Json) : ∃ items, withInlineDefaults legacy = .arr items ∧
    (∀ item ∈ legacy, item ∈ items) ∧
      ∀ item ∈ defaultUploadInlineExtensions, .str (lit item) ∈ items := by
  refine ⟨_, rfl, fun item member => List.mem_append_left _ member, fun item member => ?_⟩
  by_cases old : Json.str (lit item) ∈ legacy
  · exact List.mem_append_left _ old
  · refine List.mem_append_right _ (List.mem_filter.mpr ⟨List.mem_map_of_mem member, ?_⟩)
    simpa using old

/-- The first stage keeps what a legacy list is read as. -/
theorem limited_legacyList {limited : Dict × Bool}
    (added : addAll (limitFields environ) (config, false) = .ok limited) :
    legacyList limited.1 = legacyList config := by
  rw [legacyList, legacyList, dictGet, dictGet, limited_extension added (by decide)]

/-- Every migration stands and keeps what was there. The config is migrated as a whole
exactly when it had no list of previews before, or had the list of uploads too and no
legacy key. -/
theorem migration_law_iff (numeric : environ.Numeric) (config : Dict) :
    ∃ migrated modified, migrateConfig environ config = .ok (migrated, modified) ∧
      migrateConfig environ migrated = .ok (migrated, false) ∧
      (∀ key value, (∀ legacy ∈ legacyKeys, key ≠ lit legacy) →
        Assoc.get? config key = some value → Assoc.get? migrated key = some value) ∧
      (MigrationLaw environ config migrated ↔
        dictHas config "preview_text_extensions" = false ∨
          dictHas config "upload_inline_extensions" = true ∧
            ∀ legacy ∈ legacyKeys, dictHas config legacy = false) := by
  obtain ⟨migrated, modified, result⟩ := migrate_numeric numeric config
  refine ⟨migrated, modified, result, migrateConfig_again result, fun key value other found =>
    migrate_kept result other found, ?_⟩
  obtain ⟨limited, first, last⟩ := migrate_stages result
  have lastly {key : String} (member : key ∈ extensionKeys ++ legacyKeys) :
      Assoc.get? migrated (lit key) = Assoc.get? (splitExtensions limited).1 (lit key) :=
    addAll_adds last (fields_not_extensions.2 key member)
  have marker : dictHas limited.1 "preview_text_extensions" =
      dictHas config "preview_text_extensions" := by
    rw [dictHas, dictHas, Assoc.contains, Assoc.contains, limited_extension first (by decide)]
  -- With the marker, the extension lists and the legacy keys stay as they were.
  have unsplit (marked : dictHas config "preview_text_extensions" = true) {key : String}
      (member : key ∈ extensionKeys ++ legacyKeys) :
      Assoc.get? migrated (lit key) = Assoc.get? config (lit key) := by
    rw [lastly member, split_marked (marker.trans marked), limited_extension first member]
  constructor
  · intro law
    cases marked : dictHas config "preview_text_extensions" with
    | false => exact .inl rfl
    | true =>
        refine .inr ⟨?_, fun legacy member => ?_⟩
        · have upload := law.complete "upload_inline_extensions" (by simp [managedKeys, extensionKeys])
          rwa [dictHas, Assoc.contains, unsplit marked (by decide)] at upload
        · have gone := law.gone legacy member
          rwa [dictHas, Assoc.contains, unsplit marked (List.mem_append_right _ member)] at gone
  · intro condition
    have kept := fun key value other found => @migrate_kept environ config migrated modified key
      value result other found
    cases marked : dictHas config "preview_text_extensions" with
    | true =>
        obtain absurdly | ⟨upload, clean⟩ := condition
        · rw [marked] at absurdly
          cases absurdly
        · have uploaded : dictHas migrated "upload_inline_extensions" = true := by
            rwa [dictHas, Assoc.contains, unsplit marked (by decide)]
          refine ⟨migrateConfig_again result, kept, migrate_managed result uploaded,
            fun legacy member => ?_, fun missing => absurd upload (by simp [missing])⟩
          rw [dictHas, Assoc.contains, unsplit marked (List.mem_append_right _ member)]
          exact clean legacy member
    | false =>
        obtain ⟨gone, upload, union⟩ := split_fresh (marker.trans marked)
        have uploaded : dictHas migrated "upload_inline_extensions" = true := by
          rwa [dictHas, Assoc.contains, lastly (by decide)]
        refine ⟨migrateConfig_again result, kept, migrate_managed result uploaded,
          fun legacy member => ?_, fun missing legacy list => ?_⟩
        · rw [dictHas, Assoc.contains, lastly (List.mem_append_right _ member), gone legacy member]
          rfl
        · obtain ⟨items, shape, members⟩ := mem_withInlineDefaults legacy
          have absent : dictHas limited.1 "upload_inline_extensions" = false := by
            rwa [dictHas, Assoc.contains, limited_extension first (by decide)]
          have found := union absent legacy ((limited_legacyList first).trans list)
          refine ⟨items, ?_, members⟩
          rw [dictGet, lastly (by decide), found, shape]
          rfl

theorem bareEnviron_numeric : bareEnviron.Numeric :=
  fun _ _ _ found => absurd found (by simp [bareEnviron])

/-- A hand-edited config that has the new list of previews beside the legacy list. -/
def halfMigrated : Dict :=
  [(lit "preview_text_extensions", .arr [.str (lit "txt")]),
    (lit "auto_inline_extensions", .arr [.str (lit "svg")])]

/-- A config of the time before the two lists, with a legacy list that knows an own extension. -/
def legacyConfig : Dict :=
  [(lit "max_client_load", .int 500),
    (lit "auto_inline_extensions", .arr [.str (lit "svg"), .str (lit "log")]),
    (lit "_auto_inline_seeded", .bool true)]

def sizedEnviron : Environ :=
  ⟨Unicode.ascii, fun name => if name = lit "MAX_FILE_SIZE" then some (lit "2048") else none⟩

theorem sizedEnviron_numeric : sizedEnviron.Numeric := by
  intro name _ text found
  unfold sizedEnviron at found
  dsimp only at found
  split_ifs at found
  obtain rfl := Option.some.inj found
  decide

theorem migration_law_legacy :
    ∃ migrated modified, migrateConfig sizedEnviron legacyConfig = .ok (migrated, modified) ∧
      MigrationLaw sizedEnviron legacyConfig migrated := by
  obtain ⟨migrated, modified, result, -, -, whole⟩ :=
    migration_law_iff sizedEnviron_numeric legacyConfig
  exact ⟨migrated, modified, result, whole.mpr (.inl (by decide))⟩

/-- The half-migrated config stays without the list of uploads. -/
theorem half_migrated_stays :
    ¬ ∀ (environ : Environ) (config : Dict), environ.Numeric → ∃ migrated modified,
      migrateConfig environ config = .ok (migrated, modified) ∧
        MigrationLaw environ config migrated := by
  intro always
  obtain ⟨migrated, modified, result, law⟩ := always bareEnviron halfMigrated bareEnviron_numeric
  have gone := law.gone "auto_inline_extensions" (by decide)
  obtain ⟨limited, first, last⟩ := migrate_stages result
  have marked : dictHas limited.1 "preview_text_extensions" = true := by
    rw [dictHas, Assoc.contains, limited_extension first (by decide)]
    rfl
  have left : Assoc.get? migrated (lit "auto_inline_extensions") =
      some (.arr [.str (lit "svg")]) := by
    rw [addAll_adds last (fields_not_extensions.2 _ (by decide)), split_marked marked,
      limited_extension first (by decide)]
    rfl
  simp [dictHas, Assoc.contains, left] at gone

end Law

end S3Manager.Config
