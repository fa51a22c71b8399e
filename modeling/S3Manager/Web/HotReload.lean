import S3Manager.Config.MigrationLaw
import S3Manager.Config.Reload
import S3Manager.Web.ConfigLaws

/-! Config hot-reload, one call at a time: an operator replaces the file, the API saves,
and `load_config(force_reload=False)` compares modification times. -/

set_option autoImplicit false

namespace S3Manager.Web

open Python Access Config Library

section Machine

/-- The file, as it is mounted, and the two globals of `config.py`. -/
structure HotState where
  file : FileContent
  fileMtime : Int
  writable : Bool
  cache : Dict
  cacheMtime : Int

namespace HotState

variable (environ : Environ) (state : HotState)

/-- The state of a process that has just imported `config.py`. -/
def started (file : FileContent) (mtime : Int) (writable : Bool) : HotState :=
  ⟨file, mtime, writable, [], 0⟩

/-- `current_mtime > _config_mtime or not _config_cache` -/
def stale : Bool :=
  decide (state.cacheMtime < state.fileMtime) || state.cache.isEmpty

/-- `_save_config_internal`; `now` is the modification time that writing gives the file. -/
def saveConfig (config : Dict) (now : Int) : HotState :=
  { state with file := .json config, fileMtime := now, cache := config, cacheMtime := now }

/-- What the file holds, migrated. -/
def migratedFile : Result (Dict × Bool) := state.file.load >>= migrateConfig environ

/-- `load_config(force_reload=False)`. A migrated config goes back into the file, unless
the file is read-only. -/
def loadConfig (now : Int) : Result Dict × HotState :=
  if state.stale then
    match state.migratedFile environ with
    | .error exc => (.error exc, state)
    | .ok (config, modified) =>
        (.ok config,
          if modified && state.writable then state.saveConfig config now
          else { state with cache := config, cacheMtime := state.fileMtime })
  else (.ok state.cache, state)

end HotState

inductive HotAct where
  /-- The operator puts another file in the place of the config file. -/
  | replace (content : FileContent) (mtime : Int) (writable : Bool)
  | load (now : Int)
  /-- An accepted `POST /api/config`: its load and its save may each write the file. -/
  | save (body : Dict) (now later : Int)

/-- One call after another. A refused save has at most loaded the config. -/
inductive HotStep (environ : Environ) : HotState → HotAct → HotState → Prop where
  | replace {state : HotState} (content : FileContent) (mtime : Int) (writable : Bool) :
      HotStep environ state (.replace content mtime writable)
        { state with file := content, fileMtime := mtime, writable := writable }
  | load {state : HotState} (now : Int) :
      HotStep environ state (.load now) (state.loadConfig environ now).2
  | save {state : HotState} {current saved body : Dict} {isAdmin : Bool} (now later : Int) :
      (state.loadConfig environ now).1 = .ok current →
      updateConfig environ current isAdmin state.writable body = .ok saved →
      HotStep environ state (.save body now later)
        ((state.loadConfig environ now).2.saveConfig saved later)

/-- A call of `load_config` at this moment returns the migrated content of the file. -/
def Fresh (environ : Environ) (state : HotState) : Prop :=
  ∀ now, (state.loadConfig environ now).1 = (state.migratedFile environ).map Prod.fst

/-- The fields that `update_config` leaves out when the request does and they are null. -/
def nullableFields : List String :=
  ["presigned_url_default_ttl", "presigned_url_max_ttl", "password_min_length",
    "password_min_uppercase", "password_min_lowercase", "password_min_digits",
    "password_min_special"]

/-- The fields that a saved config always has. -/
def filledFields : List String :=
  ["enable_lazy_loading", "max_file_size", "max_client_load", "preview_text_extensions",
    "mcp_enabled", "mcp_disable_writes", "mcp_text_extensions", "mcp_global_max_read_bytes",
    "mcp_summary_max_keys", "mcp_summary_prefix_scan_pages", "mcp_list_page_size",
    "mcp_list_max_page_size"]

/-- A file is put in place with a later modification time than that of the cached config,
or migrates to the cached config; and a request sends the fields that are null in the file. -/
def Careful (environ : Environ) (state : HotState) : HotAct → Prop
  | .replace content mtime _ =>
      state.cache = [] ∨ state.cacheMtime < mtime ∨
        ∃ modified, content.load >>= migrateConfig environ = .ok (state.cache, modified)
  | .load _ => True
  | .save body _ _ => ∀ config, state.file.load = .ok config → ∀ key ∈ nullableFields,
      Assoc.get? config (lit key) = some .null → dictHas body key = true

end Machine

section Loads

variable {environ : Environ} {state : HotState}

theorem migratedFile_json {config : Dict} (file : state.file = .json config) :
    state.migratedFile environ = migrateConfig environ config := by
  rw [HotState.migratedFile, file]
  rfl

/-- A load is fresh when it reads the file, or the file still migrates to what is cached. -/
theorem fresh_iff : Fresh environ state ↔
    state.stale = true ∨ ∃ modified, state.migratedFile environ = .ok (state.cache, modified) := by
  unfold Fresh HotState.loadConfig
  cases stale : state.stale with
  | true =>
      refine ⟨fun _ => .inl rfl, fun _ now => ?_⟩
      cases state.migratedFile environ with
      | error exc => rfl
      | ok result => rfl
  | false =>
      simp only [Bool.false_eq_true, if_false, false_or, forall_const]
      cases state.migratedFile environ with
      | error exc => simp [Except.map]
      | ok result =>
          obtain ⟨config, modified⟩ := result
          simp [Except.map, eq_comm]

theorem fresh_of_saved {config : Dict} {now : Int} (complete : @Complete environ config) :
    Fresh environ (state.saveConfig config now) :=
  fresh_iff.mpr (.inr ⟨false, migrateConfig_complete complete⟩)

theorem fresh_load (fresh : Fresh environ state) (now : Int) :
    Fresh environ (state.loadConfig environ now).2 := by
  unfold HotState.loadConfig
  split_ifs with stale
  · cases result : state.migratedFile environ with
    | error exc => exact fresh
    | ok pair =>
        obtain ⟨config, modified⟩ := pair
        obtain ⟨loaded, -, migrated⟩ := bind_eq_ok_iff.mp result
        have complete := (migrateConfig_ok migrated).1
        dsimp only
        split_ifs with written
        · exact fresh_of_saved complete
        · exact fresh_iff.mpr (.inr ⟨modified, result⟩)
  · exact fresh

end Loads

section Saves

variable {environ : Environ} {current body saved : Dict} {isAdmin writable : Bool}

/-- A rule leaves a field set that was sent, or that it fills in itself. -/
theorem isSome_of_settles {rule : ConfigRule} {before after : Option Json}
    (settles : rule.Settles before after) :
    after.isSome = true ↔
      before.isSome = true ∨ ∃ value, rule.revise before = .ok (some value) := by
  obtain ⟨value, revised, rfl⟩ := settles
  rw [revised]
  cases value with
  | none => simp
  | some value => simp

theorem preservedOr_fills {key : String} {fallback : Result Json} {value : Option Json}
    (kept : preservedOr current key fallback = .ok value) : value.isSome = true := by
  unfold preservedOr at kept
  split at kept
  · obtain rfl := Except.ok.inj kept
    rfl
  · cases fallback with
    | error exc => cases kept
    | ok default =>
        obtain rfl := Except.ok.inj kept
        rfl

/-- Whether a field is null or missing in the current config. -/
theorem preservedIfSet_fills_iff {key : String} :
    (∃ value, preservedIfSet current key = .ok (some value)) ↔ dictGet current key ≠ .null := by
  unfold preservedIfSet
  cases dictGet current key <;> simp

theorem dictHas_iff_isSome {config : Dict} {key : String} :
    dictHas config key = true ↔ (Assoc.get? config (lit key)).isSome = true := Iff.rfl

/-- What an accepted save leaves of a field that it keeps only when it is set. -/
theorem nullable_kept {limits settled : Dict} {key : String}
    (accepted : Accepted environ current body limits settled saved) (member : key ∈ nullableFields) :
    dictHas saved key = true ↔ dictHas body key = true ∨ dictGet current key ≠ .null := by
  have kept (rule : ConfigRule) (own : rule.key = lit key)
      (missing : rule.revise none = preservedIfSet current key)
      (settles : rule.Settles (Assoc.get? body rule.key) (Assoc.get? saved rule.key)) :
      dictHas saved key = true ↔ dictHas body key = true ∨ dictGet current key ≠ .null := by
    rw [own] at settles
    rw [dictHas_iff_isSome, dictHas_iff_isSome, isSome_of_settles settles]
    cases sent : Assoc.get? body (lit key) with
    | none => rw [missing, preservedIfSet_fills_iff]
    | some value => simp
  have ttl (listed : ttlRule environ current key ∈ limitRules environ current) :
      dictHas saved key = true ↔ dictHas body key = true ∨ dictGet current key ≠ .null :=
    kept _ rfl rfl (accepted.limit listed)
  have password (listed : passwordRule environ current key ∈ serverRules environ current) :
      dictHas saved key = true ↔ dictHas body key = true ∨ dictGet current key ≠ .null :=
    kept _ rfl rfl (accepted.server listed)
  simp only [nullableFields, List.mem_cons, List.not_mem_nil, or_false] at member
  obtain rfl | rfl | rfl | rfl | rfl | rfl | rfl := member
  · exact ttl (@List.mem_of_getElem? _ _ 3 _ rfl)
  · exact ttl (@List.mem_of_getElem? _ _ 4 _ rfl)
  · exact password (@List.mem_of_getElem? _ _ 2 _ rfl)
  · exact password (@List.mem_of_getElem? _ _ 3 _ rfl)
  · exact password (@List.mem_of_getElem? _ _ 4 _ rfl)
  · exact password (@List.mem_of_getElem? _ _ 5 _ rfl)
  · exact password (@List.mem_of_getElem? _ _ 6 _ rfl)

theorem filled_kept {limits settled : Dict} {key : String}
    (accepted : Accepted environ current body limits settled saved) (member : key ∈ filledFields) :
    dictHas saved key = true := by
  have filled (rule : ConfigRule) (own : rule.key = lit key)
      (fills : ∀ value, rule.revise none = .ok value → value.isSome = true)
      (settles : rule.Settles (Assoc.get? body rule.key) (Assoc.get? saved rule.key)) :
      dictHas saved key = true := by
    rw [own] at settles
    rw [dictHas_iff_isSome, isSome_of_settles settles]
    obtain ⟨value, revised, -⟩ := settles
    cases sent : Assoc.get? body (lit key) with
    | some value => exact .inl rfl
    | none =>
        rw [sent] at revised
        obtain ⟨given, rfl⟩ := Option.isSome_iff_exists.mp (fills value revised)
        exact .inr ⟨given, revised⟩
  have mcp (accepts : Json → Bool) (detail : String)
      (listed : mcpRule current key accepts detail ∈ serverRules environ current) :
      dictHas saved key = true := by
    refine filled _ rfl (fun value revised => ?_) (accepted.server listed)
    obtain rfl := Except.ok.inj revised
    rfl
  simp only [filledFields, List.mem_cons, List.not_mem_nil, or_false] at member
  obtain rfl | rfl | rfl | rfl | rfl | rfl | rfl | rfl | rfl | rfl | rfl | rfl := member
  · exact filled _ rfl (fun _ => preservedOr_fills)
      (accepted.limit (@List.mem_of_getElem? _ _ 0 _ rfl))
  · exact filled _ rfl (fun _ => preservedOr_fills)
      (accepted.limit (@List.mem_of_getElem? _ _ 1 _ rfl))
  · exact filled _ rfl (fun _ => preservedOr_fills)
      (accepted.limit (@List.mem_of_getElem? _ _ 2 _ rfl))
  · exact filled _ rfl (fun _ => preservedOr_fills)
      (accepted.server (@List.mem_of_getElem? _ _ 0 _ rfl))
  · exact mcp _ _ (@List.mem_of_getElem? _ _ 7 _ rfl)
  · exact mcp _ _ (@List.mem_of_getElem? _ _ 8 _ rfl)
  · exact mcp _ _ (@List.mem_of_getElem? _ _ 9 _ rfl)
  · exact mcp _ _ (@List.mem_of_getElem? _ _ 10 _ rfl)
  · exact mcp _ _ (@List.mem_of_getElem? _ _ 11 _ rfl)
  · exact mcp _ _ (@List.mem_of_getElem? _ _ 12 _ rfl)
  · exact mcp _ _ (@List.mem_of_getElem? _ _ 13 _ rfl)
  · exact mcp _ _ (@List.mem_of_getElem? _ _ 14 _ rfl)

theorem serverFields_names (environ : Environ) : (serverFields environ).map Prod.fst =
    nullableFields.drop 2 ++ filledFields.drop 4 ++ nullableFields.take 2 := rfl

theorem nullable_listed {key : String} (member : key ∈ nullableFields) :
    key ∈ (serverFields environ).map Prod.fst := by
  have all : ∀ key ∈ nullableFields,
      key ∈ nullableFields.drop 2 ++ filledFields.drop 4 ++ nullableFields.take 2 := by
    decide
  rw [serverFields_names]
  exact all key member

/-- A saved config lacks at most fields that were null. -/
theorem saved_complete_iff {limits settled : Dict}
    (accepted : Accepted environ current body limits settled saved) :
    @Complete environ saved ↔ ∀ key ∈ nullableFields, dictHas saved key = true := by
  have limits : ∀ name ∈ (limitFields environ).map Prod.fst, name ∈ filledFields := by
    have names : (limitFields environ).map Prod.fst =
        ["enable_lazy_loading", "max_file_size", "max_client_load"] := rfl
    rw [names]
    decide
  have server : ∀ name ∈ (serverFields environ).map Prod.fst,
      name ∈ nullableFields ++ filledFields := by
    rw [serverFields_names]
    decide
  constructor
  · rintro ⟨-, -, all⟩ key member
    obtain ⟨field, own, rfl⟩ := List.mem_map.mp (@nullable_listed environ key member)
    exact all field own
  · intro set
    refine ⟨fun field own => filled_kept accepted (limits _ (List.mem_map_of_mem own)),
      filled_kept accepted (by decide), fun field own => ?_⟩
    obtain nullable | filled := List.mem_append.mp (server _ (List.mem_map_of_mem own))
    · exact set _ nullable
    · exact filled_kept accepted filled

theorem int_not_null {name : String} {default : Int} :
    environ.int name default ≠ .ok .null := by
  unfold Environ.int
  cases environ.getenv (lit name) with
  | none => simp
  | some text =>
      dsimp only
      cases pyInt environ.unicode (.str text) <;> simp [Except.map]

theorem default_not_null {field : String × Result Json}
    (member : field ∈ limitFields environ ++ serverFields environ) : field.2 ≠ .ok .null := by
  simp only [limitFields, serverFields, List.cons_append, List.nil_append, List.mem_cons,
    List.not_mem_nil, or_false] at member
  obtain rfl | rfl | rfl | rfl | rfl | rfl | rfl | rfl | rfl | rfl | rfl | rfl | rfl | rfl | rfl |
    rfl | rfl | rfl := member <;>
    first
      | exact int_not_null
      | exact fun same => by cases same

/-- A field is null in a migrated config only when it was in the file. -/
theorem migrated_null_iff {config : Dict} {modified : Bool} {key : String}
    (migrates : migrateConfig environ config = .ok (current, modified))
    (member : key ∈ nullableFields) :
    dictGet current key = .null ↔ Assoc.get? config (lit key) = some .null := by
  have apart : ∀ key ∈ nullableFields, ∀ name ∈ extensionKeys ++ legacyKeys,
      lit key ≠ lit name := by
    decide
  have other := apart key member
  constructor
  · intro null
    obtain ⟨field, own, rfl⟩ := List.mem_map.mp (@nullable_listed environ key member)
    have present := (migrateConfig_ok migrates).1.2.2 field own
    obtain ⟨value, found⟩ := Option.isSome_iff_exists.mp (dictHas_iff_isSome.mp present)
    have value_null : value = .null := by rwa [dictGet, found] at null
    subst value_null
    obtain before | ⟨source, listed, -, default⟩ := migrate_source migrates other found
    · exact before
    · exact absurd default (default_not_null listed)
  · intro null
    have kept := migrate_kept migrates
      (fun legacy listed => other legacy (List.mem_append_right _ listed)) null
    rw [dictGet, kept]
    rfl

end Saves

section Runs

variable {environ : Environ} {state next : HotState}

/-- Each step keeps the loads fresh exactly when it is a careful one. -/
theorem fresh_step_iff (action : HotAct) (fresh : Fresh environ state)
    (step : HotStep environ state action next) :
    Fresh environ next ↔ Careful environ state action := by
  cases step with
  | replace content mtime writable =>
      rw [fresh_iff]
      simp only [HotState.stale, HotState.migratedFile, Careful, Bool.or_eq_true,
        decide_eq_true_eq, List.isEmpty_iff]
      tauto
  | load now => exact ⟨fun _ => trivial, fun _ => fresh_load fresh now⟩
  | @save current saved body isAdmin now later loaded updated =>
      obtain ⟨limits, settled, accepted⟩ := accepted_of_update updated
      rw [fresh now] at loaded
      cases result : state.migratedFile environ with
      | error exc =>
          rw [result] at loaded
          cases loaded
      | ok pair =>
          obtain ⟨migrated, modified⟩ := pair
          rw [result] at loaded
          obtain rfl : migrated = current := Except.ok.inj loaded
          obtain ⟨config, read, migrates⟩ := bind_eq_ok_iff.mp result
          have careful : Careful environ state (.save body now later) ↔ @Complete environ saved := by
            rw [saved_complete_iff accepted]
            constructor
            · intro sends key member
              rw [nullable_kept accepted member, Ne, migrated_null_iff migrates member]
              by_cases null : Assoc.get? config (lit key) = some .null
              · exact .inl (sends config read key member null)
              · exact .inr null
            · intro set found same key member null
              obtain rfl : found = config := Except.ok.inj (same.symm.trans read)
              have kept := (nullable_kept accepted member).mp (set key member)
              rw [Ne, migrated_null_iff migrates member] at kept
              exact kept.resolve_right (not_not_intro null)
          rw [careful]
          refine ⟨fun after => ?_, fresh_of_saved⟩
          have cached : saved ≠ [] := by
            rintro rfl
            have filled := @filled_kept _ _ _ _ _ _ "mcp_enabled" accepted (by decide)
            cases filled
          obtain stale | ⟨again, unchanged⟩ := fresh_iff.mp after
          · simp [HotState.saveConfig, HotState.stale, cached] at stale
          · exact (migrateConfig_ok unchanged).1

theorem started_fresh (file : FileContent) (mtime : Int) (writable : Bool) :
    Fresh environ (.started file mtime writable) :=
  fresh_iff.mpr (.inl (by simp [HotState.started, HotState.stale]))

/-- In every run of a process, each load at each moment is fresh exactly when each step is
a careful one. -/
theorem hot_reload_iff (file : FileContent) (mtime : Int) (writable : Bool) {final : HotState}
    {trace : List (HotState × HotAct)}
    (run : Execution (HotStep environ) (.started file mtime writable) trace final) :
    (Fresh environ final ∧ ∀ visited ∈ trace, Fresh environ visited.1) ↔
      ∀ visited ∈ trace, Careful environ visited.1 visited.2 :=
  @Execution.always_iff _ _ _ (Careful environ) (Fresh environ)
    (fun _ action _ => fresh_step_iff action) _ _ _ run (started_fresh file mtime writable)

/-- A file that cannot be written is migrated in memory only. -/
theorem mounted_load {original config : Dict} {mtime now : Int} {modified : Bool}
    (result : migrateConfig environ original = .ok (config, modified)) :
    ((HotState.started (.json original) mtime false).loadConfig environ now).2 =
      ⟨.json original, mtime, false, config, mtime⟩ := by
  have migrated : (HotState.started (.json original) mtime false).migratedFile environ =
      .ok (config, modified) := (migratedFile_json rfl).trans result
  have stale : (HotState.started (.json original) mtime false).stale = true := by
    simp [HotState.started, HotState.stale]
  rw [HotState.loadConfig, if_pos stale, migrated]
  simp [HotState.started]

/-- Two configs that no migration makes equal. -/
def openConfig : Dict := [(lit "roles", .arr [.str (lit "open")])]

def revokedConfig : Dict := [(lit "roles", .arr [])]

theorem hot_reload_newer :
    ∃ trace final, Execution (HotStep bareEnviron) (.started (.json openConfig) 1 false) trace final ∧
      trace.length = 2 ∧ Fresh bareEnviron final := by
  obtain ⟨migrated, modified, result⟩ := migrate_bare openConfig
  let start : HotState := .started (.json openConfig) 1 false
  have run : Execution (HotStep bareEnviron) start _ _ :=
    .snoc (.snoc .nil (.load 2)) (.replace (.json revokedConfig) 3 false)
  refine ⟨_, _, run, rfl, ((hot_reload_iff _ _ _ run).mpr ?_).1⟩
  intro visited member
  simp only [List.nil_append, List.cons_append, List.mem_cons, List.not_mem_nil, or_false] at member
  obtain rfl | rfl := member
  · trivial
  · refine .inr (.inl ?_)
    rw [mounted_load result]
    exact (by decide : (1 : Int) < 3)

/-- A restored backup has an older modification time, and the role that it revokes stays. -/
theorem older_backup_stale :
    ¬ ∀ (environ : Environ) (file : FileContent) (mtime : Int) (writable : Bool)
        (trace : List (HotState × HotAct)) (final : HotState),
        Execution (HotStep environ) (.started file mtime writable) trace final →
        Fresh environ final := by
  intro always
  obtain ⟨migrated, modified, result⟩ := migrate_bare openConfig
  let start : HotState := .started (.json openConfig) 5 false
  have run : Execution (HotStep bareEnviron) start _ _ :=
    .snoc (.snoc .nil (.load 6)) (.replace (.json revokedConfig) 4 false)
  have fresh := always _ _ _ _ _ _ run
  rw [mounted_load result] at fresh
  have roles {config : Dict} (value : Json) {modified : Bool}
      (migrates : migrateConfig bareEnviron config = .ok (migrated, modified))
      (found : Assoc.get? config (lit "roles") = some value) :
      Assoc.get? migrated (lit "roles") = some value :=
    migrate_kept migrates (by decide) found
  have before := roles (.arr [.str (lit "open")]) result rfl
  obtain stale | ⟨again, same⟩ := fresh_iff.mp fresh
  · have empty : migrated = [] := by simpa [HotState.stale] using stale
    rw [empty] at before
    cases before
  · have revoked := (@migratedFile_json bareEnviron _ revokedConfig rfl).symm.trans same
    have after := roles (.arr []) revoked rfl
    rw [after] at before
    cases before

end Runs

end S3Manager.Web
