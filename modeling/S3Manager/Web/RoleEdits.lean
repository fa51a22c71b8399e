import Mathlib.Data.List.Forall2
import S3Manager.Ui.RolesPage
import S3Manager.Web.SecretContinuity

/-! A save of the roles page from end to end: the config as `GET /api/config` shows it, the edit
of the administrator, and what `POST /api/config` stores. -/

set_option autoImplicit false

namespace S3Manager.Web

open Python Access Config Library Ui

section Law

/-- The role has a list of buckets of its own. -/
def OwnBuckets (role : Dict) : Prop :=
  dictGet role "allowed_buckets" ≠ .null ∧ dictGet role "allowed_buckets" ≠ .arr []

/-- What becomes of a role of the config that was seen, where the edit is not about it. The
secret is that of the current config. -/
structure RoleKept (seen current saved role kept : Dict) : Prop where
  fields : ∀ field, lit field ∉ [lit "access_key_id", lit "endpoint_url", lit "secret_access_key"] →
    dictGet kept field = dictGet role field
  secret : Keyed role → ∃ last, lastNamed current (dictGet role "name") = some last ∧
    dictGet kept "secret_access_key" = dictGet last "secret_access_key"
  keyless : ¬ Keyed role → kept = Assoc.erase role (lit "secret_access_key")
  buckets : roleAllowedBuckets kept saved = roleAllowedBuckets role seen ↔
    OwnBuckets role ∨ sharedBuckets seen = none

/-- What becomes of the values of the form. -/
structure RoleEntered (values kept : Dict) : Prop where
  fields : ∀ field ∈ commonFields, dictGet kept field = dictGet values field
  prefixes : roleAllowedPrefixes kept = .ok none

/-- What an edit makes of the entries that were seen. -/
def EntriesEdited (keeps : Dict → Dict → Prop) : RoleEdit → List Json → List Json → Prop
  | .create values, before, after => ∃ others created, after = others ++ [.obj created] ∧
      List.Forall₂ (EntryMade keeps) before others ∧ RoleEntered values created
  | .edit name values, before, after =>
      List.Forall₂ (EntryMade fun role kept =>
        if hasName (.str name) (.obj role) then RoleEntered values kept else keeps role kept)
        before after
  | .delete name, before, after =>
      List.Forall₂ (EntryMade keeps) (before.filter fun entry => !hasName (.str name) entry) after
where
  EntryMade (made : Dict → Dict → Prop) (before after : Json) : Prop :=
    ∃ role kept, before = .obj role ∧ after = .obj kept ∧ made role kept

/-- The settings as they were shown are in force from then on, in every environment of a later
start. -/
structure SettingsFixed (environ : Environ) (seen saved : Dict) : Prop where
  lazy : ∀ later : Environ, lazyLoading later saved = lazyLoading environ seen
  limit : ∀ later : Environ, ∀ setting ∈ [("max_file_size", "MAX_FILE_SIZE", defaultMaxFileSize),
    ("max_client_load", "MAX_CLIENT_LOAD", defaultMaxClientLoad)],
      shownLimit later saved setting.1 setting.2.1 setting.2.2 =
        shownLimit environ seen setting.1 setting.2.1 setting.2.2
  ttls : ∀ later : Environ, resolvePresignedTtls later saved = resolvePresignedTtls environ seen
  deletion : ∀ later : Environ, shownDeletion later saved =
    if later.isTrue "DISABLE_DELETION" "" then .bool true else shownDeletion environ seen

end Law

section Lists

variable {α β γ : Type} {first : α → β → Prop} {second : β → γ → Prop} {both : α → γ → Prop}

theorem forall₂_compose {left : List α} {middle : List β} {right : List γ}
    (compose : ∀ a b c, first a b → second b c → both a c)
    (before : List.Forall₂ first left middle) (after : List.Forall₂ second middle right) :
    List.Forall₂ both left right := by
  induction before generalizing right with
  | nil =>
      cases after
      exact .nil
  | cons here _ ih =>
      cases after with
      | cons next rest => exact .cons (compose _ _ _ here next) (ih rest)

theorem forall₂_snoc {left : List β} {last : β} {right : List γ}
    (related : List.Forall₂ second (left ++ [last]) right) :
    ∃ others final, right = others ++ [final] ∧ List.Forall₂ second left others ∧
      second last final := by
  induction left generalizing right with
  | nil =>
      cases related with
      | cons here rest =>
          cases rest
          exact ⟨[], _, rfl, .nil, here⟩
  | cons b rest ih =>
      cases related with
      | cons here related =>
          obtain ⟨others, final, rfl, kept, ends⟩ := ih related
          exact ⟨_, final, rfl, .cons here kept, ends⟩

end Lists

section Shown

variable {environ : Environ} {seen shown : Dict} {dataDir : Str} {writable : Bool}
  {listed roles : List Json}

theorem sanitizeRoles_forall₂ (sanitized : sanitizeRoles listed = .ok roles) :
    List.Forall₂ (fun entry shown => sanitizeRole entry = .ok shown) listed roles := by
  induction listed generalizing roles with
  | nil =>
      obtain rfl := Except.ok.inj sanitized
      exact .nil
  | cons entry rest ih =>
      obtain ⟨first, here, others⟩ := bind_eq_ok_iff.mp sanitized
      obtain ⟨tail, later, ended⟩ := bind_eq_ok_iff.mp others
      obtain rfl := Except.ok.inj ended
      exact .cons here (ih later)

/-- What `get_config` shows comes from a list of roles. -/
theorem shown_entries (iterated : iterate (configRoles seen) = .ok listed)
    (sanitized : List.Forall₂ (fun entry shown => sanitizeRole entry = .ok shown) listed roles) :
    List.Forall₂ (fun entry shown => sanitizeRole entry = .ok shown) (configEntries seen) roles := by
  unfold configEntries
  cases kind : configRoles seen with
  | arr items =>
      rw [kind] at iterated
      obtain rfl := Except.ok.inj iterated
      exact sanitized
  | obj fields =>
      rw [kind] at iterated
      obtain rfl := Except.ok.inj iterated
      cases fields with
      | nil => exact sanitized
      | cons field rest =>
          cases sanitized with
          | cons here _ => cases here
  | str text =>
      rw [kind] at iterated
      obtain rfl := Except.ok.inj iterated
      cases text with
      | nil => exact sanitized
      | cons c rest =>
          cases sanitized with
          | cons here _ => cases here
  | null | bool | int | float =>
      rw [kind] at iterated
      cases iterated

/-- A limit is shown as an integer. -/
theorem shownLimit_int {config : Dict} {key envName : String} {fallback : Int} {value : Json}
    (read : shownLimit environ config key envName fallback = .ok value) :
    ∃ number, value = .int number := by
  have parsed {unicode : Unicode} {text value : Json}
      (read : (pyInt unicode text).map .int = .ok value) : ∃ number, value = .int number := by
    cases number : pyInt unicode text with
    | error exc =>
        rw [number] at read
        cases read
    | ok number' =>
        rw [number] at read
        exact ⟨number', (Except.ok.inj read).symm⟩
  unfold shownLimit at read
  split at read
  · unfold Environ.int at read
    split at read
    · exact ⟨fallback, (Except.ok.inj read).symm⟩
    · exact parsed read
  · exact parsed read

/-- What an administrator is shown of a config that was seen. -/
structure Shows (environ : Environ) (seen shown : Dict) (roles : List Json) (size load : Int)
    (ttls : Int × Int) : Prop where
  entries : List.Forall₂ (fun entry shown => sanitizeRole entry = .ok shown)
    (configEntries seen) roles
  listed : dictGet shown "roles" = .arr roles
  sizeRead : shownLimit environ seen "max_file_size" "MAX_FILE_SIZE" defaultMaxFileSize =
    .ok (.int size)
  loadRead : shownLimit environ seen "max_client_load" "MAX_CLIENT_LOAD" defaultMaxClientLoad =
    .ok (.int load)
  ttlsRead : resolvePresignedTtls environ seen = .ok ttls
  size : Assoc.get? shown (lit "max_file_size") = some (.int size)
  load : Assoc.get? shown (lit "max_client_load") = some (.int load)
  defaultTtl : Assoc.get? shown (lit "presigned_url_default_ttl") = some (.int ttls.1)
  maxTtl : Assoc.get? shown (lit "presigned_url_max_ttl") = some (.int ttls.2)
  lazy : Assoc.get? shown (lit "enable_lazy_loading") = some (.bool (lazyLoading environ seen))
  deletion : Assoc.get? shown (lit "disable_deletion") = some (shownDeletion environ seen)

theorem shows_of_getConfig (read : getConfig environ seen dataDir writable = .ok shown) :
    ∃ roles size load ttls, Shows environ seen shown roles size load ttls := by
  obtain ⟨maxFileSize, sized, rest⟩ := bind_eq_ok_iff.mp read
  obtain ⟨maxClientLoad, loaded, rest⟩ := bind_eq_ok_iff.mp rest
  obtain ⟨ttls, resolved, rest⟩ := bind_eq_ok_iff.mp rest
  obtain ⟨role, -, rest⟩ := bind_eq_ok_iff.mp rest
  obtain ⟨listed, iterated, rest⟩ := bind_eq_ok_iff.mp rest
  obtain ⟨roles, sanitized, rest⟩ := bind_eq_ok_iff.mp rest
  obtain rfl := Except.ok.inj rest
  obtain ⟨size, rfl⟩ := shownLimit_int sized
  obtain ⟨load, rfl⟩ := shownLimit_int loaded
  exact ⟨roles, size, load, ttls, shown_entries iterated (sanitizeRoles_forall₂ sanitized), rfl,
    sized, loaded, resolved, rfl, rfl, rfl, rfl, rfl, rfl⟩

end Shown

section Stored

variable {environ : Environ} {seen current shown body limits settled saved role kept : Dict}
  {roles : List (Json × Dict)} {key : Str}

/-- A save sends every other setting as it is shown, and nothing that is not on the page. -/
theorem config_sent {edit : RoleEdit} {listed : List Json}
    (shows : dictGet shown "roles" = .arr listed) (sent : edit.config shown = some body) :
    (∃ entries, edit.roles listed = some entries ∧ configRoles body = .arr entries) ∧
      (∀ key ∈ writableFields.map lit, key ≠ lit "roles" →
        Assoc.get? body key = Assoc.get? shown key) ∧
      ∀ key, key ∉ writableFields.map lit → Assoc.get? body key = none := by
  unfold RoleEdit.config at sent
  rw [shows] at sent
  obtain ⟨entries, edited, rfl⟩ := Option.map_eq_some_iff.mp sent
  refine ⟨⟨entries, edited, ?_⟩, fun key known other => ?_, fun key unknown => ?_⟩
  · rw [configRoles, dictGetD, dictSet, Assoc.get?_set_self, Option.getD_some]
  · rw [dictSet, Assoc.get?_set_ne _ _ other, toWritableConfig, get?_pickFields, if_pos known]
  · have other : key ≠ lit "roles" := fun same => unknown (same ▸ by decide)
    rw [dictSet, Assoc.get?_set_ne _ _ other, toWritableConfig, get?_pickFields, if_neg unknown]

/-- A field that no rule is for is stored as it was sent. -/
theorem Accepted.unruled (accepted : Accepted environ current body limits settled saved)
    (other : key ≠ lit "roles") (limit : key ∉ (limitRules environ current).map FieldRule.key)
    (server : key ∉ (serverRules environ current).map FieldRule.key) :
    Assoc.get? saved key = Assoc.get? body key :=
  (accepted.settled other).trans (accepted.untouched limit server)

/-- A rule stores what it takes a value for. -/
theorem Accepted.revised {value stored : Json}
    (accepted : Accepted environ current body limits settled saved) (rule : ConfigRule)
    (member : rule ∈ limitRules environ current) (sent : Assoc.get? body rule.key = some value)
    (revises : ∀ revised, rule.revise (some value) = .ok revised → revised = some stored) :
    Assoc.get? saved rule.key = some stored := by
  obtain ⟨revised, settles, same⟩ := accepted.limit member
  rw [sent] at settles
  rw [same, revises revised settles, Option.some_or]

theorem resolved_bounds {ttls : Int × Int} (resolved : resolvePresignedTtls environ seen = .ok ttls) :
    ttls.1 ≤ ttls.2 ∧ ttls.2 ≤ presignedUrlHardCeiling := by
  obtain ⟨maxTtl, -, rest⟩ := bind_eq_ok_iff.mp resolved
  obtain ⟨defaultTtl, -, rest⟩ := bind_eq_ok_iff.mp rest
  obtain rfl := Except.ok.inj rest
  constructor
  · dsimp only
    split_ifs <;> omega
  · dsimp only
    split_ifs <;> omega

theorem resolve_stored {ttls : Int × Int} (ordered : ttls.1 ≤ ttls.2)
    (within : ttls.2 ≤ presignedUrlHardCeiling)
    (defaultTtl : Assoc.get? saved (lit "presigned_url_default_ttl") = some (.int ttls.1))
    (maxTtl : Assoc.get? saved (lit "presigned_url_max_ttl") = some (.int ttls.2)) :
    resolvePresignedTtls environ saved = .ok ttls := by
  unfold resolvePresignedTtls maxTtlSetting defaultTtlSetting ttlSetting dictGet
  rw [defaultTtl, maxTtl]
  show Except.ok _ = Except.ok _
  rw [if_neg (Int.not_lt.mpr within), if_neg (Int.not_lt.mpr ordered)]

theorem Accepted.lazy {value : Bool}
    (accepted : Accepted environ current body limits settled saved)
    (sent : Assoc.get? body (lit "enable_lazy_loading") = some (.bool value)) :
    Assoc.get? saved (lit "enable_lazy_loading") = some (.bool value) := by
  refine accepted.revised (enableLazyLoadingRule environ current) List.mem_cons_self sent
    fun revised ok => ?_
  exact (Except.ok.inj ok).symm

theorem Accepted.size {size : Int} (accepted : Accepted environ current body limits settled saved)
    (sent : Assoc.get? body (lit "max_file_size") = some (.int size)) :
    Assoc.get? saved (lit "max_file_size") = some (.int size) := by
  refine accepted.revised (maxFileSizeRule environ current) (by simp [limitRules]) sent
    fun revised ok => ?_
  obtain ⟨number, read, rest⟩ := bind_eq_ok_iff.mp ok
  split_ifs at rest
  · cases rest
  · exact (Except.ok.inj rest).symm

theorem Accepted.load {load : Int} (accepted : Accepted environ current body limits settled saved)
    (sent : Assoc.get? body (lit "max_client_load") = some (.int load)) :
    Assoc.get? saved (lit "max_client_load") = some (.int load) := by
  refine accepted.revised (maxClientLoadRule environ current) (by simp [limitRules]) sent
    fun revised ok => ?_
  obtain ⟨number, read, rest⟩ := bind_eq_ok_iff.mp ok
  obtain rfl : load = number := Except.ok.inj read
  split_ifs at rest
  · cases rest
  · exact (Except.ok.inj rest).symm

theorem Accepted.ttl {field : String} {seconds : Int}
    (accepted : Accepted environ current body limits settled saved)
    (member : ttlRule environ current field ∈ limitRules environ current)
    (sent : Assoc.get? body (lit field) = some (.int seconds)) :
    Assoc.get? saved (lit field) = some (.int seconds) := by
  refine accepted.revised (ttlRule environ current field) member sent fun revised ok => ?_
  obtain ⟨number, read, rest⟩ := bind_eq_ok_iff.mp ok
  obtain rfl : seconds = number := Except.ok.inj read
  split_ifs at rest
  · cases rest
  · exact (Except.ok.inj rest).symm

theorem Accepted.deletion (accepted : Accepted environ current body limits settled saved) :
    Assoc.get? saved (lit "disable_deletion") = Assoc.get? body (lit "disable_deletion") := by
  refine accepted.unruled (by decide) ?_ ?_
  · rw [limitRules_keys]
    decide
  · rw [serverRules_keys]
    decide +kernel

theorem Accepted.unshared (accepted : Accepted environ current body limits settled saved)
    (absent : Assoc.get? body (lit "shared_bucket") = none) : sharedBuckets saved = none := by
  have stored : Assoc.get? saved (lit "shared_bucket") = none := by
    refine (accepted.unruled (by decide) ?_ ?_).trans absent
    · rw [limitRules_keys]
      decide
    · rw [serverRules_keys]
      decide +kernel
  rw [sharedBuckets, dictGet, stored]
  rfl

/-- The settings are stored as they were shown. -/
theorem settings_fixed {listed : List Json} {size load : Int} {ttls : Int × Int}
    (shows : Shows environ seen shown listed size load ttls)
    (same : ∀ key ∈ writableFields.map lit, key ≠ lit "roles" →
      Assoc.get? body key = Assoc.get? shown key)
    (accepted : Accepted environ current body limits settled saved) :
    SettingsFixed environ seen saved := by
  have lazy := accepted.lazy ((same _ (by decide) (by decide)).trans shows.lazy)
  have size := accepted.size ((same _ (by decide) (by decide)).trans shows.size)
  have load := accepted.load ((same _ (by decide) (by decide)).trans shows.load)
  have defaultTtl := accepted.ttl (by simp [limitRules])
    ((same _ (by decide) (by decide)).trans shows.defaultTtl)
  have maxTtl := accepted.ttl (by simp [limitRules])
    ((same _ (by decide) (by decide)).trans shows.maxTtl)
  have deletion := accepted.deletion.trans
    ((same _ (by decide) (by decide)).trans shows.deletion)
  obtain ⟨ordered, within⟩ := resolved_bounds shows.ttlsRead
  refine ⟨fun later => ?_, fun later setting member => ?_, fun later => ?_, fun later => ?_⟩
  · rw [lazyLoading, dictGet, lazy]
    rfl
  · obtain rfl | rfl := List.mem_pair.mp member
    · rw [shows.sizeRead, shownLimit, dictGet, size]
      rfl
    · rw [shows.loadRead, shownLimit, dictGet, load]
      rfl
  · rw [shows.ttlsRead]
    exact resolve_stored ordered within defaultTtl maxTtl
  · rw [shownDeletion, dictGetD, deletion]
    rfl

end Stored

section Roles

variable {seen current saved role kept values : Dict} {roles : List (Json × Dict)}

theorem buckets_kept_iff (unshared : sharedBuckets saved = none)
    (same : dictGet kept "allowed_buckets" = dictGet role "allowed_buckets") :
    roleAllowedBuckets kept saved = roleAllowedBuckets role seen ↔
      OwnBuckets role ∨ sharedBuckets seen = none := by
  unfold roleAllowedBuckets OwnBuckets
  rw [same, unshared]
  cases dictGet role "allowed_buckets" with
  | null => simp [eq_comm]
  | arr items =>
      cases items with
      | nil => simp [eq_comm]
      | cons item rest => simp
  | bool | int | float | str | obj => simp

/-- A role that is sent as it was shown. -/
theorem roleKept_of_sent (named : iterate (configRoles current) >>= currentRoles = .ok roles)
    (unshared : sharedBuckets saved = none)
    (checked : checkRole roles (Assoc.erase role (lit "secret_access_key")) = .ok kept) :
    RoleKept seen current saved role kept := by
  have sent {field : String} (other : lit field ≠ lit "secret_access_key") :
      dictGet (Assoc.erase role (lit "secret_access_key")) field = dictGet role field :=
    dictGet_erase_ne other
  have typed : Keyed (Assoc.erase role (lit "secret_access_key")) ↔ Keyed role := by
    rw [Keyed, sent (by decide), Keyed]
  refine ⟨fun field other => ?_, fun keyed => ?_, fun keyless => ?_, ?_⟩
  · simp only [List.mem_cons, List.not_mem_nil, or_false, not_or] at other
    obtain ⟨access, endpoint, secret⟩ := other
    exact (checkRole_other checked access endpoint secret).trans (sent secret)
  · cases checkRole_secret (typed.mpr keyed) checked with
    | sent read new _ =>
        obtain ⟨text, given, -⟩ := sentSecret_given read new
        rw [dictGet, Assoc.get?_erase_self] at given
        cases given
    | @found _ name last _ _ key entry stored =>
        refine ⟨last, ?_, stored⟩
        rw [lastNamed, named, ← sent (by decide), key]
        exact entry
  · exact checkRole_keyless (fun keyed => keyless (typed.mp keyed)) checked
  · exact buckets_kept_iff unshared
      ((checkRole_other checked (by decide) (by decide) (by decide)).trans (sent (by decide)))

theorem common_other : ∀ field ∈ commonFields, lit field ≠ lit "access_key_id" ∧
    lit field ≠ lit "endpoint_url" ∧ lit field ≠ lit "secret_access_key" := by decide

theorem roleEntered_of_sent (stripped : stripIrrelevantFields values = some role)
    (checked : checkRole roles role = .ok kept) : RoleEntered values kept := by
  refine ⟨fun field member => ?_, ?_⟩
  · obtain ⟨access, endpoint, secret⟩ := common_other field member
    exact (checkRole_other checked access endpoint secret).trans (stripped_common stripped _ member)
  · rw [roleAllowedPrefixes, checkRole_other checked (by decide) (by decide) (by decide),
      stripped_prefixes stripped]

/-- The form is stripped once more after the secret is put in. -/
theorem roleEntered_of_merged {existing cleaned : Dict}
    (stripped : stripIrrelevantFields values = some role)
    (again : stripIrrelevantFields (mergeSecret role existing) = some cleaned)
    (checked : checkRole roles cleaned = .ok kept) : RoleEntered values kept := by
  obtain ⟨fields, prefixes⟩ := roleEntered_of_sent again checked
  refine ⟨fun field member => ?_, prefixes⟩
  rw [fields field member, mergeSecret_other (common_other field member).2.2,
    stripped_common stripped field member]

theorem sanitizeRole_arr {items : List Json} {shown : Json}
    (sanitized : sanitizeRole (.arr items) = .ok shown) : shown = .arr items := by
  simp only [sanitizeRole] at sanitized
  split_ifs at sanitized
  · cases sanitized
  · exact (Except.ok.inj sanitized).symm

theorem sanitizeRole_obj {entry : Json} (sanitized : sanitizeRole entry = .ok (.obj kept)) :
    ∃ role, entry = .obj role ∧ kept = Assoc.erase role (lit "secret_access_key") := by
  cases entry with
  | obj role => exact ⟨role, rfl, (Json.obj.inj (Except.ok.inj sanitized)).symm⟩
  | arr items => cases sanitizeRole_arr sanitized
  | null | bool | int | float | str => cases sanitized

/-- The page tells roles apart by names, which `get_config` shows. -/
theorem hasName_sanitized {name entry shown : Json} (sanitized : sanitizeRole entry = .ok shown) :
    hasName name shown = hasName name entry := by
  cases entry with
  | obj role =>
      obtain rfl := Except.ok.inj sanitized
      rw [hasName, dictGet_erase_ne (by decide), hasName]
  | arr items =>
      obtain rfl := sanitizeRole_arr sanitized
      rfl
  | null | bool | int | float | str => cases sanitized

theorem entry_kept {entry shown stored : Json}
    (named : iterate (configRoles current) >>= currentRoles = .ok roles)
    (unshared : sharedBuckets saved = none) (sanitized : sanitizeRole entry = .ok shown)
    (checked : checkEntry roles shown = .ok stored) :
    EntriesEdited.EntryMade (RoleKept seen current saved) entry stored := by
  obtain ⟨sent, kept, rfl, rfl, -, -, accepted⟩ := checkEntry_ok checked
  obtain ⟨role, rfl, rfl⟩ := sanitizeRole_obj sanitized
  exact ⟨role, kept, rfl, rfl, roleKept_of_sent named unshared accepted⟩

/-- From what was seen over what was shown and sent to what is stored, entry by entry. -/
theorem entries_edited {edit : RoleEdit} {listed entries : List Json}
    (named : iterate (configRoles current) >>= currentRoles = .ok roles)
    (unshared : sharedBuckets saved = none)
    (before : List.Forall₂ (fun entry shown => sanitizeRole entry = .ok shown)
      (configEntries seen) listed)
    (edited : edit.roles listed = some entries)
    (after : List.Forall₂ (fun sent stored => checkEntry roles sent = .ok stored) entries
      (configEntries saved)) :
    EntriesEdited (RoleKept seen current saved) edit (configEntries seen) (configEntries saved) := by
  have keeps (entry shown stored : Json) (sanitized : sanitizeRole entry = .ok shown)
      (checked : checkEntry roles shown = .ok stored) :
      EntriesEdited.EntryMade (RoleKept seen current saved) entry stored :=
    entry_kept named unshared sanitized checked
  cases edit with
  | create values =>
      unfold RoleEdit.roles at edited
      dsimp only at edited
      split_ifs at edited
      obtain ⟨role, stripped, rfl⟩ := Option.map_eq_some_iff.mp edited
      obtain ⟨others, final, ends, kept, last⟩ := forall₂_snoc after
      obtain ⟨sent, created, same, rfl, -, -, checked⟩ := checkEntry_ok last
      obtain rfl := Json.obj.inj same
      exact ⟨others, created, ends, forall₂_compose keeps before kept,
        roleEntered_of_sent stripped checked⟩
  | edit name values =>
      unfold RoleEdit.roles at edited
      dsimp only at edited
      split at edited
      · next role existing stripped _ =>
        obtain ⟨cleaned, again, rfl⟩ := Option.map_eq_some_iff.mp edited
        refine forall₂_compose (fun entry shown stored sanitized checked => ?_) before
          (List.forall₂_map_left_iff.mp after)
        rw [hasName_sanitized sanitized] at checked
        by_cases here : hasName (.str name) entry = true
        · rw [if_pos here] at checked
          obtain ⟨sent, kept, same, rfl, -, -, accepted⟩ := checkEntry_ok checked
          obtain rfl := Json.obj.inj same
          cases entry with
          | obj first =>
              refine ⟨first, kept, rfl, rfl, ?_⟩
              dsimp only
              rw [if_pos here]
              exact roleEntered_of_merged stripped again accepted
          | null | bool | int | float | str | arr => cases here
        · rw [if_neg here] at checked
          obtain ⟨first, kept, rfl, rfl, stays⟩ := keeps _ _ _ sanitized checked
          refine ⟨first, kept, rfl, rfl, ?_⟩
          dsimp only
          rw [if_neg here]
          exact stays
      · cases edited
  | delete name =>
      obtain rfl := Option.some.inj edited
      refine forall₂_compose keeps (List.rel_filter (fun entry shown sanitized => ?_) before) after
      dsimp only
      rw [hasName_sanitized sanitized]

end Roles

section Saves

variable {environ : Environ} {seen current shown body saved : Dict} {dataDir : Str}
  {isAdmin writable locked : Bool} {edit : RoleEdit}

/-- A save of the page, whatever was saved since the config was seen: roles that the edit is not
about are stored as they were seen, with the secrets of now, and the role it is about has no
prefixes any more. No bucket is shared any more, so that a role without buckets of its own may
use every bucket. The settings that were in force stay in force; of the environment only
`DISABLE_DELETION` is read for them. -/
theorem role_edit_saved (browser : Browser)
    (read : getConfig environ seen dataDir writable = .ok shown)
    (submitted : edit.config shown = some body) (portable : ∀ field ∈ body, Portable field.2)
    (accepted : updateConfig environ current isAdmin locked (browser.sends body) = .ok saved) :
    EntriesEdited (RoleKept seen current saved) edit (configEntries seen) (configEntries saved) ∧
      sharedBuckets saved = none ∧ SettingsFixed environ seen saved := by
  rw [sends_portable browser portable] at accepted
  obtain ⟨listed, size, load, ttls, shows⟩ := shows_of_getConfig read
  obtain ⟨⟨entries, edited, sent⟩, same, unsent⟩ := config_sent shows.listed submitted
  obtain ⟨limits, settled, accepted⟩ := accepted_of_update accepted
  obtain ⟨roles, named, stored⟩ := accepted.stored
  have unshared := accepted.unshared (unsent _ (by decide))
  have after := stored.entries
  rw [show configEntries body = entries by rw [configEntries, sent]] at after
  exact ⟨entries_edited named unshared shows.entries edited after, unshared,
    settings_fixed shows same accepted⟩

def defaultRole (name : String) (fields : Dict) : Json :=
  .obj ([(lit "name", .str (lit name)), (lit "type", .str (lit "default"))] ++ fields)

/-- A role with prefixes, and one that has the shared bucket only. -/
def teamConfig : Dict :=
  [(lit "shared_bucket", .str (lit "pool")), (lit "roles", .arr [
    defaultRole "team" [(lit "allowed_prefixes", .arr [.str (lit "team/")])],
    defaultRole "guests" []])]

/-- The administrator gives the team a bucket. -/
def teamEdit : RoleEdit :=
  .edit (lit "team") [(lit "name", .str (lit "team")), (lit "type", .str (lit "default")),
    (lit "allowed_buckets", .arr [.str (lit "data")])]

/-- What the page sends: its settings are the defaults. -/
def teamBody : Dict :=
  [(lit "roles", .arr [
      defaultRole "team" [(lit "allowed_buckets", .arr [.str (lit "data")])],
      defaultRole "guests" []]),
    (lit "enable_lazy_loading", .bool true), (lit "max_file_size", .int defaultMaxFileSize),
    (lit "max_client_load", .int defaultMaxClientLoad), (lit "disable_deletion", .bool false),
    (lit "preview_text_extensions", .arr []), (lit "upload_inline_extensions", .arr []),
    (lit "password_min_length", .int 0), (lit "password_min_uppercase", .int 0),
    (lit "password_min_lowercase", .int 0), (lit "password_min_digits", .int 0),
    (lit "password_min_special", .int 0),
    (lit "presigned_url_default_ttl", .int defaultPresignedUrlDefaultTtl),
    (lit "presigned_url_max_ttl", .int defaultPresignedUrlMaxTtl), (lit "mcp_enabled", .bool true),
    (lit "mcp_disable_writes", .bool false), (lit "mcp_text_extensions", .arr []),
    (lit "mcp_global_max_read_bytes", .int 10485760), (lit "mcp_summary_max_keys", .int 50000),
    (lit "mcp_summary_prefix_scan_pages", .int 20), (lit "mcp_list_page_size", .int 1000),
    (lit "mcp_list_max_page_size", .int 10000)]

theorem team_submitted : ∃ shown, getConfig bareEnviron teamConfig [] true = .ok shown ∧
    teamEdit.config shown = some teamBody :=
  ⟨_, rfl, by decide +kernel⟩

theorem defaultRole_portable {name : String} {fields : Dict}
    (names : ((lit "name" :: lit "type" :: fields.map Prod.fst)).Nodup)
    (letters : ∀ field ∈ fields, ¬ IsIndex field.1) (portable : ∀ field ∈ fields, Portable field.2) :
    Portable (defaultRole name fields) := by
  refine .obj names ?_ ?_
  · have name : ¬ IsIndex (lit "name") := by decide
    have type : ¬ IsIndex (lit "type") := by decide
    exact List.forall_mem_cons.mpr ⟨name, List.forall_mem_cons.mpr ⟨type, letters⟩⟩
  · exact List.forall_mem_cons.mpr ⟨.str _, List.forall_mem_cons.mpr ⟨.str _, portable⟩⟩

theorem teamBody_portable : ∀ field ∈ teamBody, Portable field.2 := by
  have nothing : Portable (.arr []) := .arr (List.forall_mem_nil _)
  have buckets : Portable (.arr [.str (lit "data")]) := .arr (List.forall_mem_singleton.mpr (.str _))
  have roles : Portable (.arr [
      defaultRole "team" [(lit "allowed_buckets", .arr [.str (lit "data")])],
      defaultRole "guests" []]) := by
    refine .arr (List.forall_mem_cons.mpr ⟨?_, List.forall_mem_singleton.mpr ?_⟩)
    · exact defaultRole_portable (by decide) (List.forall_mem_singleton.mpr (by decide))
        (List.forall_mem_singleton.mpr buckets)
    · exact defaultRole_portable (by decide) (List.forall_mem_nil _) (List.forall_mem_nil _)
  simp only [teamBody, List.forall_mem_cons, roles, nothing, true_and]
  refine ⟨.bool _, .int (by decide), .int (by decide), .bool _, .int (by decide), .int (by decide),
    .int (by decide), .int (by decide), .int (by decide), .int (by decide), .int (by decide),
    .bool _, .bool _, .int (by decide), .int (by decide), .int (by decide), .int (by decide),
    .int (by decide), List.forall_mem_nil _⟩

theorem team_edit_saved :
    ∃ saved, EntriesEdited (RoleKept teamConfig teamConfig saved) teamEdit
        (configEntries teamConfig) (configEntries saved) ∧
      sharedBuckets saved = none ∧ SettingsFixed bareEnviron teamConfig saved := by
  obtain ⟨shown, read, submitted⟩ := team_submitted
  have accepted : ∃ saved, updateConfig bareEnviron teamConfig true true
      (Browser.sends ⟨id, fun _ _ => rfl⟩ teamBody) = .ok saved := ⟨_, rfl⟩
  obtain ⟨saved, accepted⟩ := accepted
  exact ⟨saved, role_edit_saved ⟨id, fun _ _ => rfl⟩ read submitted teamBody_portable accepted⟩

end Saves

end S3Manager.Web
