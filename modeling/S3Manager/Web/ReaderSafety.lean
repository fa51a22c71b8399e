import S3Manager.Access.GateErrors
import S3Manager.Mcp.Tools
import S3Manager.Web.ConfigLaws

/-! What the readers of a config make of one that `update_config` has accepted. The
save checks some fields, keeps what it finds in others, and looks at no bucket or prefix
list. -/

set_option autoImplicit false

namespace S3Manager.Web

open Python Access Config Library Clients

section Readers

variable (environ : Environ) (config : Dict)

def resolveMaxFileSize : Result Int :=
  match dictGet config "max_file_size" with
  | .null =>
      match environ.getenv (lit "MAX_FILE_SIZE") with
      | none => .ok defaultMaxFileSize
      | some text => pyInt environ.unicode (.str text)
  | value => pyInt environ.unicode value

/-- `int(config.get(key, fallback))`, as the tools read their limits. -/
def toolLimit (key : String) (fallback : Int) : Result Int :=
  pyInt environ.unicode (dictGetD config key (.int fallback))

def Within (low high : Int) (value : Int) : Prop := low ≤ value ∧ value ≤ high

/-- A limit is read, and is in its range. -/
def ReadsWithin (low high : Int) (read : Result Int) : Prop :=
  ∃ value, read = .ok value ∧ Within low high value

/-- What the readers expect of a config. -/
structure SafeForReaders : Prop where
  gate : ∀ role bucket user key, OnlyDenies (validateStorageAccess config role bucket user key)
  listing : ∀ role bucket user path,
    OnlyDenies (prepareListPath environ.unicode config role bucket user path)
  buckets : ∀ role user, OnlyDenies (bucketLookup config role user)
  fileSize : ∃ size, resolveMaxFileSize environ config = .ok size ∧ 1024 ≤ size
  ttls : ∃ ttls, resolvePresignedTtls environ config = .ok ttls ∧
    Within presignedUrlMinTtl presignedUrlHardCeiling ttls.1 ∧
    Within presignedUrlMinTtl presignedUrlHardCeiling ttls.2
  toolTtl : ReadsWithin presignedUrlMinTtl presignedUrlHardCeiling
    (toolLimit environ config "presigned_url_max_ttl" 604800)
  listPages : ∃ limits, Mcp.listPageLimits environ.unicode config = .ok limits ∧
    Within 1 10000 limits.1 ∧ Within 1 10000 limits.2
  summaryKeys : ReadsWithin 1000 1000000 (toolLimit environ config "mcp_summary_max_keys" 50000)
  summaryPages : ReadsWithin 1 200 (toolLimit environ config "mcp_summary_prefix_scan_pages" 20)
  readBytes : ∃ cap, dictGetD config "mcp_global_max_read_bytes" (.int 10485760) = .int cap ∧
    Within 1 10485760 cap

/-- A setting of a lifetime that resolves to a minute or more. -/
def LastsMinute (setting : Json) : Prop :=
  ¬ Unbounded environ setting ∧ AtLeastMinute environ setting

variable (current body : Dict)

/-- The roles of the request can be read; and each limit is sent, or is sound already in
the current config, where the limits of the tools may not be missing, the lifetime apart. -/
structure SoundUpdate : Prop where
  entries : EntriesReadable body
  first : FirstReadable body
  fileSize : dictHas body "max_file_size" = true ∨
    ∃ size, resolveMaxFileSize environ current = .ok size ∧ 1024 ≤ size
  maxTtl : dictHas body "presigned_url_max_ttl" = true ∨
    LastsMinute environ (maxTtlSetting environ current)
  toolTtl : dictHas body "presigned_url_max_ttl" = true ∨
    dictGet current "presigned_url_max_ttl" = .null ∨
      ReadsWithin presignedUrlMinTtl presignedUrlHardCeiling
        (pyInt environ.unicode (dictGet current "presigned_url_max_ttl"))
  defaultTtl : dictHas body "presigned_url_default_ttl" = true ∨
    LastsMinute environ (defaultTtlSetting environ current)
  pageSize : dictHas body "mcp_list_page_size" = true ∨
    ∃ size, pyInt environ.unicode (dictGet current "mcp_list_page_size") = .ok size ∧
      size ≤ 10000
  maxPageSize : dictHas body "mcp_list_max_page_size" = true ∨
    ∃ size, pyInt environ.unicode (dictGet current "mcp_list_max_page_size") = .ok size ∧
      size ≤ 10000
  summaryKeys : dictHas body "mcp_summary_max_keys" = true ∨
    ReadsWithin 1000 1000000 (pyInt environ.unicode (dictGet current "mcp_summary_max_keys"))
  summaryPages : dictHas body "mcp_summary_prefix_scan_pages" = true ∨
    ReadsWithin 1 200 (pyInt environ.unicode (dictGet current "mcp_summary_prefix_scan_pages"))
  readBytes : dictHas body "mcp_global_max_read_bytes" = true ∨
    ∃ cap, dictGet current "mcp_global_max_read_bytes" = .int cap ∧ Within 1 10485760 cap

end Readers

section Lookup

open Storage

/-- What the lookup raises is what `list_buckets_for_role` raises, before any request. -/
theorem listBucketsForRole_raises {unicode : Unicode} {config : Dict} {role : Option Str}
    {user : UserDict} {exc : PyError} (fails : bucketLookup config role user = .error exc) :
    listBucketsForRole unicode config role user = S3Program.ofResult (.error exc) := by
  unfold bucketLookup at fails
  unfold listBucketsForRole
  cases checked : validateRoleAccess role user with
  | error denied =>
      rw [checked] at fails
      obtain rfl := Except.error.inj fails
      rfl
  | ok validated =>
      rw [checked, result_bind_ok] at fails
      rw [ofResult_ok_bind]
      cases shown : shownRole config validated with
      | error failure =>
          rw [shown] at fails
          obtain rfl := Except.error.inj fails
          rfl
      | ok entry =>
          rw [shown, result_bind_ok] at fails
          rw [ofResult_ok_bind]
          cases entry with
          | none => cases fails
          | some roleConfig =>
              dsimp only at fails ⊢
              rw [fails]
              rfl

end Lookup

section Grants

/-- The fields of a role that the gate reads are the same. -/
structure SameGrants (role kept : Dict) : Prop where
  name : dictGet kept "name" = dictGet role "name"
  buckets : dictGet kept "allowed_buckets" = dictGet role "allowed_buckets"
  prefixes : dictGet kept "allowed_prefixes" = dictGet role "allowed_prefixes"

variable {environ : Environ} {current body limits settled saved role kept : Dict}

theorem readable_congr (shared : dictGet saved "shared_bucket" = dictGet body "shared_bucket")
    (same : SameGrants role kept) : Readable saved kept ↔ Readable body role := by
  have read : roleAllowedBuckets kept saved = roleAllowedBuckets role body := by
    rw [roleAllowedBuckets, same.buckets, sharedBuckets, shared, roleAllowedBuckets, sharedBuckets]
  have admits (bucket : Str) : Admits saved kept bucket ↔ Admits body role bucket := by
    rw [Admits, read, Admits]
  constructor
  · rintro ⟨buckets, prefixes⟩
    refine ⟨same.buckets ▸ buckets, fun list listed ⟨bucket, passes⟩ => ?_⟩
    exact prefixes list (same.prefixes.trans listed) ⟨bucket, (admits bucket).mpr passes⟩
  · rintro ⟨buckets, prefixes⟩
    refine ⟨same.buckets ▸ buckets, fun list listed ⟨bucket, passes⟩ => ?_⟩
    exact prefixes list (same.prefixes.symm.trans listed) ⟨bucket, (admits bucket).mp passes⟩

theorem nextRole_related {roles : List (Json × Dict)} {sent stored : List Json}
    (checked : List.Forall₂ (fun sent stored => checkEntry roles sent = .ok stored) sent stored)
    (name : Option Str) :
    (nextRole name sent = .ok none ∧ nextRole name stored = .ok none) ∨
      ∃ role kept, nextRole name sent = .ok (some role) ∧
        nextRole name stored = .ok (some kept) ∧ SameGrants role kept := by
  induction checked with
  | nil => exact .inl ⟨rfl, rfl⟩
  | @cons entry result restSent restStored here _ ih =>
      obtain ⟨role, kept, rfl, rfl, _, _, accepted⟩ := checkEntry_ok here
      have same : SameGrants role kept :=
        ⟨checkRole_other accepted (by decide) (by decide) (by decide),
          checkRole_other accepted (by decide) (by decide) (by decide),
          checkRole_other accepted (by decide) (by decide) (by decide)⟩
      unfold nextRole
      rw [same.name]
      split_ifs with named
      · exact .inr ⟨role, kept, rfl, rfl, same⟩
      · exact ih

theorem entriesReadable_iff {roles : List (Json × Dict)}
    (shared : dictGet saved "shared_bucket" = dictGet body "shared_bucket")
    (stored : RolesStored roles body saved) : EntriesReadable saved ↔ EntriesReadable body := by
  refine forall_congr' fun name => ?_
  cases stored with
  | listed sent stored before after checked =>
      have sentRole : findRole body name = nextRole name sent := by
        rw [findRole, before]
        rfl
      have storedRole : findRole saved name = nextRole name stored := by
        rw [findRole, after]
        rfl
      rw [sentRole, storedRole]
      obtain ⟨absent, alsoAbsent⟩ | ⟨role, kept, found, alsoFound, same⟩ :=
        nextRole_related checked name
      · rw [absent, alsoAbsent]
        simp
      · rw [found, alsoFound]
        simpa using readable_congr shared same
  | empty iterated _ kept =>
      have absent : findRole body name = .ok none := by
        rw [findRole, iterated]
        rfl
      have alsoAbsent : findRole saved name = .ok none := by
        rw [findRole, kept, iterated]
        rfl
      rw [absent, alsoAbsent]
      simp

theorem firstReadable_obj {rest : List Json}
    (listed : configRoles body = .arr (.obj role :: rest)) :
    FirstReadable body ↔ ListOrNull (dictGet role "allowed_buckets") := by
  rw [FirstReadable, listed, firstRole_arr]
  constructor
  · rintro ⟨first, found, readable⟩
    obtain rfl := Except.ok.inj found
    cases role with
    | nil => exact .inl rfl
    | cons field others =>
        obtain ⟨fields, same, buckets⟩ := readable (truthy_nonempty field others)
        exact Json.obj.inj same ▸ buckets
  · exact fun buckets => ⟨_, rfl, fun _ => ⟨role, rfl, buckets⟩⟩

theorem firstReadable_iff {roles : List (Json × Dict)} (stored : RolesStored roles body saved) :
    FirstReadable saved ↔ FirstReadable body := by
  cases stored with
  | listed sent stored before after checked =>
      cases checked with
      | nil => rw [FirstReadable, after, FirstReadable, before]
      | @cons entry result _ _ here _ =>
          obtain ⟨role, kept, rfl, rfl, _, _, accepted⟩ := checkEntry_ok here
          have same : dictGet kept "allowed_buckets" = dictGet role "allowed_buckets" :=
            checkRole_other accepted (by decide) (by decide) (by decide)
          rw [firstReadable_obj before, firstReadable_obj after, same]
  | empty _ _ kept => rw [FirstReadable, kept, ← FirstReadable]

end Grants

section Limits

variable {environ : Environ} {current body limits settled saved : Dict}

theorem intOr400_ok {detail : String} {value : Json} {number : Int}
    (read : intOr400 environ detail value = .ok number) :
    pyInt environ.unicode value = .ok number := by
  unfold intOr400 at read
  split at read
  · next found => rwa [found]
  · split at read <;> cases read

theorem resolveMaxFileSize_of_read {config : Dict} {size : Int}
    (read : pyInt environ.unicode (dictGet config "max_file_size") = .ok size) :
    resolveMaxFileSize environ config = .ok size := by
  unfold resolveMaxFileSize
  split
  · next null =>
      rw [null] at read
      cases read
  · exact read

/-- A size that is left out is the one that the current config has, or the variable. -/
theorem fileSize_omitted (accepted : Accepted environ current body limits settled saved)
    (omitted : Assoc.get? body (lit "max_file_size") = none) :
    resolveMaxFileSize environ saved = resolveMaxFileSize environ current := by
  have member : maxFileSizeRule environ current ∈ limitRules environ current := by
    simp only [limitRules, List.mem_cons, true_or, or_true]
  obtain ⟨value, revised, after⟩ := accepted.limit member
  dsimp only [maxFileSizeRule] at revised after
  rw [omitted] at revised after
  dsimp only at revised
  unfold preservedOr at revised
  cases kept : Assoc.get? current (lit "max_file_size") with
  | some old =>
      rw [kept] at revised
      obtain rfl := Except.ok.inj revised
      unfold resolveMaxFileSize dictGet
      rw [after, kept, Option.some_or]
  | none =>
      rw [kept] at revised
      have unset : dictGet current "max_file_size" = .null := by rw [dictGet, kept, Option.getD_none]
      have stored : dictGet saved "max_file_size" = value.getD .null := by
        rw [dictGet, after, Option.or_none]
      rw [resolveMaxFileSize, stored, resolveMaxFileSize, unset]
      unfold Environ.int at revised
      cases variable_ : environ.getenv (lit "MAX_FILE_SIZE") with
      | none =>
          rw [variable_] at revised
          obtain rfl := Except.ok.inj revised
          rfl
      | some text =>
          rw [variable_] at revised
          dsimp only at revised
          cases read : pyInt environ.unicode (.str text) with
          | error exc =>
              rw [read] at revised
              cases revised
          | ok size =>
              rw [read] at revised
              obtain rfl := Except.ok.inj revised
              dsimp only
              rw [read]
              rfl

theorem fileSize_iff (accepted : Accepted environ current body limits settled saved) :
    (∃ size, resolveMaxFileSize environ saved = .ok size ∧ 1024 ≤ size) ↔
      dictHas body "max_file_size" = true ∨
        ∃ size, resolveMaxFileSize environ current = .ok size ∧ 1024 ≤ size := by
  cases sent : Assoc.get? body (lit "max_file_size") with
  | none =>
      rw [fileSize_omitted accepted sent, dictHas, Assoc.contains, sent]
      simp
  | some value =>
      have member : maxFileSizeRule environ current ∈ limitRules environ current := by
        simp only [limitRules, List.mem_cons, true_or, or_true]
      obtain ⟨kept, revised, after⟩ := accepted.limit member
      dsimp only [maxFileSizeRule] at revised after
      rw [sent] at revised after
      obtain ⟨size, read, rest⟩ := bind_eq_ok_iff.mp revised
      split_ifs at rest with small
      · cases rest
      · obtain rfl := Except.ok.inj rest
        have stored : dictGet saved "max_file_size" = value := by
          rw [dictGet, after, Option.some_or, Option.getD_some]
        refine iff_of_true ⟨size, resolveMaxFileSize_of_read ?_, by omega⟩ (.inl ?_)
        · rw [stored]
          exact intOr400_ok read
        · rw [dictHas, Assoc.contains, sent, Option.isSome_some]

/-- A limit of the tools that is left out is what the current config has, even nothing. -/
theorem toolLimit_iff {field range : String} {low high fallback : Int} {sound : Json → Prop}
    (accepted : Accepted environ current body limits settled saved)
    (member : mcpIntRule current field low high range ∈ serverRules environ current)
    (ranged : ∀ value, Within low high value → sound (.int value)) :
    sound (dictGetD saved field (.int fallback)) ↔
      dictHas body field = true ∨ sound (dictGet current field) := by
  obtain ⟨kept, revised, after⟩ := accepted.server member
  dsimp only [mcpIntRule, mcpRule] at revised after
  cases sent : Assoc.get? body (lit field) with
  | none =>
      rw [sent] at revised after
      obtain rfl := Except.ok.inj revised
      have stored : dictGetD saved field (.int fallback) = dictGet current field := by
        rw [dictGetD, after, Option.some_or, Option.getD_some]
      rw [stored, dictHas, Assoc.contains, sent]
      simp
  | some value =>
      rw [sent] at revised after
      dsimp only at revised
      split_ifs at revised with fits
      · obtain rfl := Except.ok.inj revised
        have stored : dictGetD saved field (.int fallback) = value := by
          rw [dictGetD, after, Option.some_or, Option.getD_some]
        refine iff_of_true ?_ (.inl ?_)
        · rw [stored]
          cases value with
          | int value => exact ranged value (by simpa [isIntBetween, Within] using fits)
          | null | bool | float | str | arr | obj => cases fits
        · rw [dictHas, Assoc.contains, sent, Option.isSome_some]
      · cases revised

/-- A lifetime that is left out is stored as the current config has it, and not at all where
that has none. -/
theorem ttl_omitted {field : String}
    (accepted : Accepted environ current body limits settled saved)
    (member : ttlRule environ current field ∈ limitRules environ current)
    (omitted : Assoc.get? body (lit field) = none) :
    Assoc.get? saved (lit field) =
      if dictGet current field = .null then none else some (dictGet current field) := by
  obtain ⟨kept, revised, after⟩ := accepted.limit member
  dsimp only [ttlRule] at revised after
  rw [omitted] at revised after
  rw [after, Option.or_none]
  dsimp only [preservedIfSet] at revised
  cases old : dictGet current field with
  | null =>
      rw [old] at revised
      exact (Except.ok.inj revised).symm
  | bool | int | float | str | arr | obj =>
      rw [old] at revised
      exact (Except.ok.inj revised).symm

/-- A lifetime that is sent is stored as the number it reads as. -/
theorem ttl_sent {field : String} {value : Json}
    (accepted : Accepted environ current body limits settled saved)
    (member : ttlRule environ current field ∈ limitRules environ current)
    (sent : Assoc.get? body (lit field) = some value) :
    ∃ seconds, Assoc.get? saved (lit field) = some (.int seconds) ∧
      Within presignedUrlMinTtl presignedUrlHardCeiling seconds := by
  obtain ⟨kept, revised, after⟩ := accepted.limit member
  dsimp only [ttlRule] at revised after
  rw [sent] at revised after
  obtain ⟨seconds, read, rest⟩ := bind_eq_ok_iff.mp revised
  split_ifs at rest with outside
  · cases rest
  · obtain rfl := Except.ok.inj rest
    simp only [Bool.or_eq_true, decide_eq_true_eq, not_or] at outside
    exact ⟨seconds, after, Int.not_lt.mp outside.1, Int.not_lt.mp outside.2⟩

theorem ttl_iff {field envName : String}
    (accepted : Accepted environ current body limits settled saved)
    (member : ttlRule environ current field ∈ limitRules environ current) :
    LastsMinute environ (ttlSetting environ saved field envName) ↔
      dictHas body field = true ∨
        LastsMinute environ (ttlSetting environ current field envName) := by
  cases sent : Assoc.get? body (lit field) with
  | none =>
      have stored : dictGet saved field = dictGet current field := by
        rw [dictGet, ttl_omitted accepted member sent]
        split_ifs with unset
        · exact unset.symm
        · rfl
      have same : ttlSetting environ saved field envName = ttlSetting environ current field envName := by
        rw [ttlSetting, stored, ttlSetting]
      rw [same, dictHas, Assoc.contains, sent]
      simp
  | some value =>
      obtain ⟨seconds, after, within⟩ := ttl_sent accepted member sent
      have setting : ttlSetting environ saved field envName = .int seconds := by
        rw [ttlSetting, dictGet, after, Option.getD_some]
      refine iff_of_true ?_ (.inl ?_)
      · rw [setting]
        refine ⟨?_, ?_⟩
        · rintro ⟨exc, fails, _⟩
          cases fails
        · intro number read
          obtain rfl := Except.ok.inj read
          exact within.1
      · rw [dictHas, Assoc.contains, sent, Option.isSome_some]

/-- The tool has no maximum of its own to fall back on but where the config has none. -/
theorem toolTtl_iff (accepted : Accepted environ current body limits settled saved)
    (member : ttlRule environ current "presigned_url_max_ttl" ∈ limitRules environ current) :
    ReadsWithin presignedUrlMinTtl presignedUrlHardCeiling
        (toolLimit environ saved "presigned_url_max_ttl" 604800) ↔
      dictHas body "presigned_url_max_ttl" = true ∨
        dictGet current "presigned_url_max_ttl" = .null ∨
          ReadsWithin presignedUrlMinTtl presignedUrlHardCeiling
            (pyInt environ.unicode (dictGet current "presigned_url_max_ttl")) := by
  unfold toolLimit dictGetD
  cases sent : Assoc.get? body (lit "presigned_url_max_ttl") with
  | none =>
      rw [ttl_omitted accepted member sent, dictHas, Assoc.contains, sent]
      split_ifs with unset
      · refine iff_of_true ⟨604800, rfl, ?_⟩ (.inr (.inl unset))
        exact ⟨by decide, by decide⟩
      · simp [unset]
  | some value =>
      obtain ⟨seconds, after, within⟩ := ttl_sent accepted member sent
      rw [after, Option.getD_some]
      refine iff_of_true ⟨seconds, rfl, within⟩ (.inl ?_)
      rw [dictHas, Assoc.contains, sent, Option.isSome_some]

theorem resolves_iff {config : Dict} :
    (∃ ttls, resolvePresignedTtls environ config = .ok ttls ∧
      Within presignedUrlMinTtl presignedUrlHardCeiling ttls.1 ∧
      Within presignedUrlMinTtl presignedUrlHardCeiling ttls.2) ↔
      LastsMinute environ (maxTtlSetting environ config) ∧
        LastsMinute environ (defaultTtlSetting environ config) := by
  constructor
  · rintro ⟨⟨defaultTtl, maxTtl⟩, resolved, shortest, floor⟩
    obtain ⟨rawMax, rawDefault, readMax, readDefault, _, _⟩ :=
      resolvePresignedTtls_eq_ok_iff.mp resolved
    have bounded {value : Json} {fallback seconds : Int}
        (read : coerceTtl environ value fallback = .ok seconds) : ¬ Unbounded environ value := by
      intro unbounded
      obtain ⟨exc, fails⟩ := @coerceTtl_raises environ value fallback unbounded
      rw [read] at fails
      cases fails
    obtain ⟨minute, minuteMax⟩ := (defaultTtl_floor resolved).mp shortest.1
    exact ⟨⟨bounded readMax, minuteMax⟩, bounded readDefault, minute⟩
  · rintro ⟨⟨boundedMax, minuteMax⟩, boundedDefault, minuteDefault⟩
    have coerced {value : Json} (bounded : ¬ Unbounded environ value) (fallback : Int) :
        ∃ seconds, coerceTtl environ value fallback = .ok seconds := by
      cases read : pyInt environ.unicode value with
      | ok seconds => exact ⟨seconds, coerceTtl_reads read⟩
      | error exc => exact ⟨fallback, coerceTtl_falls read bounded⟩
    obtain ⟨rawMax, readMax⟩ := coerced boundedMax defaultPresignedUrlMaxTtl
    obtain ⟨rawDefault, readDefault⟩ := coerced boundedDefault defaultPresignedUrlDefaultTtl
    have resolved := resolvePresignedTtls_eq_ok_iff.mpr
      ⟨rawMax, rawDefault, readMax, readDefault, rfl, rfl⟩
    obtain ⟨below, ceiling⟩ := resolved_le resolved
    exact ⟨_, resolved,
      ⟨(defaultTtl_floor resolved).mpr ⟨minuteDefault, minuteMax⟩, Int.le_trans below ceiling⟩,
      (maxTtl_floor resolved).mpr minuteMax, ceiling⟩

theorem listPages_iff {config : Dict} :
    (∃ limits, Mcp.listPageLimits environ.unicode config = .ok limits ∧
      Within 1 10000 limits.1 ∧ Within 1 10000 limits.2) ↔
      (∃ size, toolLimit environ config "mcp_list_page_size" 1000 = .ok size ∧ size ≤ 10000) ∧
        ∃ size, toolLimit environ config "mcp_list_max_page_size" 10000 = .ok size ∧
          size ≤ 10000 := by
  unfold Mcp.listPageLimits toolLimit
  constructor
  · rintro ⟨limits, read, page, most⟩
    obtain ⟨pageSize, readPage, rest⟩ := bind_eq_ok_iff.mp read
    obtain ⟨ceiling, readCeiling, rest⟩ := bind_eq_ok_iff.mp rest
    obtain rfl := Except.ok.inj rest
    exact ⟨⟨pageSize, readPage, Int.le_trans (Int.le_max_right ..) page.2⟩,
      ceiling, readCeiling, Int.le_trans (Int.le_max_right ..) most.2⟩
  · rintro ⟨⟨pageSize, readPage, page⟩, ceiling, readCeiling, most⟩
    refine ⟨(max 1 pageSize, max 1 ceiling), ?_, ⟨Int.le_max_left .., ?_⟩, Int.le_max_left .., ?_⟩
    · rw [readPage, result_bind_ok, readCeiling, result_bind_ok]
    · exact Int.max_le.mpr ⟨by decide, page⟩
    · exact Int.max_le.mpr ⟨by decide, most⟩

end Limits

section Safety

variable {environ : Environ} {current body saved : Dict} {isAdmin writable : Bool}

theorem shared_untouched {limits settled : Dict}
    (accepted : Accepted environ current body limits settled saved) :
    dictGet saved "shared_bucket" = dictGet body "shared_bucket" := by
  rw [dictGet, accepted.settled (by decide), accepted.untouched
    (by rw [limitRules_keys]; decide) (by rw [serverRules_keys]; decide), dictGet]

theorem safe_entries (updated : updateConfig environ current isAdmin writable body = .ok saved)
    (safe : SafeForReaders environ saved) : EntriesReadable body := by
  obtain ⟨limits, settled, accepted⟩ := accepted_of_update updated
  obtain ⟨roles, _, stored⟩ := accepted.stored
  exact (entriesReadable_iff (shared_untouched accepted) stored).mp
    (entriesReadable_of_denies safe.gate)

/-- What an accepted save stores is safe for its readers iff the request was sound. -/
theorem accepted_safe_iff
    (updated : updateConfig environ current isAdmin writable body = .ok saved) :
    SafeForReaders environ saved ↔ SoundUpdate environ current body := by
  obtain ⟨limits, settled, accepted⟩ := accepted_of_update updated
  obtain ⟨roles, _, stored⟩ := accepted.stored
  have entries := entriesReadable_iff (shared_untouched accepted) stored
  have first := firstReadable_iff stored
  have fileSize := fileSize_iff accepted
  have maxTtl : LastsMinute environ (maxTtlSetting environ saved) ↔ _ :=
    ttl_iff accepted (by simp only [limitRules, List.mem_cons, true_or, or_true])
  have toolTtl := toolTtl_iff accepted (by simp only [limitRules, List.mem_cons, true_or, or_true])
  have defaultTtl : LastsMinute environ (defaultTtlSetting environ saved) ↔ _ :=
    ttl_iff accepted (by simp only [limitRules, List.mem_cons, true_or, or_true])
  have pageSize := @toolLimit_iff environ current body limits settled saved
    "mcp_list_page_size" "1..10000" 1 10000 1000
    (fun value => ∃ size, pyInt environ.unicode value = .ok size ∧ size ≤ 10000) accepted
    (by simp only [serverRules, List.mem_cons, true_or, or_true])
    fun value within => ⟨value, rfl, within.2⟩
  have maxPageSize := @toolLimit_iff environ current body limits settled saved
    "mcp_list_max_page_size" "1..10000" 1 10000 10000
    (fun value => ∃ size, pyInt environ.unicode value = .ok size ∧ size ≤ 10000) accepted
    (by simp only [serverRules, List.mem_cons, true_or, or_true])
    fun value within => ⟨value, rfl, within.2⟩
  have summaryKeys := @toolLimit_iff environ current body limits settled saved
    "mcp_summary_max_keys" "1000..1000000" 1000 1000000 50000
    (fun value => ReadsWithin 1000 1000000 (pyInt environ.unicode value)) accepted
    (by simp only [serverRules, List.mem_cons, true_or, or_true])
    fun value within => ⟨value, rfl, within⟩
  have summaryPages := @toolLimit_iff environ current body limits settled saved
    "mcp_summary_prefix_scan_pages" "1..200" 1 200 20
    (fun value => ReadsWithin 1 200 (pyInt environ.unicode value)) accepted
    (by simp only [serverRules, List.mem_cons, true_or, or_true])
    fun value within => ⟨value, rfl, within⟩
  have readBytes := @toolLimit_iff environ current body limits settled saved
    "mcp_global_max_read_bytes" "1..10485760" 1 10485760 10485760
    (fun value => ∃ cap, value = .int cap ∧ Within 1 10485760 cap) accepted
    (by simp only [serverRules, List.mem_cons, true_or, or_true])
    fun value within => ⟨value, rfl, within⟩
  constructor
  · intro safe
    obtain ⟨maxLasts, defaultLasts⟩ := resolves_iff.mp safe.ttls
    obtain ⟨page, most⟩ := listPages_iff.mp safe.listPages
    exact {
      entries := entries.mp (entriesReadable_of_denies safe.gate)
      first := first.mp (firstReadable_of_denies safe.buckets)
      fileSize := fileSize.mp safe.fileSize
      maxTtl := maxTtl.mp maxLasts
      toolTtl := toolTtl.mp safe.toolTtl
      defaultTtl := defaultTtl.mp defaultLasts
      pageSize := pageSize.mp page
      maxPageSize := maxPageSize.mp most
      summaryKeys := summaryKeys.mp safe.summaryKeys
      summaryPages := summaryPages.mp safe.summaryPages
      readBytes := readBytes.mp safe.readBytes }
  · intro sound
    have readable := entries.mpr sound.entries
    exact {
      gate := fun _ _ _ _ => validateStorageAccess_denies readable
      listing := fun _ _ _ _ => prepareListPath_denies readable
      buckets := fun _ _ => bucketLookup_denies readable (first.mpr sound.first)
      fileSize := fileSize.mpr sound.fileSize
      ttls := resolves_iff.mpr ⟨maxTtl.mpr sound.maxTtl, defaultTtl.mpr sound.defaultTtl⟩
      toolTtl := toolTtl.mpr sound.toolTtl
      listPages := listPages_iff.mpr ⟨pageSize.mpr sound.pageSize, maxPageSize.mpr sound.maxPageSize⟩
      summaryKeys := summaryKeys.mpr sound.summaryKeys
      summaryPages := summaryPages.mpr sound.summaryPages
      readBytes := readBytes.mpr sound.readBytes }

theorem ok_of_isOk {α : Type} {result : Result α} (succeeds : result.isOk = true) :
    ∃ value, result = .ok value := by
  cases result with
  | ok value => exact ⟨value, rfl⟩
  | error exc => cases succeeds

/-- A request for one role, with the limits of the tools. -/
def requestFor (role : Dict) : Dict :=
  [(lit "roles", .arr [.obj role]), (lit "mcp_list_page_size", .int 1000),
    (lit "mcp_list_max_page_size", .int 10000), (lit "mcp_summary_max_keys", .int 50000),
    (lit "mcp_summary_prefix_scan_pages", .int 20),
    (lit "mcp_global_max_read_bytes", .int 10485760)]

def standRole (buckets : Json) : Dict :=
  [(lit "name", .str (lit "stand")), (lit "type", .str (lit "default")),
    (lit "allowed_buckets", buckets)]

theorem standRole_found (buckets : Json) (name : Option Str) :
    ∃ found, findRole (requestFor (standRole buckets)) name = .ok found ∧
      ∀ entry, found = some entry → entry = standRole buckets := by
  have entries : findRole (requestFor (standRole buckets)) name =
      nextRole name [.obj (standRole buckets)] := rfl
  rw [entries]
  unfold nextRole
  split_ifs
  · exact ⟨_, rfl, fun _ same => (Option.some.inj same).symm⟩
  · exact ⟨none, rfl, by simp⟩

theorem accepted_safe_listed :
    ∃ saved, updateConfig bareEnviron [] true true
        (requestFor (standRole (.arr [.str (lit "data")]))) = .ok saved ∧
      SafeForReaders bareEnviron saved := by
  obtain ⟨saved, updated⟩ := @ok_of_isOk _ (updateConfig bareEnviron [] true true
    (requestFor (standRole (.arr [.str (lit "data")])))) (by decide)
  refine ⟨saved, updated, (accepted_safe_iff updated).mpr ?_⟩
  have unset : LastsMinute bareEnviron .null := by
    refine ⟨?_, fun seconds read => by cases read⟩
    rintro ⟨exc, ⟨⟩, kind⟩
    cases kind
  exact {
    entries := by
      intro name
      obtain ⟨found, searched, only⟩ := standRole_found (.arr [.str (lit "data")]) name
      refine ⟨found, searched, fun entry same => ?_⟩
      rw [only entry same]
      exact ⟨.inr ⟨_, rfl⟩, fun list listed => by cases listed⟩
    first := ⟨_, rfl, fun _ => ⟨_, rfl, .inr ⟨_, rfl⟩⟩⟩
    fileSize := .inr ⟨_, rfl, by decide⟩
    maxTtl := .inr unset
    toolTtl := .inr (.inl rfl)
    defaultTtl := .inr unset
    pageSize := .inl (by decide)
    maxPageSize := .inl (by decide)
    summaryKeys := .inl (by decide)
    summaryPages := .inl (by decide)
    readBytes := .inl (by decide) }

/-- A bucket in place of a bucket list is accepted, and stops every request of the role. -/
theorem bucket_text_accepted :
    ∃ saved, updateConfig bareEnviron [] true true
        (requestFor (standRole (.str (lit "data")))) = .ok saved ∧
      ¬ SafeForReaders bareEnviron saved := by
  obtain ⟨saved, updated⟩ := @ok_of_isOk _ (updateConfig bareEnviron [] true true
    (requestFor (standRole (.str (lit "data"))))) (by decide)
  refine ⟨saved, updated, fun safe => ?_⟩
  obtain ⟨found, searched, readable⟩ := safe_entries updated safe (some (lit "stand"))
  obtain rfl := Except.ok.inj searched
  obtain null | ⟨items, listed⟩ := (readable _ rfl).buckets
  · cases null
  · cases listed

end Safety

end S3Manager.Web
