import S3Manager.Clients.Resolve

/-! What the readers of a role entry raise: a denial, unless the entry has fields of the
wrong types. -/

set_option autoImplicit false

namespace S3Manager.Access

open Python Utils Clients

/-- Whatever is raised is a `PermissionError`. -/
def OnlyDenies {α : Type} (result : Result α) : Prop :=
  ∀ exc, result = .error exc → exc.kind = .permissionError

section OnlyDenies

variable {α β : Type}

theorem OnlyDenies.ok (value : α) : OnlyDenies (.ok value : Result α) := fun _ fails => by
  cases fails

theorem OnlyDenies.denied (message : Str) :
    OnlyDenies (raise .permissionError message : Result α) := fun _ fails => by
  cases fails
  rfl

theorem OnlyDenies.bind {first : Result α} {next : α → Result β} (denies : OnlyDenies first)
    (then_ : ∀ value, first = .ok value → OnlyDenies (next value)) :
    OnlyDenies (first >>= next) := by
  cases first with
  | error exc =>
      intro other fails
      obtain rfl : exc = other := Except.error.inj fails
      exact denies exc rfl
  | ok value => exact then_ value rfl

theorem OnlyDenies.left {first : Result α} {next : α → Result β}
    (denies : OnlyDenies (first >>= next)) : OnlyDenies first := by
  rintro exc rfl
  exact denies exc rfl

end OnlyDenies

/-- The lookup of `list_buckets_for_role`; `none` sends it to S3. -/
def bucketLookup (config : Dict) (role : Option Str) (user : UserDict) :
    Result (Option (List Json)) := do
  let validated ← validateRoleAccess role user
  match ← shownRole config validated with
  | some roleConfig => roleAllowedBuckets roleConfig config
  | none => .ok none

section Entries

def ListOrNull (value : Json) : Prop :=
  value = .null ∨ ∃ items, value = .arr items

def StringOrFalsy (value : Json) : Prop :=
  (∃ text, value = .str text) ∨ value.truthy = false

/-- The bucket check lets the bucket through. -/
def Admits (config entry : Dict) (bucket : Str) : Prop :=
  ∀ allowed, roleAllowedBuckets entry config = .ok (some allowed) → .str bucket ∈ allowed

/-- The fields that the gate reads have the types it expects. The prefixes matter only
when some bucket gets that far. -/
structure Readable (config entry : Dict) : Prop where
  buckets : ListOrNull (dictGet entry "allowed_buckets")
  prefixes : ∀ list, dictGet entry "allowed_prefixes" = .arr list →
    (∃ bucket, Admits config entry bucket) → ∀ allowed ∈ list, StringOrFalsy allowed

variable {config entry : Dict} {role validated : Option Str} {user : UserDict}
  {bucket key : Str} {prefixes : List Json}

theorem roleAllowedBuckets_ok_iff :
    (∃ allowed, roleAllowedBuckets entry config = .ok allowed) ↔
      ListOrNull (dictGet entry "allowed_buckets") := by
  unfold roleAllowedBuckets ListOrNull
  cases dictGet entry "allowed_buckets" with
  | arr items => cases items <;> simp
  | null => simp
  | bool | int | float | str | obj => simp [raise]

theorem roleAllowedBuckets_denies_iff :
    OnlyDenies (roleAllowedBuckets entry config) ↔
      ListOrNull (dictGet entry "allowed_buckets") := by
  rw [← roleAllowedBuckets_ok_iff]
  constructor
  · intro denies
    unfold roleAllowedBuckets at denies ⊢
    cases kind : dictGet entry "allowed_buckets" with
    | arr items => cases items <;> exact ⟨_, rfl⟩
    | null => exact ⟨_, rfl⟩
    | bool | int | float | str | obj =>
        rw [kind] at denies
        cases denies _ rfl
  · rintro ⟨allowed, read⟩
    rw [read]
    exact .ok allowed

theorem validateRoleAccess_denies : OnlyDenies (validateRoleAccess role user) := by
  unfold validateRoleAccess
  split
  · exact .ok role
  · dsimp only
    split
    · exact .denied _
    · split
      · exact .ok _
      · exact .denied _

theorem checkBucket_denies {allowed : Option (List Json)} :
    OnlyDenies (checkBucket allowed bucket validated) := by
  unfold checkBucket
  split
  · exact .ok ()
  · split
    · exact .ok ()
    · exact .denied _

theorem roleAllowedPrefixes_denies : OnlyDenies (roleAllowedPrefixes entry) := by
  unfold roleAllowedPrefixes
  split
  · exact .ok none
  · exact .ok _
  · exact .denied _

theorem normalizeAccessKey_denies : OnlyDenies (normalizeAccessKey key) := by
  unfold normalizeAccessKey
  split
  · exact .ok []
  · split
    · exact .denied _
    · split
      · exact .ok _
      · intro exc fails
        obtain rfl := Except.error.inj fails
        rfl

theorem anyPrefixAllows_total (readable : ∀ allowed ∈ prefixes, StringOrFalsy allowed) :
    ∃ allows, anyPrefixAllows key prefixes = .ok allows := by
  induction prefixes with
  | nil => exact ⟨false, rfl⟩
  | cons first rest ih =>
      obtain ⟨later, allows⟩ := ih fun allowed member =>
        readable allowed (List.mem_cons_of_mem _ member)
      have here : ∃ within, keyWithinAllowedPrefix key first = .ok within := by
        obtain ⟨text, rfl⟩ | falsy := readable first List.mem_cons_self
        · exact ⟨_, rfl⟩
        · unfold keyWithinAllowedPrefix
          split
          · exact ⟨_, rfl⟩
          · rw [falsy]
            exact ⟨_, rfl⟩
      obtain ⟨within, checked⟩ := here
      rw [anyPrefixAllows, checked, result_bind_ok]
      cases within with
      | true => exact ⟨true, rfl⟩
      | false => exact ⟨later, allows⟩

/-- The empty key is under no prefix, so every entry is looked at. -/
theorem anyPrefixAllows_empty (denies : OnlyDenies (anyPrefixAllows [] prefixes)) :
    ∀ allowed ∈ prefixes, StringOrFalsy allowed := by
  induction prefixes with
  | nil => simp
  | cons first rest ih =>
      have none {text : Str} : keyWithinPrefix [] text = false := by
        simp [keyWithinPrefix]
      cases first with
      | str text =>
          rw [anyPrefixAllows, keyWithinAllowedPrefix, none, result_bind_ok] at denies
          exact List.forall_mem_cons.mpr ⟨.inl ⟨text, rfl⟩, ih denies⟩
      | null | bool | int | float | arr | obj =>
          simp only [anyPrefixAllows, keyWithinAllowedPrefix] at denies
          split_ifs at denies with present
          · cases denies _ rfl
          · exact List.forall_mem_cons.mpr ⟨.inr (by simpa using present), ih denies⟩

end Entries

section Gate

variable {config entry : Dict} {role validated : Option Str} {user : UserDict}
  {bucket key path : Str} {prefixes : List Json}

theorem checkPrefixes_denies (readable : ∀ allowed ∈ prefixes, StringOrFalsy allowed) :
    OnlyDenies (checkPrefixes prefixes key validated) := by
  refine normalizeAccessKey_denies.bind fun normal _ => ?_
  obtain ⟨allows, checked⟩ := @anyPrefixAllows_total normal prefixes readable
  rw [checked, result_bind_ok]
  cases allows with
  | true => exact .ok ()
  | false => exact .denied _

theorem admits_of_passed {allowed : Option (List Json)}
    (read : roleAllowedBuckets entry config = .ok allowed)
    (passed : checkBucket allowed bucket validated = .ok ()) : Admits config entry bucket := by
  intro list listed
  obtain rfl := Except.ok.inj (read.symm.trans listed)
  exact checkBucket_ok_iff.mp passed list rfl

theorem readable_prefixes {list : List Json} (readable : Readable config entry)
    (read : roleAllowedPrefixes entry = .ok (some list)) (admits : Admits config entry bucket) :
    ∀ allowed ∈ list, StringOrFalsy allowed := by
  refine readable.prefixes list ?_ ⟨bucket, admits⟩
  unfold roleAllowedPrefixes at read
  cases kind : dictGet entry "allowed_prefixes" with
  | arr items =>
      rw [kind] at read
      rw [Option.some.inj (Except.ok.inj read)]
  | null | bool | int | float | str | obj =>
      rw [kind] at read
      cases read

/-- Every role that can be looked up has an entry that can be read, or none. -/
def EntriesReadable (config : Dict) : Prop :=
  ∀ name, ∃ found, findRole config name = .ok found ∧
    ∀ entry, found = some entry → Readable config entry

theorem validateStorageAccess_denies (readable : EntriesReadable config) :
    OnlyDenies (validateStorageAccess config role bucket user key) := by
  refine validateRoleAccess_denies.bind fun validated _ => ?_
  obtain ⟨found, searched, entries⟩ := readable validated
  rw [searched, result_bind_ok]
  cases found with
  | none => exact .ok validated
  | some entry =>
      have readableEntry := entries entry rfl
      refine (roleAllowedBuckets_denies_iff.mpr readableEntry.buckets).bind fun allowed read => ?_
      refine checkBucket_denies.bind fun _ passed => ?_
      refine roleAllowedPrefixes_denies.bind fun limits scope => ?_
      cases limits with
      | none => exact .ok validated
      | some list =>
          have strings := readable_prefixes readableEntry scope (admits_of_passed read passed)
          exact (checkPrefixes_denies strings).bind fun _ _ => .ok validated

theorem prepareListPath_denies {unicode : Unicode} (readable : EntriesReadable config) :
    OnlyDenies (prepareListPath unicode config role bucket user path) := by
  refine validateRoleAccess_denies.bind fun validated _ => ?_
  obtain ⟨found, searched, entries⟩ := readable validated
  rw [searched, result_bind_ok]
  cases found with
  | none => exact .ok _
  | some entry =>
      refine (roleAllowedBuckets_denies_iff.mpr (entries entry rfl).buckets).bind fun _ _ => ?_
      refine checkBucket_denies.bind fun _ _ => ?_
      refine roleAllowedPrefixes_denies.bind fun limits _ => ?_
      cases limits with
      | none => exact .ok _
      | some list =>
          dsimp only
          split
          · split
            · exact (validateStorageAccess_denies readable).bind fun _ _ => .denied _
            · exact (validateStorageAccess_denies readable).bind fun _ _ => .ok _
            · exact .ok _
          · exact (validateStorageAccess_denies readable).bind fun _ _ => .ok _

theorem findRole_error {exc : PyError} (fails : findRole config role = .error exc) :
    exc.kind ≠ .permissionError := by
  have entries {roles : List Json} (failed : nextRole role roles = .error exc) :
      exc.kind ≠ .permissionError := by
    induction roles with
    | nil => cases failed
    | cons first rest ih =>
        cases first with
        | obj fields =>
            simp only [nextRole] at failed
            split_ifs at failed
            exact ih failed
        | null | bool | int | float | str | arr =>
            cases failed
            decide
  unfold findRole at fails
  cases kind : configRoles config with
  | arr | obj | str =>
      rw [kind] at fails
      exact entries fails
  | null | bool | int | float =>
      rw [kind] at fails
      cases fails
      decide

/-- An administrator may name any role, so the gate meets every entry that can be
looked up; and the empty key gets to every prefix. -/
theorem entriesReadable_of_denies
    (denies : ∀ role bucket user key, OnlyDenies (validateStorageAccess config role bucket user key)) :
    EntriesReadable config := by
  intro name
  have asked (bucket key : Str) :=
    denies name bucket { isAdmin := true, allowedRoles := [], defaultRole := none } key
  have admin : validateRoleAccess name
      { isAdmin := true, allowedRoles := [], defaultRole := none } = .ok name :=
    validateRoleAccess_admin rfl
  unfold validateStorageAccess at asked
  simp only [admin, result_bind_ok] at asked
  cases searched : findRole config name with
  | error exc =>
      simp only [searched] at asked
      exact absurd (asked [] [] exc rfl) (findRole_error searched)
  | ok found =>
      refine ⟨found, rfl, ?_⟩
      rintro entry rfl
      simp only [searched, result_bind_ok] at asked
      refine ⟨roleAllowedBuckets_denies_iff.mp (asked [] []).left, fun list prefixes passed => ?_⟩
      obtain ⟨bucket, admits⟩ := passed
      have deniesEmpty := asked bucket []
      obtain ⟨allowed, read⟩ := roleAllowedBuckets_ok_iff.mpr
        (roleAllowedBuckets_denies_iff.mp deniesEmpty.left)
      have open_ : checkBucket allowed bucket name = .ok () :=
        checkBucket_ok_iff.mpr fun buckets same => admits buckets (same ▸ read)
      have scope : roleAllowedPrefixes entry = .ok (some list) := by
        rw [roleAllowedPrefixes, prefixes]
      simp only [read, result_bind_ok, open_, scope] at deniesEmpty
      have checked := deniesEmpty.left
      have emptyKey : normalizeAccessKey [] = .ok [] := rfl
      rw [checkPrefixes, emptyKey, result_bind_ok] at checked
      exact anyPrefixAllows_empty checked.left

end Gate

section Lookup

variable {config : Dict} {role : Option Str} {user : UserDict}

/-- The first entry is an object with readable buckets, or there is none. -/
def FirstReadable (config : Dict) : Prop :=
  ∃ first, firstRole (configRoles config) = .ok first ∧
    (first.truthy = true → ∃ fields, first = .obj fields ∧
      ListOrNull (dictGet fields "allowed_buckets"))

theorem bucketLookup_denies (readable : EntriesReadable config) (first : FirstReadable config) :
    OnlyDenies (bucketLookup config role user) := by
  refine validateRoleAccess_denies.bind fun validated _ => ?_
  have shown : ∃ found, shownRole config validated = .ok found ∧
      ∀ entry, found = some entry → ListOrNull (dictGet entry "allowed_buckets") := by
    unfold shownRole
    by_cases present : namePresent validated = true
    · obtain ⟨found, searched, entries⟩ := readable validated
      rw [if_pos present, searched, result_bind_ok]
      cases found with
      | none => exact ⟨none, rfl, by simp⟩
      | some entry =>
          cases entry with
          | nil => exact ⟨none, rfl, by simp⟩
          | cons field rest =>
              refine ⟨_, rfl, ?_⟩
              rintro entry ⟨⟩
              exact (entries _ rfl).buckets
    · obtain ⟨entry, head, fields⟩ := first
      rw [if_neg present, head, result_bind_ok]
      by_cases there : entry.truthy = true
      · obtain ⟨fields, rfl, listed⟩ := fields there
        rw [if_pos there]
        refine ⟨_, rfl, ?_⟩
        rintro entry ⟨⟩
        exact listed
      · rw [if_neg there]
        exact ⟨none, rfl, by simp⟩
  obtain ⟨found, looked, listed⟩ := shown
  rw [looked, result_bind_ok]
  cases found with
  | none => exact .ok none
  | some entry => exact roleAllowedBuckets_denies_iff.mpr (listed entry rfl)

theorem firstRole_error {roles : Json} {exc : PyError} (fails : firstRole roles = .error exc) :
    exc.kind ≠ .permissionError := by
  unfold firstRole at fails
  split at fails
  · cases fails
  · cases fails
  · split_ifs at fails
    cases fails
    decide

theorem firstReadable_of_denies (denies : ∀ role user, OnlyDenies (bucketLookup config role user)) :
    FirstReadable config := by
  have asked := denies none { isAdmin := true, allowedRoles := [], defaultRole := none }
  have unnamed : namePresent none = false := rfl
  unfold bucketLookup at asked
  rw [validateRoleAccess_admin rfl, result_bind_ok, shownRole, unnamed, if_neg (by decide)] at asked
  cases head : firstRole (configRoles config) with
  | error exc =>
      rw [head] at asked
      exact absurd (asked exc rfl) (firstRole_error head)
  | ok entry =>
      refine ⟨entry, head, fun there => ?_⟩
      rw [head, result_bind_ok, if_pos there] at asked
      cases entry with
      | obj fields => exact ⟨fields, rfl, roleAllowedBuckets_denies_iff.mp asked⟩
      | null | bool | int | float | str | arr => cases asked _ rfl

end Lookup

end S3Manager.Access
