import S3Manager.Access.Roles

/-! The access gate of `s3_client.py`: `validate_storage_access` and the list
entry resolution `prepare_list_path` built on it. -/

set_option autoImplicit false

namespace S3Manager.Access

open Python Utils Library

def prefixAsListPath (raw : Str) : Str :=
  stripSlash (strip raw)

def normalizeAccessKey (raw : Str) : Result Str :=
  if raw.isEmpty then .ok []
  else if containsSub raw [':', '/', '/'] then
    raise .permissionError (lit "Access denied: absolute or URI keys are not allowed")
  else
    match sanitizePath raw with
    | .ok key => .ok key
    | .error exc =>
        .error (.raised .permissionError (lit "Access denied: " ++ exc.message) (some exc))

/-- The comparison of `key_within_allowed_prefix` once the entry is a string. -/
def keyWithinPrefix (key allowed : Str) : Bool :=
  let allowed := strip allowed
  if allowed.isEmpty then false
  else
    let allowed := if endsWith allowed ['/'] then allowed else allowed ++ ['/']
    if key.isEmpty then false
    else if key == allowed.dropLast then true
    else startsWith key allowed

/-- `key_within_allowed_prefix`: a falsy entry reads as `""`, and any other
entry that is no string has no `strip`. -/
def keyWithinAllowedPrefix (key : Str) (allowedPrefix : Json) : Result Bool :=
  match allowedPrefix with
  | .str allowed => .ok (keyWithinPrefix key allowed)
  | other =>
      if other.truthy then raise .attributeError (lit "object has no attribute 'strip'")
      else .ok false

/-- `any(key_within_allowed_prefix(key, p) for p in prefixes)` -/
def anyPrefixAllows (key : Str) : List Json → Result Bool
  | [] => .ok false
  | p :: rest => do
      if ← keyWithinAllowedPrefix key p then .ok true else anyPrefixAllows key rest

/-- Step 3 of the gate, for a role entry that carries `allowed_prefixes`. -/
def checkPrefixes (prefixes : List Json) (objectKey : Str) (validated : Option Str) :
    Result Unit := do
  let key ← normalizeAccessKey objectKey
  if ← anyPrefixAllows key prefixes then .ok ()
  else
    raise .permissionError (lit "prefix access denied: key '" ++ objectKey ++
      lit "' not under allowed_prefixes for role '" ++ showName validated ++ ['\''])

/-- Step 2 of the gate. -/
def checkBucket (allowedBuckets : Option (List Json)) (bucket : Str) (validated : Option Str) :
    Result Unit :=
  match allowedBuckets with
  | none => .ok ()
  | some allowed =>
      if .str bucket ∈ allowed then .ok ()
      else
        raise .permissionError (lit "bucket '" ++ bucket ++
          lit "' not in allowed_buckets for role '" ++ showName validated ++ ['\''])

def validateStorageAccess (config : Dict) (role : Option Str) (bucket : Str) (user : UserDict)
    (objectKey : Str) : Result (Option Str) := do
  let validated ← validateRoleAccess role user
  match ← findRole config validated with
  | none => .ok validated
  | some roleConfig =>
      let allowedBuckets ← roleAllowedBuckets roleConfig config
      checkBucket allowedBuckets bucket validated
      match ← roleAllowedPrefixes roleConfig with
      | none => .ok validated
      | some prefixes =>
          checkPrefixes prefixes objectKey validated
          .ok validated

/-- What an entry grants: the bucket, and the key after normalisation. -/
structure StorageCheck (config entry : Dict) (bucket key : Str) : Prop where
  bucketAllowed : ∃ allowed, roleAllowedBuckets entry config = .ok allowed ∧
    ∀ list, allowed = some list → .str bucket ∈ list
  keyAllowed : ∃ prefixes, roleAllowedPrefixes entry = .ok prefixes ∧
    ∀ list, prefixes = some list →
      ∃ normal, normalizeAccessKey key = .ok normal ∧ anyPrefixAllows normal list = .ok true

/-- One entry of a directory listing. -/
structure FileEntry where
  name : Str
  isDirectory : Bool
  size : Nat
  lastModified : Option Str
  deriving DecidableEq

/-- The entry `{"name": name, "is_directory": True, "size": 0}`. -/
def FileEntry.directory (name : Str) : FileEntry where
  name := name
  isDirectory := true
  size := 0
  lastModified := none

/-- What `prepare_list_path` returns. -/
structure ListEntry where
  effectivePath : Str
  virtualDirectories : Option (List FileEntry)
  validatedRole : Option Str

/-- The normal forms of the string entries that name a directory at all. -/
def prefixNorms (prefixes : List Json) : List Str :=
  prefixes.filterMap fun
    | .str p => if (prefixAsListPath p).isEmpty then none else some (prefixAsListPath p)
    | _ => none

/-- `sorted(set(names), key=str.lower)` -/
def sortedNames (unicode : Unicode) (names : List Str) : List Str :=
  names.dedup.mergeSort fun left right => decide (unicode.lower left ≤ unicode.lower right)

def prepareListPath (unicode : Unicode) (config : Dict) (role : Option Str) (bucket : Str)
    (user : UserDict) (path : Str) : Result ListEntry := do
  let validated ← validateRoleAccess role user
  match ← findRole config validated with
  | none => .ok ⟨path, none, validated⟩
  | some roleConfig =>
      let allowedBuckets ← roleAllowedBuckets roleConfig config
      checkBucket allowedBuckets bucket validated
      match ← roleAllowedPrefixes roleConfig with
      | none => .ok ⟨path, none, validated⟩
      | some prefixes =>
          if path.isEmpty then
            match prefixNorms prefixes with
            | [] =>
                let _ ← validateStorageAccess config validated bucket user []
                raise .permissionError
                  (lit "prefix access denied: key '' not under allowed_prefixes for role '" ++
                    showName validated ++ ['\''])
            | [effective] =>
                let _ ← validateStorageAccess config validated bucket user effective
                .ok ⟨effective, none, validated⟩
            | norms =>
                .ok ⟨[], some ((sortedNames unicode norms).map .directory), validated⟩
          else
            let _ ← validateStorageAccess config validated bucket user path
            .ok ⟨path, none, validated⟩

section Laws

theorem checkBucket_ok_iff {allowed : Option (List Json)} {bucket : Str} {validated : Option Str} :
    checkBucket allowed bucket validated = .ok () ↔
      ∀ list, allowed = some list → .str bucket ∈ list := by
  cases allowed with
  | none => simp [checkBucket]
  | some list => by_cases member : .str bucket ∈ list <;> simp [checkBucket, member, raise]

theorem checkPrefixes_ok_iff {prefixes : List Json} {key : Str} {validated : Option Str} :
    checkPrefixes prefixes key validated = .ok () ↔
      ∃ normal, normalizeAccessKey key = .ok normal ∧
        anyPrefixAllows normal prefixes = .ok true := by
  simp only [checkPrefixes, bind_eq_ok_iff]
  constructor
  · rintro ⟨normal, normalized, allows, checked, rest⟩
    cases allows with
    | false => simp [raise] at rest
    | true => exact ⟨normal, normalized, checked⟩
  · rintro ⟨normal, normalized, checked⟩
    exact ⟨normal, normalized, true, checked, rfl⟩

/-- The gate accepts exactly the roles a user may name, with the grant checked
whenever an entry of that name exists. -/
theorem validateStorageAccess_ok_iff {config : Dict} {role validated : Option Str}
    {bucket key : Str} {user : UserDict} :
    validateStorageAccess config role bucket user key = .ok validated ↔
      validateRoleAccess role user = .ok validated ∧
        ∃ found, findRole config validated = .ok found ∧
          ∀ entry, found = some entry → StorageCheck config entry bucket key := by
  simp only [validateStorageAccess, bind_eq_ok_iff]
  constructor
  · rintro ⟨resolved, checked, found, searched, rest⟩
    cases found with
    | none =>
        obtain rfl := Except.ok.inj rest
        exact ⟨checked, none, searched, by simp⟩
    | some entry =>
        obtain ⟨allowed, granted, ⟨⟩, bucketOk, prefixes, read, rest⟩ := by
          simpa only [bind_eq_ok_iff] using rest
        have bucketAllowed := checkBucket_ok_iff.mp bucketOk
        cases prefixes with
        | none =>
            obtain rfl := Except.ok.inj rest
            refine ⟨checked, some entry, searched, fun _ same => ?_⟩
            obtain rfl := Option.some.inj same
            exact ⟨⟨allowed, granted, bucketAllowed⟩, none, read, by simp⟩
        | some list =>
            obtain ⟨⟨⟩, prefixOk, rest⟩ := bind_eq_ok_iff.mp rest
            obtain rfl := Except.ok.inj rest
            refine ⟨checked, some entry, searched, fun _ same => ?_⟩
            obtain rfl := Option.some.inj same
            refine ⟨⟨allowed, granted, bucketAllowed⟩, some list, read, fun _ same => ?_⟩
            obtain rfl := Option.some.inj same
            exact checkPrefixes_ok_iff.mp prefixOk
  · rintro ⟨checked, found, searched, grants⟩
    refine ⟨validated, checked, found, searched, ?_⟩
    cases found with
    | none => rfl
    | some entry =>
        obtain ⟨⟨allowed, granted, bucketAllowed⟩, prefixes, read, keyAllowed⟩ := grants entry rfl
        simp only [granted, checkBucket_ok_iff.mpr bucketAllowed, read, result_bind_ok]
        cases prefixes with
        | none => rfl
        | some list =>
            simp only [checkPrefixes_ok_iff.mpr (keyAllowed list rfl), result_bind_ok]

theorem prepareListPath_grants {unicode : Unicode} {config : Dict} {role : Option Str}
    {bucket path : Str} {user : UserDict} {listing : ListEntry}
    (prepared : prepareListPath unicode config role bucket user path = .ok listing)
    (real : listing.virtualDirectories = none) :
    validateRoleAccess role user = .ok listing.validatedRole ∧
      ∃ found, findRole config listing.validatedRole = .ok found ∧
        ∀ entry, found = some entry → StorageCheck config entry bucket listing.effectivePath := by
  obtain ⟨validated, checked, rest⟩ := bind_eq_ok_iff.mp prepared
  obtain ⟨found, searched, rest⟩ := bind_eq_ok_iff.mp rest
  cases found with
  | none =>
      obtain rfl := Except.ok.inj rest
      exact ⟨checked, none, searched, by simp⟩
  | some entry =>
      obtain ⟨allowed, granted, rest⟩ := bind_eq_ok_iff.mp rest
      obtain ⟨_, bucketOk, rest⟩ := bind_eq_ok_iff.mp rest
      obtain ⟨prefixes, read, rest⟩ := bind_eq_ok_iff.mp rest
      have bucketAllowed := checkBucket_ok_iff.mp bucketOk
      cases prefixes with
      | none =>
          obtain rfl := Except.ok.inj rest
          refine ⟨checked, some entry, searched, fun _ same => ?_⟩
          obtain rfl := Option.some.inj same
          exact ⟨⟨allowed, granted, bucketAllowed⟩, none, read, by simp⟩
      | some list =>
          -- The gate is asked again, for the path that will be listed.
          have granted_of_gate {again : Option Str} {effective : Str}
              (accepted : validateStorageAccess config validated bucket user effective = .ok again)
              (entry' : Dict) (same : some entry = some entry') :
              StorageCheck config entry' bucket effective := by
            obtain ⟨revalidated, found', searched', grants⟩ :=
              validateStorageAccess_ok_iff.mp accepted
            rw [validateRoleAccess_validated checked] at revalidated
            obtain rfl := Except.ok.inj revalidated
            rw [searched] at searched'
            obtain rfl := Except.ok.inj searched'
            exact grants entry' same
          dsimp only at rest
          split at rest
          · split at rest
            · obtain ⟨_, _, rest⟩ := bind_eq_ok_iff.mp rest
              simp [raise] at rest
            · obtain ⟨_, accepted, rest⟩ := bind_eq_ok_iff.mp rest
              obtain rfl := Except.ok.inj rest
              exact ⟨checked, some entry, searched, granted_of_gate accepted⟩
            · obtain rfl := Except.ok.inj rest
              simp at real
          · obtain ⟨_, accepted, rest⟩ := bind_eq_ok_iff.mp rest
            obtain rfl := Except.ok.inj rest
            exact ⟨checked, some entry, searched, granted_of_gate accepted⟩

/-- Only the root has virtual folders: one for each of the grants, when there are
several. -/
theorem prepareListPath_virtual {unicode : Unicode} {config : Dict} {role : Option Str}
    {bucket path : Str} {user : UserDict} {listing : ListEntry} {directories : List FileEntry}
    (prepared : prepareListPath unicode config role bucket user path = .ok listing)
    (virtual : listing.virtualDirectories = some directories) :
    path = [] ∧ listing.effectivePath = [] ∧ ∃ entry prefixes,
      findRole config listing.validatedRole = .ok (some entry) ∧
        roleAllowedPrefixes entry = .ok (some prefixes) ∧ 2 ≤ (prefixNorms prefixes).length ∧
        directories = (sortedNames unicode (prefixNorms prefixes)).map .directory := by
  obtain ⟨validated, -, rest⟩ := bind_eq_ok_iff.mp prepared
  obtain ⟨found, searched, rest⟩ := bind_eq_ok_iff.mp rest
  cases found with
  | none =>
      obtain rfl := Except.ok.inj rest
      cases virtual
  | some entry =>
      obtain ⟨allowed, granted, rest⟩ := bind_eq_ok_iff.mp rest
      obtain ⟨_, bucketOk, rest⟩ := bind_eq_ok_iff.mp rest
      obtain ⟨prefixes, read, rest⟩ := bind_eq_ok_iff.mp rest
      cases prefixes with
      | none =>
          obtain rfl := Except.ok.inj rest
          cases virtual
      | some list =>
          dsimp only at rest
          split at rest
          · next empty =>
              split at rest
              · obtain ⟨_, _, rest⟩ := bind_eq_ok_iff.mp rest
                simp [raise] at rest
              · obtain ⟨_, _, rest⟩ := bind_eq_ok_iff.mp rest
                obtain rfl := Except.ok.inj rest
                cases virtual
              · next notEmpty notSingle =>
                  obtain rfl := Except.ok.inj rest
                  refine ⟨by simpa using empty, rfl, entry, list, searched, read, ?_,
                    (Option.some.inj virtual).symm⟩
                  cases shape : prefixNorms list with
                  | nil => exact absurd shape notEmpty
                  | cons first tail =>
                      cases tail with
                      | nil => exact absurd shape (notSingle first)
                      | cons second more => simp
          · obtain ⟨_, _, rest⟩ := bind_eq_ok_iff.mp rest
            obtain rfl := Except.ok.inj rest
            cases virtual

end Laws

end S3Manager.Access
