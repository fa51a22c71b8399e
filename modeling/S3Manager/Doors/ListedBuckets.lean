import S3Manager.Doors.Browsing
import S3Manager.Doors.PrefixLaw
import S3Manager.Python.AsciiCase
import S3Manager.Storage.BucketLaw

/-! The buckets that are listed for a user, and what becomes of such a name at
the two doors. The tools pass it on as it is; the routes sanitize it first. -/

set_option autoImplicit false

namespace S3Manager.Doors

open Python Utils Access Storage Library Clients

section Names

/-- The names `sanitize_bucket_name` has in mind: 3 to 63 small letters, digits,
hyphens and dots, with a letter or a digit at both ends. -/
structure ValidBucketName (bucket : Str) : Prop where
  atLeast : 3 ≤ bucket.length
  atMost : bucket.length ≤ 63
  form : matchesBucketPattern bucket = true

variable {unicode : Unicode} {bucket : Str}

theorem isBucketAlnum_toNat {c : Char} (alnum : isBucketAlnum c = true) :
    (97 ≤ c.toNat ∧ c.toNat ≤ 122) ∨ (48 ≤ c.toNat ∧ c.toNat ≤ 57) := by
  simp only [isBucketAlnum, Bool.or_eq_true, Bool.and_eq_true, decide_eq_true_eq] at alnum
  rcases alnum with ⟨low, high⟩ | ⟨low, high⟩
  · exact .inl ⟨low, high⟩
  · exact .inr ⟨low, high⟩

theorem isSpace_alnum {c : Char} (alnum : isBucketAlnum c = true) : isSpace c = false := by
  have range := isBucketAlnum_toNat alnum
  simp only [isSpace, Bool.or_eq_false_iff, Bool.and_eq_false_iff, decide_eq_false_iff_not,
    beq_eq_false_iff_ne]
  omega

theorem pattern_member (form : matchesBucketPattern bucket = true) {c : Char}
    (member : c ∈ bucket) : c.toNat < 128 ∧ c.toLower = c := by
  simp only [matchesBucketPattern, Bool.and_eq_true, List.all_eq_true] at form
  have one := form.1.1 c member
  simp only [Bool.or_eq_true, beq_iff_eq] at one
  rcases one with (alnum | rfl) | rfl
  · have range := isBucketAlnum_toNat alnum
    exact ⟨by omega, toLower_of_small (by omega)⟩
  · decide
  · decide

theorem strip_of_pattern (form : matchesBucketPattern bucket = true) : strip bucket = bucket := by
  simp only [matchesBucketPattern, Bool.and_eq_true] at form
  refine trimBy_eq_self isSpace (fun c rest shape => ?_) fun init c shape => ?_
  · exact isSpace_alnum (by simpa [shape] using form.1.2)
  · exact isSpace_alnum (by simpa [shape] using form.2)

theorem lower_of_pattern (form : matchesBucketPattern bucket = true) :
    unicode.lower bucket = bucket := by
  rw [unicode.lower_ascii bucket fun c member => (pattern_member form member).1]
  calc bucket.map Char.toLower = bucket.map id :=
        List.map_congr_left fun c member => (pattern_member form member).2
    _ = bucket := List.map_id bucket

/-- Whatever the sanitizer lets through is a valid name, trimmed and in small letters. -/
theorem sanitizeBucketName_spec {sanitized : Str}
    (accepted : sanitizeBucketName unicode bucket = .ok sanitized) :
    sanitized = unicode.lower (strip bucket) ∧ matchesBucketPattern sanitized = true ∧
      3 ≤ (strip bucket).length ∧ (strip bucket).length ≤ 63 := by
  unfold sanitizeBucketName at accepted
  by_cases empty : bucket.isEmpty
  · simp [empty, raise] at accepted
  by_cases length : (strip bucket).length < 3 ∨ (strip bucket).length > 63
  · simp [empty, length, raise] at accepted
  by_cases form : matchesBucketPattern (unicode.lower (strip bucket)) = true
  · obtain rfl : unicode.lower (strip bucket) = sanitized := by
      simpa [empty, length, form] using accepted
    exact ⟨rfl, form, by omega, by omega⟩
  · simp [empty, length, form, raise] at accepted

/-- The valid names are those the sanitizer leaves as they are. -/
theorem sanitizeBucketName_own_iff :
    sanitizeBucketName unicode bucket = .ok bucket ↔ ValidBucketName bucket := by
  constructor
  · intro accepted
    obtain ⟨-, form, atLeast, atMost⟩ := sanitizeBucketName_spec accepted
    rw [strip_of_pattern form] at atLeast atMost
    exact ⟨atLeast, atMost, form⟩
  · rintro ⟨atLeast, atMost, form⟩
    have nonempty : bucket.isEmpty = false := by
      cases bucket with
      | nil => simp at atLeast
      | cons c rest => rfl
    have inside : ¬ (bucket.length < 3 ∨ bucket.length > 63) := by omega
    simp [sanitizeBucketName, nonempty, strip_of_pattern form, inside, lower_of_pattern form, form]

theorem sanitizeTarget_valid {path key : Str} (valid : ValidBucketName bucket)
    (sanitized : sanitizePath path = .ok key) :
    Web.sanitizeTarget unicode bucket path = .ok (bucket, key) :=
  sanitizeTarget_accepted (sanitizeBucketName_own_iff.mpr valid) sanitized

theorem sanitizeTarget_spec {path : Str} {target : Str × Str}
    (accepted : Web.sanitizeTarget unicode bucket path = .ok target) :
    sanitizeBucketName unicode bucket = .ok target.1 := by
  unfold Web.sanitizeTarget at accepted
  cases named : sanitizeBucketName unicode bucket with
  | error exc =>
      rw [named] at accepted
      revert accepted
      simp only [result_bind_error, Web.orBadRequest]
      split <;> simp [Web.raiseHttp, raise]
  | ok sanitized =>
      cases placed : sanitizePath path with
      | error exc =>
          rw [named, placed] at accepted
          revert accepted
          simp only [result_bind_ok, result_bind_error, Web.orBadRequest]
          split <;> simp [Web.raiseHttp, raise]
      | ok key =>
          rw [named, placed] at accepted
          obtain rfl := Except.ok.inj accepted
          rfl

theorem sanitizeTarget_bucket {path : Str} {target : Str × Str}
    (accepted : Web.sanitizeTarget unicode bucket path = .ok target) :
    target.1 = unicode.lower (strip bucket) :=
  (sanitizeBucketName_spec (sanitizeTarget_spec accepted)).1

end Names

section Listing

variable (unicode : Unicode) (config : Dict) (role : Option Str) (user : UserDict)

/-- Some run of the listing shows this name, whatever the surroundings answer in it. -/
def Listed (bucket : Str) : Prop :=
  ∃ (World : Type) (handler : (effect : Effect) → World → effect.Reply × World) (world : World)
    (names : List Json),
    (Program.run handler (listBucketsForRole unicode config role user) world).1 = .ok names ∧
      .str bucket ∈ names

/-- The gate reads no other entry for a role than the listing does. -/
def SameEntry (config : Dict) (validated : Option Str) : Prop :=
  namePresent validated = true ∨ firstEntryNamed config validated = true ∨
    findRole config validated = .ok none

/-- What the role grants on keys, whatever it grants on buckets. -/
def MayAccess (key : Str) : Prop :=
  ∀ validated entry, validateRoleAccess role user = .ok validated →
    findRole config validated = .ok (some entry) →
      ∃ prefixes, roleAllowedPrefixes entry = .ok prefixes ∧ ∀ list, prefixes = some list →
        ∃ normal, normalizeAccessKey key = .ok normal ∧ anyPrefixAllows normal list = .ok true

def PassesGate (bucket key : Str) : Prop :=
  ∃ validated, validateStorageAccess config role bucket user key = .ok validated

variable {unicode config role user} {bucket key : Str} {validated : Option Str}

/-- A listed name comes from S3, or it stands in the list of the entry that is shown. -/
theorem listed_spec (listed : Listed unicode config role user bucket) :
    ∃ validated shown, validateRoleAccess role user = .ok validated ∧
      shownRole config validated = .ok shown ∧ ∀ entry, shown = some entry →
        ∃ allowed, roleAllowedBuckets entry config = .ok allowed ∧
          ∀ list, allowed = some list → .str bucket ∈ list := by
  obtain ⟨World, handler, world, names, answered, member⟩ := listed
  unfold listBucketsForRole at answered
  cases checked : validateRoleAccess role user with
  | error exc =>
      rw [checked] at answered
      cases answered
  | ok validated =>
      rw [checked, ofResult_ok_bind] at answered
      cases shown : shownRole config validated with
      | error exc =>
          rw [shown] at answered
          cases answered
      | ok entry =>
          refine ⟨validated, entry, rfl, shown, ?_⟩
          rintro roleConfig rfl
          rw [shown, ofResult_ok_bind] at answered
          dsimp only at answered
          cases granted : roleAllowedBuckets roleConfig config with
          | error exc =>
              rw [granted] at answered
              cases answered
          | ok allowed =>
              refine ⟨allowed, rfl, ?_⟩
              rintro list rfl
              rw [granted, ofResult_ok_bind] at answered
              obtain rfl : list = names := Except.ok.inj answered
              exact member

/-- The entry the gate finds is the one that is shown. -/
theorem SameEntry.found {shown : Option Dict} (same : SameEntry config validated)
    (shows : shownRole config validated = .ok shown) :
    ∃ found, findRole config validated = .ok found ∧ ∀ entry, found = some entry →
      shown = some entry := by
  rcases same with named | first | absent
  · cases searched : findRole config validated with
    | error exc => simp [shownRole, named, searched] at shows
    | ok found =>
        refine ⟨found, rfl, ?_⟩
        rintro entry rfl
        rw [shownRole_named named searched] at shows
        exact (Except.ok.inj shows).symm
  · obtain ⟨field, rest, others, shape, named⟩ := firstEntryNamed_spec first
    have searched := findRole_of_first shape named
    refine ⟨_, searched, ?_⟩
    rintro entry found
    obtain rfl := Option.some.inj found
    by_cases present : namePresent validated = true
    · rw [shownRole_named present searched] at shows
      exact (Except.ok.inj shows).symm
    · simp only [shownRole, present, shape, firstRole_arr, result_bind_ok,
        truthy_nonempty, if_true] at shows
      exact (Except.ok.inj shows).symm
  · exact ⟨none, absent, by simp⟩

/-- A listed bucket is no obstacle at the gate. -/
theorem passesGate_of_listed (listed : Listed unicode config role user bucket)
    (same : ∀ validated, validateRoleAccess role user = .ok validated → SameEntry config validated)
    (mayAccess : MayAccess config role user key) : PassesGate config role user bucket key := by
  obtain ⟨validated, shown, checked, shows, grants⟩ := listed_spec listed
  obtain ⟨found, searched, agrees⟩ := (same validated checked).found shows
  refine ⟨validated, validateStorageAccess_ok_iff.mpr ⟨checked, found, searched, ?_⟩⟩
  rintro entry rfl
  exact ⟨grants entry (agrees entry rfl), mayAccess validated entry checked searched⟩

end Listing

section Operations

/-- The buckets an operation is called with. -/
def StorageOperation.buckets : StorageOperation → List Str
  | .mcpListFiles _ _ bucket _ _ _ _ | .mcpBucketSummary _ _ bucket _ => [bucket]
  | .mcpUploadFile _ _ bucket _ _ _ _ | .mcpDeleteFile _ _ _ bucket _ => [bucket]
  | .mcpReadFile _ _ _ bucket _ _ => [bucket]
  | .mcpCopyObject _ _ _ sourceBucket _ destBucket _ _ => [sourceBucket, destBucket]
  | .mcpGetObjectMetadata _ bucket _ | .mcpPresignedUrl _ bucket _ _ => [bucket]
  | .webListFiles _ _ bucketName _ _ | .webUploadFile _ bucketName _ _ => [bucketName]
  | .webDownloadFile _ bucketName _ | .webGetPresignedUrl _ bucketName _ _ _ _ _ => [bucketName]
  | .webDeleteFile _ _ bucketName _ _ => [bucketName]

/-- The operation is about objects under these keys, and they meet the checks that it makes
besides the gate. -/
def StorageOperation.Ready (unicode : Unicode) (config : Dict) (user : UserDict) (keys : List Str) :
    StorageOperation → Prop
  | .mcpUploadFile token _ _ path maxFileSize estimatedSize _ =>
      keys = [path] ∧ Mcp.assertWriteAllowed token .uploadFile config = .ok () ∧
        estimatedSize ≤ maxFileSize
  | .mcpDeleteFile _ token _ _ path =>
      keys = [path] ∧ Mcp.assertWriteAllowed token .deleteFile config = .ok ()
  | .mcpReadFile _ token _ _ path _ =>
      keys = [path] ∧ ∃ limit, Mcp.effectiveMax config token = .ok limit
  | .mcpCopyObject _ token _ _ sourcePath _ destPath deleteSource =>
      keys = [sourcePath, destPath] ∧ Mcp.assertWriteAllowed token .copyObject config = .ok () ∧
        Mcp.assertMoveAllowed config deleteSource = .ok ()
  | .mcpGetObjectMetadata _ _ path => keys = [path]
  | .mcpPresignedUrl _ _ path _ =>
      keys = [path] ∧
        ∃ maxTtl, pyInt unicode (dictGetD config "presigned_url_max_ttl" (.int 604800)) = .ok maxTtl
  | .webUploadFile _ _ form maxFileSize =>
      ∃ key, keys = [key] ∧ sanitizePath form.key = .ok key ∧
        Web.spooledSizeCheck maxFileSize form.content.length = .ok () ∧
        ∃ disposition, Web.inlineDisposition unicode config key = .ok disposition
  | .webDownloadFile _ _ path => ∃ key, keys = [key] ∧ sanitizePath path = .ok key
  | .webGetPresignedUrl role _ path op defaultTtl maxTtl expiresIn =>
      ∃ key, keys = [key] ∧ op = lit "get" ∧ sanitizePath path = .ok key ∧
        (∃ ttl, Web.grantedTtl defaultTtl maxTtl expiresIn = .ok ttl) ∧
        Web.validateRoleAccessHttp (some role) user = .ok (some role)
  | .webDeleteFile _ _ _ path disableDeletionEnv =>
      ∃ key, keys = [Web.deletePath path key] ∧ sanitizePath path = .ok key ∧ key ≠ [] ∧
        Web.deletionDisabled config disableDeletionEnv = false
  | .mcpListFiles .. | .mcpBucketSummary .. | .webListFiles .. => False

/-- Whether an operation is a web route. -/
def StorageOperation.isWeb : StorageOperation → Bool
  | .webListFiles _ _ _ _ _ | .webUploadFile _ _ _ _ | .webDownloadFile _ _ _ => true
  | .webGetPresignedUrl _ _ _ _ _ _ _ | .webDeleteFile _ _ _ _ _ => true
  | _ => false

variable {unicode : Unicode} {config : Dict} {user : UserDict} {bucket : Str}

/-- The tools send the bucket they are called with. -/
theorem tool_addresses {operation : StorageOperation} (tool : operation.isWeb = false)
    (called : ∀ named ∈ operation.buckets, named = bucket) :
    Addresses bucket (operation.program unicode config user) := by
  cases operation with
  | mcpListFiles pages role name path recursive maxKeys token =>
      obtain rfl : name = bucket := called name (by simp [StorageOperation.buckets])
      refine addresses_check fun limits _ => addresses_check fun _ _ => ?_
      split
      · exact addresses_bind (addresses_listRecursive _ _ _ _) fun _ => addresses_pure _
      · refine addresses_bind (addresses_listObjects _) fun _ => ?_
        split
        · exact addresses_pure _
        · exact addresses_pure _
  | mcpBucketSummary pages role name path =>
      obtain rfl : name = bucket := called name (by simp [StorageOperation.buckets])
      exact addresses_check fun _ _ => addresses_check fun _ _ => addresses_check fun _ _ =>
        addresses_summarize _ _ _
  | mcpUploadFile token role name path maxFileSize estimatedSize content =>
      obtain rfl : name = bucket := called name (by simp [StorageOperation.buckets])
      refine addresses_check fun _ _ => ?_
      split
      · exact addresses_ofResult _
      · exact addresses_gatedCall (addresses_call (onBucket_one rfl))
  | mcpDeleteFile pages token role name path =>
      obtain rfl : name = bucket := called name (by simp [StorageOperation.buckets])
      exact addresses_check fun _ _ => addresses_deleteObject _
  | mcpReadFile rules token role name path forceText =>
      obtain rfl : name = bucket := called name (by simp [StorageOperation.buckets])
      exact Mcp.readFile_of_parts (Addresses _) addresses_ofResult addresses_bind
        (addresses_gatedPart rfl) (addresses_gatedPart rfl) (addresses_gatedPart rfl)
  | mcpCopyObject pages token role sourceBucket sourcePath destBucket destPath deleteSource =>
      obtain rfl : sourceBucket = bucket := called sourceBucket (by simp [StorageOperation.buckets])
      obtain rfl : destBucket = sourceBucket := called destBucket (by simp [StorageOperation.buckets])
      refine addresses_check fun _ _ => addresses_check fun _ _ =>
        addresses_bind addresses_copyObject fun _ => ?_
      unfold Mcp.deleteMoved
      split
      · exact addresses_bind (addresses_deleteObject _) fun _ => addresses_pure _
      · exact addresses_pure _
  | mcpGetObjectMetadata role name path =>
      obtain rfl : name = bucket := called name (by simp [StorageOperation.buckets])
      exact addresses_gatedPart rfl
  | mcpPresignedUrl role name path expiresIn =>
      obtain rfl : name = bucket := called name (by simp [StorageOperation.buckets])
      exact addresses_check fun _ _ => addresses_gatedCall (addresses_call (onBucket_one rfl))
  | webListFiles _ _ _ _ _ | webUploadFile _ _ _ _ | webDownloadFile _ _ _ => cases tool
  | webGetPresignedUrl _ _ _ _ _ _ _ | webDeleteFile _ _ _ _ _ => cases tool

/-- A route sends the trimmed name in small letters, or no name at all. -/
theorem route_addresses {operation : StorageOperation} (route : operation.isWeb = true)
    (called : ∀ named ∈ operation.buckets, named = bucket) :
    Addresses (unicode.lower (strip bucket)) (operation.program unicode config user) := by
  cases operation with
  | webListFiles pages role name path query =>
      obtain rfl : name = bucket := called name (by simp [StorageOperation.buckets])
      refine addresses_check fun target accepted => addresses_check fun search _ => ?_
      rw [← sanitizeTarget_bucket accepted]
      split
      · exact addresses_check fun _ _ =>
          addresses_bind (addresses_clientLoad _ _ _) fun _ => addresses_pure _
      · split
        · refine addresses_check fun listing _ => ?_
          split
          · exact addresses_pure _
          · exact addresses_bind (addresses_listObjects _) fun _ => addresses_pure _
        · exact addresses_bind (addresses_listPaginated _ _) fun _ => addresses_pure _
  | webUploadFile role name form maxFileSize =>
      obtain rfl : name = bucket := called name (by simp [StorageOperation.buckets])
      refine addresses_check fun target accepted => ?_
      rw [← sanitizeTarget_bucket accepted]
      exact addresses_check fun _ _ => addresses_check fun _ _ =>
        addresses_bind (addresses_gatedCall (addresses_call (onBucket_one rfl))) fun _ =>
          addresses_pure _
  | webDownloadFile role name path =>
      obtain rfl : name = bucket := called name (by simp [StorageOperation.buckets])
      refine addresses_check fun target accepted => ?_
      rw [← sanitizeTarget_bucket accepted]
      exact addresses_bind (addresses_gatedRequest rfl) fun _ => addresses_pure _
  | webGetPresignedUrl role name path op defaultTtl maxTtl expiresIn =>
      obtain rfl : name = bucket := called name (by simp [StorageOperation.buckets])
      simp only [StorageOperation.program, Web.getPresignedUrl]
      split
      · exact addresses_ofResult _
      · refine addresses_check fun ttl _ => addresses_check fun target accepted =>
          addresses_check fun _ _ => ?_
        rw [← sanitizeTarget_bucket accepted]
        exact addresses_gatedCall (addresses_call (onBucket_one rfl))
  | webDeleteFile pages role name path disableDeletionEnv =>
      obtain rfl : name = bucket := called name (by simp [StorageOperation.buckets])
      simp only [StorageOperation.program, Web.deleteFile]
      split
      · exact addresses_ofResult _
      · refine addresses_check fun target accepted => ?_
        rw [← sanitizeTarget_bucket accepted]
        split
        · exact addresses_ofResult _
        · exact addresses_deleteObject _
  | mcpListFiles _ _ _ _ _ _ _ | mcpBucketSummary _ _ _ _ | mcpUploadFile _ _ _ _ _ _ _ =>
      cases route
  | mcpDeleteFile _ _ _ _ _ | mcpReadFile _ _ _ _ _ _ | mcpCopyObject _ _ _ _ _ _ _ _ => cases route
  | mcpGetObjectMetadata _ _ _ | mcpPresignedUrl _ _ _ _ => cases route

theorem reaches_bind {α β : Type} {program : S3Program α} {next : α → S3Program β}
    (reaches : ¬ Silent program) : ¬ Silent (program >>= next) := by
  cases program with
  | pure result => exact absurd ⟨result, rfl⟩ reaches
  | perform request rest =>
      rintro ⟨result, same⟩
      cases same

theorem retry_reaches {α : Type} {validated : Option Str} {callback : S3Program α} :
    ¬ Silent (executeWithS3Retry unicode validated callback) := by
  rintro ⟨result, same⟩
  cases same

variable {role : Option Str} {key : Str}

theorem gatedCall_reaches {α : Type} {callback : S3Program α}
    (passes : PassesGate config role user bucket key) :
    ¬ Silent (gatedCall unicode config role bucket key user callback) := by
  obtain ⟨validated, accepted⟩ := passes
  rw [gatedCall, accepted, ofResult_ok_bind]
  exact retry_reaches

/-- Past the gate and its own checks, every operation goes on to S3. -/
theorem operation_reaches {operation : StorageOperation} {keys : List Str}
    (called : ∀ named ∈ operation.buckets, named = bucket)
    (valid : operation.isWeb = true → ValidBucketName bucket)
    (ready : operation.Ready unicode config user keys)
    (passes : ∀ key ∈ keys, PassesGate config operation.role user bucket key) :
    ¬ Silent (operation.program unicode config user) := by
  cases operation with
  | mcpListFiles | mcpBucketSummary | webListFiles => exact ready.elim
  | mcpUploadFile token role name path maxFileSize estimatedSize content =>
      obtain rfl : name = bucket := called name (by simp [StorageOperation.buckets])
      obtain ⟨rfl, allowed, fits⟩ := ready
      simp only [StorageOperation.program, Mcp.uploadFile, allowed, ofResult_ok_bind,
        if_neg (not_lt.mpr fits)]
      exact gatedCall_reaches (passes _ List.mem_cons_self)
  | mcpDeleteFile pages token role name path =>
      obtain rfl : name = bucket := called name (by simp [StorageOperation.buckets])
      obtain ⟨rfl, allowed⟩ := ready
      simp only [StorageOperation.program, Mcp.deleteFile, allowed, ofResult_ok_bind]
      exact gatedCall_reaches (passes _ List.mem_cons_self)
  | mcpReadFile rules token role name path forceText =>
      obtain rfl : name = bucket := called name (by simp [StorageOperation.buckets])
      obtain ⟨rfl, limit, capped⟩ := ready
      simp only [StorageOperation.program, Mcp.readFile, capped, ofResult_ok_bind]
      exact reaches_bind (gatedCall_reaches (passes _ List.mem_cons_self))
  | mcpCopyObject pages token role sourceBucket sourcePath destBucket destPath deleteSource =>
      obtain rfl : sourceBucket = bucket := called sourceBucket (by simp [StorageOperation.buckets])
      obtain rfl : destBucket = sourceBucket := called destBucket (by simp [StorageOperation.buckets])
      obtain ⟨rfl, allowed, moves⟩ := ready
      obtain ⟨validated, source⟩ := passes _ List.mem_cons_self
      obtain ⟨_, dest⟩ := passes _ (List.mem_cons_of_mem _ List.mem_cons_self)
      have checked := (validateStorageAccess_ok_iff.mp source).1
      simp only [StorageOperation.role] at source dest checked
      simp only [StorageOperation.program, Mcp.copyObject, copyObjectForRole, allowed, moves, source,
        dest, checked, ofResult_ok_bind]
      exact reaches_bind retry_reaches
  | mcpGetObjectMetadata role name path =>
      obtain rfl : name = bucket := called name (by simp [StorageOperation.buckets])
      obtain rfl := ready
      exact gatedCall_reaches (passes _ List.mem_cons_self)
  | mcpPresignedUrl role name path expiresIn =>
      obtain rfl : name = bucket := called name (by simp [StorageOperation.buckets])
      obtain ⟨rfl, maxTtl, bounded⟩ := ready
      simp only [StorageOperation.program, Mcp.presignedUrl, bounded, ofResult_ok_bind]
      exact gatedCall_reaches (passes _ List.mem_cons_self)
  | webUploadFile role name form maxFileSize =>
      obtain rfl : name = bucket := called name (by simp [StorageOperation.buckets])
      obtain ⟨key, rfl, sanitized, fits, disposition, decided⟩ := ready
      have target := @sanitizeTarget_valid unicode _ _ _ (valid rfl) sanitized
      simp only [StorageOperation.program, Web.uploadFile, target, fits, decided, ofResult_ok_bind]
      exact reaches_bind (gatedCall_reaches (passes _ List.mem_cons_self))
  | webDownloadFile role name path =>
      obtain rfl : name = bucket := called name (by simp [StorageOperation.buckets])
      obtain ⟨key, rfl, sanitized⟩ := ready
      have target := @sanitizeTarget_valid unicode _ _ _ (valid rfl) sanitized
      simp only [StorageOperation.program, Web.downloadFile, target, ofResult_ok_bind]
      exact reaches_bind (gatedCall_reaches (passes _ List.mem_cons_self))
  | webGetPresignedUrl role name path op defaultTtl maxTtl expiresIn =>
      obtain rfl : name = bucket := called name (by simp [StorageOperation.buckets])
      obtain ⟨key, rfl, rfl, sanitized, ⟨ttl, granted⟩, checked⟩ := ready
      have target := @sanitizeTarget_valid unicode _ _ _ (valid rfl) sanitized
      simp only [StorageOperation.program, Web.getPresignedUrl, ne_eq, not_true_eq_false, if_false,
        granted, target, checked, ofResult_ok_bind, ite_self]
      exact gatedCall_reaches (passes _ List.mem_cons_self)
  | webDeleteFile pages role name path disableDeletionEnv =>
      obtain rfl : name = bucket := called name (by simp [StorageOperation.buckets])
      obtain ⟨key, rfl, sanitized, nonempty, enabled⟩ := ready
      have target := @sanitizeTarget_valid unicode _ _ _ (valid rfl) sanitized
      simp only [StorageOperation.program, Web.deleteFile, enabled, target, ofResult_ok_bind,
        List.isEmpty_iff, if_neg nonempty, Bool.false_eq_true, if_false]
      exact gatedCall_reaches (passes _ List.mem_cons_self)

end Operations

section Usable

variable {unicode : Unicode} {config : Dict} {role : Option Str} {user : UserDict} {bucket : Str}

/-- A listed bucket passes the gate, and the tools send its name as it is. The routes do the
same for exactly the names that the sanitizer leaves alone. A call for keys that the role may
access, which its own checks let through, does get to S3. -/
theorem listed_usable (listed : Listed unicode config role user bucket)
    (same : ∀ validated, validateRoleAccess role user = .ok validated →
      SameEntry config validated) :
    (∀ key, MayAccess config role user key → PassesGate config role user bucket key) ∧
      (∀ operation : StorageOperation, operation.isWeb = false →
        (∀ named ∈ operation.buckets, named = bucket) →
          Addresses bucket (operation.program unicode config user)) ∧
      (ValidBucketName bucket ↔ ∀ path key, sanitizePath path = .ok key →
        Web.sanitizeTarget unicode bucket path = .ok (bucket, key)) ∧
      (ValidBucketName bucket → ∀ operation : StorageOperation, operation.isWeb = true →
        (∀ named ∈ operation.buckets, named = bucket) →
          Addresses bucket (operation.program unicode config user)) ∧
      ∀ (operation : StorageOperation) (keys : List Str), operation.role = role →
        (∀ named ∈ operation.buckets, named = bucket) →
          (operation.isWeb = true → ValidBucketName bucket) →
            operation.Ready unicode config user keys →
              (∀ key ∈ keys, MayAccess config role user key) →
                ¬ Silent (operation.program unicode config user) := by
  refine ⟨fun key mayAccess => passesGate_of_listed listed same mayAccess,
    fun operation tool called => tool_addresses tool called, ⟨fun valid path key sanitized => ?_,
    fun kept => ?_⟩, fun valid operation route called => ?_,
    fun operation keys named called valid ready mayAccess => ?_⟩
  · exact sanitizeTarget_valid valid sanitized
  · exact sanitizeBucketName_own_iff.mp (sanitizeTarget_spec (kept [] [] sanitizePath_nil))
  · have addressed := @route_addresses unicode config user bucket operation route called
    rwa [strip_of_pattern valid.form, lower_of_pattern valid.form] at addressed
  · subst named
    exact operation_reaches called valid ready fun key member =>
      passesGate_of_listed listed same (mayAccess key member)

end Usable

section Examples

/-- Surroundings that answer no request. -/
def unanswered : (effect : Effect) → Unit → effect.Reply × Unit
  | .getClient _, _ => (.ok (), ())
  | .invalidateClient _, _ => ((), ())
  | .s3 _, _ => (raise (.botoCoreError (lit "EndpointConnectionError")) [], ())

def oneBucketConfig (bucket : String) : Dict :=
  [(lit "roles", .arr [.obj [(lit "name", .str (lit "Reader")),
    (lit "allowed_buckets", .arr [.str (lit bucket)])]])]

def reader : UserDict := ⟨false, [lit "Reader"], none⟩

theorem reader_listed (bucket : String) :
    Listed .ascii (oneBucketConfig bucket) (some (lit "Reader")) reader (lit bucket) :=
  ⟨Unit, unanswered, (), [.str (lit bucket)], by rfl, by simp⟩

theorem reader_mayAccess (bucket key : String) :
    MayAccess (oneBucketConfig bucket) (some (lit "Reader")) reader (lit key) := by
  intro validated entry checked searched
  obtain rfl : some (lit "Reader") = validated := Except.ok.inj checked
  obtain rfl : [(lit "name", .str (lit "Reader")),
      (lit "allowed_buckets", .arr [.str (lit bucket)])] = entry :=
    Option.some.inj (Except.ok.inj searched)
  exact ⟨none, rfl, by simp⟩

theorem listed_logs_usable :
    PassesGate (oneBucketConfig "app-logs") (some (lit "Reader")) reader (lit "app-logs")
        (lit "a.txt") ∧
      Addresses (lit "app-logs") ((StorageOperation.webDownloadFile (some (lit "Reader"))
        (lit "app-logs") (lit "a.txt")).program .ascii (oneBucketConfig "app-logs") reader) ∧
      ¬ Silent ((StorageOperation.webDownloadFile (some (lit "Reader")) (lit "app-logs")
        (lit "a.txt")).program .ascii (oneBucketConfig "app-logs") reader) := by
  have usable := listed_usable (reader_listed "app-logs") (fun validated checked => .inl (by
    obtain rfl : some (lit "Reader") = validated := Except.ok.inj checked
    rfl))
  have valid : ValidBucketName (lit "app-logs") := ⟨by decide, by decide, by decide⟩
  have mayAccess := reader_mayAccess "app-logs" "a.txt"
  refine ⟨usable.1 _ mayAccess, usable.2.2.2.1 valid _ rfl ?_,
    usable.2.2.2.2 _ [lit "a.txt"] rfl ?_ (fun _ => valid) ⟨_, rfl, by rfl⟩ fun key member => ?_⟩
  · simp [StorageOperation.buckets]
  · simp [StorageOperation.buckets]
  · rw [List.mem_singleton.mp member]
    exact mayAccess

def admin : UserDict := ⟨true, [], none⟩

def unnamedSecondConfig : Dict :=
  [(lit "roles", .arr
    [.obj [(lit "name", .str (lit "Team")), (lit "allowed_buckets", .arr [.str (lit "alpha")])],
      .obj [(lit "name", .str []), (lit "allowed_buckets", .arr [.str (lit "beta")])]])]

/-- `Reports` is listed, and the tools may use it; a download from it asks the gate for
`reports` and is denied. Without a role name, the first entry is listed and another is asked. -/
theorem listed_reports_refused :
    (Listed .ascii (oneBucketConfig "Reports") (some (lit "Reader")) reader (lit "Reports") ∧
      MayAccess (oneBucketConfig "Reports") (some (lit "Reader")) reader (lit "a.txt") ∧
      PassesGate (oneBucketConfig "Reports") (some (lit "Reader")) reader (lit "Reports")
        (lit "a.txt") ∧
      Web.downloadFile .ascii (oneBucketConfig "Reports") (some (lit "Reader")) (lit "Reports")
        (lit "a.txt") reader = S3Program.raise .permissionError
          (lit "bucket 'reports' not in allowed_buckets for role 'Reader'")) ∧
    (Listed .ascii unnamedSecondConfig (some []) admin (lit "alpha") ∧
      MayAccess unnamedSecondConfig (some []) admin (lit "a.txt") ∧
      ¬ PassesGate unnamedSecondConfig (some []) admin (lit "alpha") (lit "a.txt")) := by
  refine ⟨⟨reader_listed "Reports", reader_mayAccess "Reports" "a.txt",
    ⟨some (lit "Reader"), by rfl⟩, by rfl⟩,
    ⟨Unit, unanswered, (), [.str (lit "alpha")], by rfl, by simp⟩, ?_, ?_⟩
  · intro validated entry checked searched
    obtain rfl : some [] = validated := Except.ok.inj checked
    obtain rfl : [(lit "name", .str []), (lit "allowed_buckets", .arr [.str (lit "beta")])] = entry :=
      Option.some.inj (Except.ok.inj searched)
    exact ⟨none, rfl, by simp⟩
  · rintro ⟨validated, accepted⟩
    have denied : validateStorageAccess unnamedSecondConfig (some []) (lit "alpha") admin
        (lit "a.txt") = raise .permissionError
          (lit "bucket 'alpha' not in allowed_buckets for role ''") := by rfl
    rw [denied] at accepted
    cases accepted

end Examples

end S3Manager.Doors
