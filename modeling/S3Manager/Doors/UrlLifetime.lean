import S3Manager.Config.PresignedTtls
import S3Manager.Mcp.Tools
import S3Manager.Web.Routes

/-! How long presigned URLs live that the web route and the tool hand out. -/

set_option autoImplicit false

namespace S3Manager.Doors

open Python Access Storage Config Library

section Doors

variable (environ : Environ) (config : Dict)

/-- `get_presigned_url` with the bounds it resolves. -/
def webPresignedUrl (role bucketName path : Str) (user : UserDict) (op : Str)
    (expiresIn : Option Int) : S3Program Str :=
  if op ≠ lit "get" then S3Program.ofResult (Web.raiseHttp 400 (lit "Unsupported op"))
  else do
    let ttls ← S3Program.ofResult (resolvePresignedTtls environ config)
    Web.getPresignedUrl environ.unicode config role bucketName path user op ttls.1 ttls.2 expiresIn

/-- The maximum that the tool clamps to. -/
def mcpMaxTtl : Result Int :=
  pyInt environ.unicode (dictGetD config "presigned_url_max_ttl" (.int 604800))

/-- A presigned URL lives a minute at least, and no longer than the maximum and
the ceiling of the signature. -/
def LivesWithin (maximum : Int) : S3Request → Prop
  | .generatePresignedUrl _ _ _ expiresIn => 60 ≤ expiresIn ∧ expiresIn ≤ min maximum 604800
  | _ => True

def IssuesWithin (maximum : Int) (program : S3Program Str) : Prop :=
  program.Sends (LivesWithin maximum) (fun _ _ => True) fun _ => True

/-- Both doors keep to the lifetimes that `resolve_presigned_ttls` yields. -/
structure OneLifetime : Prop where
  resolved : ∃ defaultTtl maximum,
    resolvePresignedTtls environ config = .ok (defaultTtl, maximum) ∧
      mcpMaxTtl environ config = .ok maximum ∧
      (∀ role bucketName path user op expiresIn,
        IssuesWithin maximum
          (webPresignedUrl environ config role bucketName path user op expiresIn)) ∧
      ∀ role bucket path user expiresIn,
        IssuesWithin maximum
          (Mcp.presignedUrl environ.unicode config role bucket path user expiresIn)

/-- The role that the web route signs for. -/
def signingRole (role : Str) : Option Str → Str
  | some name => if name.isEmpty then role else name
  | none => role

/-- Some request for a URL gets through the checks of the web route. -/
def WebAdmits : Prop :=
  ∃ role bucketName path user target validated signed,
    Web.sanitizeTarget environ.unicode bucketName path = .ok target ∧
      Web.validateRoleAccessHttp (some role) user = .ok validated ∧
      validateStorageAccess config (some (signingRole role validated)) target.1 user target.2 =
        .ok signed

/-- Some request for a URL gets through the checks of the tool. -/
def McpAdmits : Prop :=
  ∃ role bucket path user signed,
    validateStorageAccess config role bucket user path = .ok signed

/-- The maximum is written in the config as a number up to the ceiling, or is in
neither the config nor a variable that lowers it. -/
def SharedMaximum : Prop :=
  match Assoc.get? config (lit "presigned_url_max_ttl") with
  | some value => ∃ seconds, pyInt environ.unicode value = .ok seconds ∧ seconds ≤ 604800
  | none => ∀ text seconds, environ.getenv (lit "PRESIGNED_URL_MAX_TTL") = some text →
      pyInt environ.unicode (.str text) = .ok seconds → 604800 ≤ seconds

/-- When the two doors agree on lifetimes within the bounds. -/
structure TtlsSound : Prop where
  shared : SharedMaximum environ config
  bounded : ¬ Unbounded environ (defaultTtlSetting environ config)
  web : WebAdmits environ config → AtLeastMinute environ (defaultTtlSetting environ config) ∧
    AtLeastMinute environ (maxTtlSetting environ config)
  mcp : McpAdmits config → AtLeastMinute environ (maxTtlSetting environ config)

end Doors

section Maximum

variable {environ : Environ} {config : Dict} {defaultTtl maximum : Int}

theorem maxTtlSetting_configured {value : Json}
    (configured : Assoc.get? config (lit "presigned_url_max_ttl") = some value)
    (live : value ≠ .null) : maxTtlSetting environ config = value := by
  unfold maxTtlSetting ttlSetting dictGet
  rw [configured]
  cases value with
  | null => exact absurd rfl live
  | bool _ | int _ | float _ | str _ | arr _ | obj _ => rfl

theorem maxTtlSetting_missing (missing : Assoc.get? config (lit "presigned_url_max_ttl") = none) :
    maxTtlSetting environ config =
      ((environ.getenv (lit "PRESIGNED_URL_MAX_TTL")).map Json.str).getD .null := by
  unfold maxTtlSetting ttlSetting dictGet
  rw [missing]
  rfl

theorem shared_configured {rawMax : Int} {value : Json}
    (configured : Assoc.get? config (lit "presigned_url_max_ttl") = some value)
    (coerced : coerceTtl environ (maxTtlSetting environ config) defaultPresignedUrlMaxTtl =
      .ok rawMax) :
    pyInt environ.unicode value = .ok (min rawMax presignedUrlHardCeiling) ↔
      ∃ seconds, pyInt environ.unicode value = .ok seconds ∧ seconds ≤ 604800 := by
  cases reading : pyInt environ.unicode value with
  | error exc => simp
  | ok read =>
      have live : value ≠ .null := by
        intro null
        rw [null] at reading
        cases reading
      rw [maxTtlSetting_configured configured live, coerceTtl_reads reading] at coerced
      obtain rfl := Except.ok.inj coerced
      simp only [Except.ok.injEq, exists_eq_left', presignedUrlHardCeiling]
      omega

theorem shared_missing {rawMax : Int}
    (missing : Assoc.get? config (lit "presigned_url_max_ttl") = none)
    (coerced : coerceTtl environ (maxTtlSetting environ config) defaultPresignedUrlMaxTtl =
      .ok rawMax) :
    604800 ≤ rawMax ↔
      ∀ text seconds, environ.getenv (lit "PRESIGNED_URL_MAX_TTL") = some text →
        pyInt environ.unicode (.str text) = .ok seconds → 604800 ≤ seconds := by
  rw [maxTtlSetting_missing missing] at coerced
  constructor
  · intro high text seconds exported reads
    rw [exported] at coerced
    obtain rfl := Except.ok.inj ((coerceTtl_reads reads).symm.trans coerced)
    exact high
  · intro all
    obtain reads | ⟨_, _, rfl⟩ := coerceTtl_ok_iff.mp coerced
    · cases exported : environ.getenv (lit "PRESIGNED_URL_MAX_TTL") with
      | none =>
          rw [exported] at reads
          cases reads
      | some text =>
          rw [exported] at reads
          exact all text rawMax exported reads
    · decide

theorem mcpMaxTtl_iff {rawMax : Int}
    (coerced : coerceTtl environ (maxTtlSetting environ config) defaultPresignedUrlMaxTtl =
      .ok rawMax) :
    mcpMaxTtl environ config = .ok (min rawMax presignedUrlHardCeiling) ↔
      SharedMaximum environ config := by
  unfold mcpMaxTtl SharedMaximum dictGetD
  cases configured : Assoc.get? config (lit "presigned_url_max_ttl") with
  | some value => exact shared_configured configured coerced
  | none =>
      refine Iff.trans ?_ (shared_missing configured coerced)
      change (Except.ok 604800 : Result Int) = _ ↔ _
      simp only [Except.ok.injEq, presignedUrlHardCeiling]
      omega

theorem not_unbounded_of_shared (shared : SharedMaximum environ config) :
    ¬ Unbounded environ (maxTtlSetting environ config) := by
  rintro ⟨exc, fails, kind⟩
  unfold SharedMaximum at shared
  cases configured : Assoc.get? config (lit "presigned_url_max_ttl") with
  | some value =>
      rw [configured] at shared
      obtain ⟨seconds, reads, _⟩ := shared
      have live : value ≠ .null := by
        intro null
        rw [null] at reads
        cases reads
      rw [maxTtlSetting_configured configured live, reads] at fails
      cases fails
  | none =>
      rw [maxTtlSetting_missing configured] at fails
      cases exported : environ.getenv (lit "PRESIGNED_URL_MAX_TTL") with
      | none =>
          rw [exported] at fails
          cases fails
          cases kind
      | some text =>
          rw [exported] at fails
          unfold pyInt at fails
          simp only [Option.map_some, Option.getD_some] at fails
          split at fails
          · cases fails
          · cases fails
            cases kind

theorem coerceTtl_bounded {setting : Json} (bounded : ¬ Unbounded environ setting)
    (fallback : Int) : ∃ seconds, coerceTtl environ setting fallback = .ok seconds := by
  cases reading : pyInt environ.unicode setting with
  | ok seconds => exact ⟨seconds, coerceTtl_reads reading⟩
  | error exc => exact ⟨fallback, coerceTtl_falls reading bounded⟩

theorem shared_iff :
    (∃ defaultTtl maximum, resolvePresignedTtls environ config = .ok (defaultTtl, maximum) ∧
        mcpMaxTtl environ config = .ok maximum) ↔
      SharedMaximum environ config ∧ ¬ Unbounded environ (defaultTtlSetting environ config) := by
  constructor
  · rintro ⟨defaultTtl, maximum, resolved, same⟩
    obtain ⟨rawMax, rawDefault, readMax, readDefault, rfl, rfl⟩ :=
      resolvePresignedTtls_eq_ok_iff.mp resolved
    refine ⟨(mcpMaxTtl_iff readMax).mp same, fun unbounded => ?_⟩
    obtain ⟨exc, fails⟩ :=
      @coerceTtl_raises environ _ defaultPresignedUrlDefaultTtl unbounded
    rw [fails] at readDefault
    cases readDefault
  · rintro ⟨shared, bounded⟩
    obtain ⟨rawMax, readMax⟩ :=
      coerceTtl_bounded (not_unbounded_of_shared shared) defaultPresignedUrlMaxTtl
    obtain ⟨rawDefault, readDefault⟩ := coerceTtl_bounded bounded defaultPresignedUrlDefaultTtl
    exact ⟨_, _, resolvePresignedTtls_eq_ok_iff.mpr
      ⟨rawMax, rawDefault, readMax, readDefault, rfl, rfl⟩, (mcpMaxTtl_iff readMax).mpr shared⟩

end Maximum

section Issued

variable {environ : Environ} {config : Dict} {unicode : Unicode} {maximum expiresIn : Int}
  {role : Option Str} {bucket path : Str} {user : UserDict}

theorem presign_within (lives : 60 ≤ expiresIn ∧ expiresIn ≤ min maximum 604800) :
    IssuesWithin maximum
      (generatePresignedUrlForRole unicode config role bucket path user expiresIn) := by
  refine (sends_bind _ _ _).mpr fun validated _ => ?_
  exact executeWithS3Retry_sends_iff.mpr ((sends_call _ _).mpr ⟨lives, fun _ _ => trivial⟩)

theorem presign_lives {signed : Option Str}
    (accepted : validateStorageAccess config role bucket user path = .ok signed)
    (within : IssuesWithin maximum
      (generatePresignedUrlForRole unicode config role bucket path user expiresIn)) :
    60 ≤ expiresIn ∧ expiresIn ≤ min maximum 604800 := by
  have called := (sends_bind _ _ _).mp within signed accepted
  exact ((sends_call _ _).mp (executeWithS3Retry_sends_iff.mp called)).1

theorem grantedTtl_ok {defaultTtl granted : Int} {requested : Option Int}
    (ok : Web.grantedTtl defaultTtl maximum requested = .ok granted) :
    granted = defaultTtl ∨ 60 ≤ granted ∧ granted ≤ maximum := by
  cases requested with
  | none => exact .inl (Except.ok.inj ok).symm
  | some asked =>
      unfold Web.grantedTtl at ok
      dsimp only at ok
      split at ok
      · cases ok
      · next bounds =>
          obtain rfl := Except.ok.inj ok
          obtain ⟨low, high⟩ := not_or.mp (fun out => bounds (Bool.or_eq_true_iff.mpr out))
          have floor := of_decide_eq_false (Bool.eq_false_iff.mpr low)
          have ceiling := of_decide_eq_false (Bool.eq_false_iff.mpr high)
          rw [Web.presignedUrlMinTtl] at floor
          exact .inr ⟨by omega, by omega⟩

variable {webRole bucketName op : Str} {requested : Option Int} {defaultTtl : Int}

theorem web_within (resolved : resolvePresignedTtls environ config = .ok (defaultTtl, maximum))
    (floor : WebAdmits environ config → 60 ≤ defaultTtl) :
    IssuesWithin maximum
      (webPresignedUrl environ config webRole bucketName path user op requested) := by
  obtain ⟨below, ceiling⟩ := resolved_le resolved
  rw [presignedUrlHardCeiling] at ceiling
  unfold IssuesWithin webPresignedUrl
  split_ifs with get
  · exact sends_raise _ _ _
  · refine (sends_bind _ _ _).mpr fun ttls same => ?_
    obtain rfl := Except.ok.inj (resolved.symm.trans same)
    unfold Web.getPresignedUrl
    rw [if_neg get]
    refine (sends_bind _ _ _).mpr fun granted ok => (sends_bind _ _ _).mpr fun target sane =>
      (sends_bind _ _ _).mpr fun validated named => ?_
    by_cases admitted : ∃ signed, validateStorageAccess config
        (some (signingRole webRole validated)) target.1 user target.2 = .ok signed
    · obtain ⟨signed, accepted⟩ := admitted
      have high := floor ⟨webRole, bucketName, path, user, target, validated, signed, sane, named,
        accepted⟩
      refine presign_within ?_
      obtain rfl | inside := grantedTtl_ok ok <;> omega
    · refine (sends_bind _ _ _).mpr fun signed accepted => ?_
      exact absurd ⟨signed, accepted⟩ admitted

theorem web_floor (resolved : resolvePresignedTtls environ config = .ok (defaultTtl, maximum))
    (within : ∀ role bucketName path user op expiresIn, IssuesWithin maximum
      (webPresignedUrl environ config role bucketName path user op expiresIn))
    (admits : WebAdmits environ config) : 60 ≤ defaultTtl := by
  obtain ⟨role, bucketName, path, user, target, validated, signed, sane, named, accepted⟩ := admits
  have sends := within role bucketName path user (lit "get") none
  unfold IssuesWithin webPresignedUrl at sends
  rw [if_neg (by simp)] at sends
  have issued := (sends_bind _ _ _).mp sends _ resolved
  dsimp only at issued
  unfold Web.getPresignedUrl at issued
  rw [if_neg (by simp)] at issued
  have granted := (sends_bind _ _ _).mp issued defaultTtl rfl
  have targeted := (sends_bind _ _ _).mp granted target sane
  have signing := (sends_bind _ _ _).mp targeted validated named
  exact (presign_lives accepted signing).1

theorem mcp_within (same : mcpMaxTtl environ config = .ok maximum) (ceiling : maximum ≤ 604800)
    (floor : McpAdmits config → 60 ≤ maximum) :
    IssuesWithin maximum
      (Mcp.presignedUrl environ.unicode config role bucket path user expiresIn) := by
  refine (sends_bind _ _ _).mpr fun maxTtl reads => ?_
  obtain rfl := Except.ok.inj (same.symm.trans reads)
  by_cases admitted : ∃ signed,
      validateStorageAccess config role bucket user path = .ok signed
  · obtain ⟨signed, accepted⟩ := admitted
    have high := floor ⟨role, bucket, path, user, signed, accepted⟩
    exact presign_within (by omega)
  · refine (sends_bind _ _ _).mpr fun signed accepted => ?_
    exact absurd ⟨signed, accepted⟩ admitted

theorem mcp_floor (same : mcpMaxTtl environ config = .ok maximum)
    (within : ∀ role bucket path user expiresIn, IssuesWithin maximum
      (Mcp.presignedUrl environ.unicode config role bucket path user expiresIn))
    (admits : McpAdmits config) : 60 ≤ maximum := by
  obtain ⟨role, bucket, path, user, signed, accepted⟩ := admits
  have signing := (sends_bind _ _ _).mp (within role bucket path user 60) maximum same
  have lives := presign_lives accepted signing
  omega

/-- The doors keep to one lifetime exactly when the settings are sound. -/
theorem oneLifetime_iff (environ : Environ) (config : Dict) :
    OneLifetime environ config ↔ TtlsSound environ config := by
  constructor
  · intro ⟨⟨defaultTtl, maximum, resolved, same, web, mcp⟩⟩
    obtain ⟨shared, bounded⟩ := shared_iff.mp ⟨defaultTtl, maximum, resolved, same⟩
    refine ⟨shared, bounded, fun admits => ?_, fun admits => ?_⟩
    · exact (defaultTtl_floor resolved).mp (web_floor resolved web admits)
    · exact (maxTtl_floor resolved).mp (mcp_floor same mcp admits)
  · intro sound
    obtain ⟨defaultTtl, maximum, resolved, same⟩ :=
      shared_iff.mpr ⟨sound.shared, sound.bounded⟩
    refine ⟨defaultTtl, maximum, resolved, same, fun _ _ _ _ _ _ => ?_, fun _ _ _ _ _ => ?_⟩
    · exact web_within resolved fun admits => (defaultTtl_floor resolved).mpr (sound.web admits)
    · exact mcp_within same (resolved_le resolved).2 fun admits =>
        (maxTtl_floor resolved).mpr (sound.mcp admits)

/-- A maximum of ten seconds is resolved, and the tool still signs for a minute. -/
theorem short_maximum_ignored :
    ¬ ∀ (environ : Environ) (config : Dict), OneLifetime environ config := by
  intro always
  have lifetimes := always ⟨Unicode.ascii, fun _ => none⟩
    [(lit "presigned_url_max_ttl", .int 10)]
  obtain ⟨⟨defaultTtl, maximum, resolved, same, _, mcp⟩⟩ := lifetimes
  have ten : maximum = 10 := (Except.ok.inj same).symm
  have admits : McpAdmits [(lit "presigned_url_max_ttl", .int 10)] :=
    ⟨none, lit "data", lit "a.txt", ⟨true, [], none⟩, none, rfl⟩
  have high := mcp_floor same mcp admits
  omega

end Issued

end S3Manager.Doors
