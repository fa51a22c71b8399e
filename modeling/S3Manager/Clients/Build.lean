import S3Manager.Clients.Resolve

/-! `_create_s3_client_from_role`: which connection a role entry describes. The
AWS side of a build (the STS call, the probe) is an answer of the environment
and no part of the connection. -/

set_option autoImplicit false

namespace S3Manager.Clients

open Python Access

/-- What the process environment contributes to a client. -/
structure BuildEnv where
  unicode : Unicode
  /-- `os.environ.get("AWS_REGION")` -/
  awsRegion : Option Str

/-- Where the credentials of a client come from. -/
inductive Credentials where
  | ambient
  | profile (name : Json)
  | assumeRole (arn : Json)
  | static (accessKeyId secretAccessKey : Str)
  deriving DecidableEq

/-- The keyword arguments of the boto3 client, an absent one being `none`. -/
structure ClientParams where
  credentials : Credentials
  regionName : Option Str
  endpointUrl : Option Json
  useSsl : Bool
  verify : Bool
  addressingStyle : Option Json
  deriving DecidableEq

def parseBool (unicode : Unicode) (value : Json) (fallback : Bool) : Bool :=
  match value with
  | .null => fallback
  | .bool b => b
  | .str s =>
      [lit "1", lit "true", lit "yes", lit "on"].contains (unicode.lower (strip s))
  | other => other.truthy

/-- `left or right` -/
def orElse (left right : Json) : Json :=
  if left.truthy then left else right

/-- `S3_USE_SSL` and `S3_VERIFY_SSL` -/
def s3UseSsl : Bool := true

def s3VerifySsl : Bool := true

/-- The addressing style handed to `_get_boto3_config`, with the boolean flags
of older entries behind it. -/
def addressingStyle (unicode : Unicode) (role : Dict) : Option Json :=
  let style := dictGet role "addressing_style"
  if style.truthy then some style
  else if parseBool unicode (orElse (dictGet role "path_style") (dictGet role "use_path_style"))
      false then some (.str (lit "path"))
  else none

/-- `if value: kwargs[name] = value` -/
def presentValue (value : Json) : Option Json :=
  if value.truthy then some value else none

/-- `value.strip()` on a value that may be no string. -/
def stripValue : Json → Result Str
  | .str s => .ok (strip s)
  | _ => raise .attributeError (lit "object has no attribute 'strip'")

/-- `if region and region.strip(): kwargs["region_name"] = region.strip()` -/
def staticRegion (region : Json) : Result (Option Str) :=
  if region.truthy then do
    let trimmed ← stripValue region
    .ok (if trimmed.isEmpty then none else some trimmed)
  else .ok none

/-- `(role.get("region") or "").strip() or os.environ.get("AWS_REGION") or None` -/
def assumeRoleRegion (env : BuildEnv) (region : Json) : Result (Option Str) := do
  let trimmed ← stripValue (orElse region (.str []))
  if trimmed.isEmpty then
    .ok (env.awsRegion.filter fun name => !name.isEmpty)
  else .ok (some trimmed)

/-- The two keys of a static role, present and nonempty after trimming. -/
def staticKeys (role : Dict) (required trimmedEmpty : Str) : Result (Str × Str) :=
  let accessKeyId := dictGet role "access_key_id"
  let secretAccessKey := dictGet role "secret_access_key"
  if !accessKeyId.truthy || !secretAccessKey.truthy then raise .valueError required
  else do
    let accessKeyId ← stripValue accessKeyId
    let secretAccessKey ← stripValue secretAccessKey
    if accessKeyId.isEmpty || secretAccessKey.isEmpty then raise .valueError trimmedEmpty
    else .ok (accessKeyId, secretAccessKey)

/-- `_create_s3_client_from_role` up to the AWS calls. -/
def createS3ClientFromRole (env : BuildEnv) (role : Dict) : Result ClientParams :=
  let style := addressingStyle env.unicode role
  let useSsl := parseBool env.unicode (dictGet role "use_ssl") s3UseSsl
  let verify := parseBool env.unicode (dictGet role "verify_ssl") s3VerifySsl
  let endpointUrl := presentValue (dictGet role "endpoint_url")
  let roleType := dictGet role "type"
  if roleType = .str (lit "default") then
    .ok ⟨.ambient, none, endpointUrl, useSsl, verify, style⟩
  else if roleType = .str (lit "profile") then
    let profileName := dictGet role "profile_name"
    if !profileName.truthy then
      raise .valueError (lit "profile_name is required for profile type")
    else .ok ⟨.profile profileName, none, endpointUrl, useSsl, verify, style⟩
  else if roleType = .str (lit "assume_role") then
    let roleArn := dictGet role "role_arn"
    if !roleArn.truthy then raise .valueError (lit "role_arn is required for assume_role type")
    else do
      let region ← assumeRoleRegion env (dictGet role "region")
      .ok ⟨.assumeRole roleArn, region, endpointUrl, useSsl, verify, style⟩
  else if roleType = .str (lit "credentials") then do
    let keys ← staticKeys role
      (lit "access_key_id and secret_access_key are required for credentials type")
      (lit "access_key_id and secret_access_key cannot be empty after trimming")
    let region ← staticRegion (dictGet role "region")
    .ok ⟨.static keys.1 keys.2, region, endpointUrl, useSsl, verify, style⟩
  else if roleType = .str (lit "s3_compatible") then
    -- The SSL defaults of this branch are its own, not the module constants.
    let useSsl := parseBool env.unicode (dictGet role "use_ssl") true
    let verify := parseBool env.unicode (dictGet role "verify_ssl") true
    if !(dictGet role "access_key_id").truthy || !(dictGet role "secret_access_key").truthy then
      raise .valueError
        (lit "access_key_id and secret_access_key are required for s3_compatible type")
    else if !(dictGet role "endpoint_url").truthy then
      raise .valueError (lit "endpoint_url is required for s3_compatible type")
    else do
      let accessKeyId ← stripValue (dictGet role "access_key_id")
      let secretAccessKey ← stripValue (dictGet role "secret_access_key")
      let endpoint ← stripValue (dictGet role "endpoint_url")
      if accessKeyId.isEmpty || secretAccessKey.isEmpty || endpoint.isEmpty then
        raise .valueError (lit ("access_key_id, secret_access_key, and endpoint_url " ++
          "cannot be empty after trimming"))
      else do
        let region ← staticRegion (dictGet role "region")
        .ok ⟨.static accessKeyId secretAccessKey, region, some (.str endpoint), useSsl, verify,
          style⟩
  else raise .valueError (lit "Unknown role type")

/-- A client together with the entry it was built from. -/
structure S3Client (env : BuildEnv) where
  builtFrom : Dict
  params : ClientParams
  built : createS3ClientFromRole env builtFrom = .ok params

/-- Build and probe a client for an entry. `aws` is what the AWS side answers:
an assumed role, a working probe, or the error that stops the build. -/
def buildClient (env : BuildEnv) (role : Dict) (aws : Result Unit) : Result (S3Client env) :=
  match created : createS3ClientFromRole env role with
  | .error exc => .error exc
  | .ok params =>
      match aws with
      | .error exc => .error exc
      | .ok () => .ok ⟨role, params, created⟩

section Laws

variable {env : BuildEnv}

theorem buildClient_ok {role : Dict} {aws : Result Unit} {client : S3Client env}
    (success : buildClient env role aws = .ok client) :
    client.builtFrom = role ∧ aws = .ok () := by
  unfold buildClient at success
  split at success
  · simp at success
  · split at success
    · simp at success
    · exact ⟨(Except.ok.inj success) ▸ rfl, rfl⟩

theorem buildClient_of_created {role : Dict} {params : ClientParams}
    (created : createS3ClientFromRole env role = .ok params) :
    buildClient env role (.ok ()) = .ok ⟨role, params, created⟩ := by
  unfold buildClient
  split
  · next failed => simp [created] at failed
  · next params' created' =>
      obtain rfl : params = params' := by simpa [created] using created'
      rfl

end Laws

end S3Manager.Clients
