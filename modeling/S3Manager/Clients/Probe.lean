import S3Manager.Clients.Resolve
import S3Manager.Errors.Classify

/-! The probe of a new client in `get_s3_client`: `list_buckets`, and `head_bucket`
on the buckets of the role when that is denied. Its errors are typed. -/

set_option autoImplicit false

namespace S3Manager.Clients

open Python Access Errors

/-- `role.get("allowed_buckets") or []`, and the shared bucket when that is empty;
`none` when there is no list to try. -/
def probeBuckets (config role : Dict) : Option (List Json) :=
  let allowed := dictGet role "allowed_buckets"
  if allowed.truthy then
    match allowed with
    | .arr buckets => some buckets
    | _ => none
  else sharedBuckets config

def deniedMessage : Str :=
  lit ("Your credentials don't have permission to list all buckets. " ++
    "This is normal for scoped tokens (R2, MinIO, AWS IAM with bucket-scoped policies). " ++
    "Edit this role and fill in 'Allowed Buckets' with the bucket names you want to access, " ++
    "or grant ListAllMyBuckets.")

def allFailedMessage (summary : Str) : Str :=
  lit "All allowed_buckets failed for this role: " ++ summary ++
    lit ". Check the bucket names + credentials in the role config."

def raiseTyped (typed : TypedError) (message : Str) (cause : PyError) : Result Unit :=
  .error (.raised (.s3Operation typed.errorClass typed.code) message (some cause))

/-- `", ".join(f"{name} ({err.code})" for name, err in head_failures)` -/
def failureSummary (shown : Json → Str) (failures : List (Json × PyError)) : Str :=
  (lit ", ").intercalate (failures.map fun failure =>
    shown failure.1 ++ lit " (" ++ (classifyBotoError failure.2).code ++ [')'])

/-- The loop over the allowed buckets: it ends with the first that answers. -/
def headBuckets (shown : Json → Str) (headBucket : Json → Result Unit) (probeError : PyError) :
    List Json → List (Json × PyError) → Result Unit
  | [], failures =>
      match failures.getLast? with
      | none => .ok ()
      | some failure => raiseTyped (classifyBotoError failure.2)
          (allFailedMessage (failureSummary shown failures)) probeError
  | bucket :: rest, failures =>
      match headBucket bucket with
      | .ok () => .ok ()
      | .error exc => headBuckets shown headBucket probeError rest (failures ++ [(bucket, exc)])

/-- What the probe makes of the answers of S3. `shown` is `str`, `message` the text of
a typed error. -/
def probeClient (shown : Json → Str) (message : PyError → Str) (config role : Dict)
    (listBuckets : Result Unit) (headBucket : Json → Result Unit) : Result Unit :=
  match listBuckets with
  | .ok () => .ok ()
  | .error probeError =>
      let typed := classifyBotoError probeError
      if typed.errorClass = .accessDenied then
        match probeBuckets config role with
        | some (bucket :: rest) => headBuckets shown headBucket probeError (bucket :: rest) []
        | _ => raiseTyped typed deniedMessage probeError
      else raiseTyped typed (message probeError) probeError

/-- The exception is the typed form of an error that S3 raised. -/
def TypedFrom (error exc : PyError) : Prop :=
  exc.kind = .s3Operation (classifyBotoError error).errorClass (classifyBotoError error).code

end S3Manager.Clients
