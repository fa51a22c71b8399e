import S3Manager.Python.Error

/-! `errors.py`: the typed error that a boto error is classified as, and the metric
label of an exception. A typed error is given by its class and its code. -/

set_option autoImplicit false

namespace S3Manager.Errors

open Python

section Codes

def configErrorCodes : List Str :=
  [lit "InvalidRegion", lit "InvalidLocationConstraint", lit "InvalidAccessKeyId",
    lit "InvalidArgument", lit "SignatureDoesNotMatch", lit "InvalidBucketName",
    lit "InvalidEndpoint", lit "AuthorizationHeaderMalformed"]

def notFoundCodes : List Str := [lit "NoSuchBucket", lit "NoSuchKey", lit "404"]

def accessDeniedCodes : List Str := [lit "AccessDenied", lit "Forbidden", lit "AllAccessDisabled"]

def expiredCodes : List Str :=
  [lit "ExpiredToken", lit "ExpiredTokenException", lit "TokenRefreshRequired",
    lit "RequestExpired"]

def throttledCodes : List Str :=
  [lit "SlowDown", lit "RequestLimitExceeded", lit "Throttling", lit "ThrottlingException",
    lit "TooManyRequestsException", lit "ServiceUnavailable", lit "503"]

def networkClassNames : List Str :=
  [lit "EndpointConnectionError", lit "ConnectTimeoutError", lit "ReadTimeoutError",
    lit "ConnectionClosedError", lit "DnsResolveError"]

end Codes

/-- The class and the `code` of a typed error. -/
structure TypedError where
  errorClass : S3ErrorClass
  code : Str
  deriving DecidableEq

/-- The class of a `ClientError` with this code and HTTP status, in the order of the
checks; a missing status reads as 500. -/
def classOfCode (code : Str) (status : Nat) : S3ErrorClass :=
  if code ∈ expiredCodes then .credentialsExpired
  else if code ∈ accessDeniedCodes then .accessDenied
  else if code ∈ notFoundCodes then .notFound
  else if code ∈ configErrorCodes then .config
  else if code ∈ throttledCodes ∨ status = 503 then .throttled
  else .operation

def classifyBotoError (error : PyError) : TypedError :=
  match error.kind with
  | .s3Operation errorClass code => ⟨errorClass, code⟩
  | .botoCoreError className =>
      if className ∈ networkClassNames then ⟨.network, className⟩
      else ⟨.operation, lit "Unknown"⟩
  | .clientError code status =>
      let code := if code.isEmpty then lit "Unknown" else code
      ⟨classOfCode code status, code⟩
  | _ => ⟨.operation, lit "Unknown"⟩

/-- `_METRIC_LABEL_BY_TYPE`, with its default. -/
def metricLabel : S3ErrorClass → Str
  | .accessDenied => lit "access_denied"
  | .notFound => lit "not_found"
  | .credentialsExpired => lit "credentials_expired"
  | .network => lit "network_error"
  | .config => lit "config_error"
  | .throttled => lit "throttled"
  | .operation => lit "other"

def errorCodeLabel (error : PyError) : Str :=
  metricLabel (classifyBotoError error).errorClass

section Laws

variable {error : PyError} {code : Str} {status : Nat}

theorem classify_typed {errorClass : S3ErrorClass}
    (typed : error.kind = .s3Operation errorClass code) :
    classifyBotoError error = ⟨errorClass, code⟩ := by
  unfold classifyBotoError
  rw [typed]

theorem label_missing (missing : error.kind = .fileNotFoundError) :
    errorCodeLabel error = lit "other" := by
  unfold errorCodeLabel classifyBotoError
  rw [missing]
  rfl

theorem classify_missing (raised : error.kind = .clientError code status)
    (missing : code = lit "404" ∨ code = lit "NoSuchKey") :
    (classifyBotoError error).errorClass = .notFound := by
  unfold classifyBotoError
  rw [raised]
  cases missing with
  | inl same =>
      subst same
      rfl
  | inr same =>
      subst same
      rfl

end Laws

end S3Manager.Errors
