import S3Manager.Storage.Requests

/-! `execute_with_s3_retry`: one more attempt with a rebuilt client when the first
one ends in expired credentials. -/

set_option autoImplicit false

namespace S3Manager.Storage

open Python Library

section Expiry

variable (unicode : Unicode)

def expiredPhrases : List Str :=
  [lit "token is expired", lit "token expired", lit "expiredtoken", lit "expired token",
    lit "credentials have expired", lit "basic claim validations", lit "session expired",
    lit "web identity token has expired", lit "assume role with web identity failed",
    lit "sts returned error code expiredtokenexception", lit "service account token failed"]

def expiredCodes : List Str :=
  [lit "expiredtoken", lit "expiredtokenexception", lit "invalididentitytoken",
    lit "tokenexpired", lit "requestexpired"]

/-- The checks on one error of the chain. -/
def isExpiredError (kind : ErrorKind) (message : Str) : Bool :=
  match kind with
  | .credentialRetrievalError _ => true
  | .clientError code _ =>
      expiredPhrases.any (containsSub (unicode.lower message)) ||
        expiredCodes.contains (unicode.lower code)
  | _ => expiredPhrases.any (containsSub (unicode.lower message))

/-- `_is_expired_credentials_error` along the causes of an error. -/
def isExpiredCredentialsError : PyError → Bool
  | .raised kind message none => isExpiredError unicode kind message
  | .raised kind message (some cause) =>
      isExpiredError unicode kind message || isExpiredCredentialsError cause

end Expiry

section Retry

variable {α : Type} (unicode : Unicode) (roleName : Option Str) (callback : S3Program α)

def isHttpException (exc : PyError) : Bool :=
  match exc.kind with
  | .httpException _ => true
  | _ => false

def expiredMessage : Str :=
  lit ("AWS credentials for this role have expired and automatic refresh failed. " ++
    "Please re-authenticate the container or refresh the service account token.")

/-- The second attempt: nothing is retried any more. -/
def secondAttempt : S3Program α :=
  .perform (.getClient roleName) fun
    | .error exc => .pure (.error exc)
    | .ok () =>
        Program.bind callback fun
          | .ok value => .pure (.ok value)
          | .error exc =>
              if isHttpException exc then .pure (.error exc)
              else if isExpiredCredentialsError unicode exc then
                .pure (.error (.raised .runtimeError expiredMessage (some exc)))
              else .pure (.error exc)

def executeWithS3Retry : S3Program α :=
  let again : S3Program α :=
    .perform (.invalidateClient roleName) fun _ => secondAttempt unicode roleName callback
  .perform (.getClient roleName) fun
    | .error exc =>
        if isExpiredCredentialsError unicode exc then again else .pure (.error exc)
    | .ok () =>
        Program.bind callback fun
          | .ok value => .pure (.ok value)
          | .error exc =>
              if isHttpException exc then .pure (.error exc)
              else if isExpiredCredentialsError unicode exc then again
              else .pure (.error exc)

end Retry

section Laws

variable {α : Type} {permitted : S3Request → Prop}
  {faithful : (request : S3Request) → request.Answer → Prop} {unicode : Unicode}
  {roleName : Option Str} {callback : S3Program α} {post : α → Prop}

theorem secondAttempt_sends (sends : callback.Sends permitted faithful post) :
    (secondAttempt unicode roleName callback).Sends permitted faithful post := by
  refine ⟨trivial, fun reply _ => ?_⟩
  cases reply with
  | error exc => exact fun value claim => absurd claim (by simp)
  | ok _ =>
      refine (Program.wp_bind _ _ _ callback _).mpr (Program.wp_mono sends fun result => ?_)
      cases result with
      | ok value => exact id
      | error exc =>
          intro _
          dsimp only
          split_ifs <;> exact fun value claim => absurd claim (by simp)

/-- The retry sends what its callback sends, no more and no less. -/
theorem executeWithS3Retry_sends_iff :
    (executeWithS3Retry unicode roleName callback).Sends permitted faithful post ↔
      callback.Sends permitted faithful post := by
  constructor
  · intro sends
    have first := (Program.wp_bind _ _ _ callback _).mp (sends.2 (.ok ()) trivial)
    refine Program.wp_mono first fun result => ?_
    rintro holds value rfl
    exact holds value rfl
  · intro sends
    have again := @secondAttempt_sends _ _ _ unicode roleName _ _ sends
    refine ⟨trivial, fun reply _ => ?_⟩
    cases reply with
    | error exc =>
        dsimp only
        split_ifs
        · exact ⟨trivial, fun _ _ => again⟩
        · exact fun value claim => absurd claim (by simp)
    | ok _ =>
        refine (Program.wp_bind _ _ _ callback _).mpr (Program.wp_mono sends fun result => ?_)
        cases result with
        | ok value => exact id
        | error exc =>
            intro _
            dsimp only
            split_ifs
            · exact fun value claim => absurd claim (by simp)
            · exact ⟨trivial, fun _ _ => again⟩
            · exact fun value claim => absurd claim (by simp)

end Laws

end S3Manager.Storage
