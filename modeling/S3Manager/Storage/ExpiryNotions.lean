import S3Manager.Storage.RetryLoop

/-! The two notions of expired credentials: the codes that `classify_boto_error` types
as `CredentialsExpiredError`, and what `_is_expired_credentials_error` retries. -/

set_option autoImplicit false

namespace S3Manager.Storage

open Python Errors

/-- A `ClientError` whose `str` is `message`, with the exception it was raised from. -/
def clientError (code message : Str) (status : Nat) (cause : Option PyError) : PyError :=
  .raised (.clientError code status) message cause

def TypedExpired (exc : PyError) : Prop :=
  (classifyBotoError exc).errorClass = .credentialsExpired

section Notions

variable (unicode : Unicode)

/-- Both attempts obtain a client, and the callback raises this error on each of them. -/
def Persists {World Client α : Type} (surroundings : Surroundings World Client α) (exc : PyError)
    (world : World) : Prop :=
  ∃ first between after second again last,
    surroundings.getClient world = (.ok first, between) ∧
    surroundings.callback first between = (.error exc, after) ∧
    surroundings.getClient (surroundings.forgetClient after) = (.ok second, again) ∧
    surroundings.callback second again = (.error exc, last)

/-- The two notions agree on an error, it is retried with a rebuilt client exactly when it
is typed as expired, and an operation that meets it twice gives its caller an error of the
same type. -/
structure NotionsAgree (exc : PyError) : Prop where
  typed_iff : TypedExpired exc ↔ isExpiredCredentialsError unicode exc = true
  retried : ∀ {World Client α : Type} (surroundings : Surroundings World Client α)
    (world between after : World) (first : Client),
    surroundings.getClient world = (.ok first, between) →
    surroundings.callback first between = (.error exc, after) →
      (TypedExpired exc → executeWithRetryInner unicode surroundings world =
        attemptLoop unicode surroundings 1 1 (some exc) (surroundings.forgetClient after)) ∧
      (¬ TypedExpired exc → executeWithRetryInner unicode surroundings world =
        (.error exc, after))
  received : isExpiredCredentialsError unicode exc = true →
    ∀ {World Client α : Type} (surroundings : Surroundings World Client α) (world : World),
      Persists surroundings exc world →
        ∃ received after, executeWithRetryInner unicode surroundings world =
          (.error received, after) ∧ TypedExpired received ∧
            errorCodeLabel received = lit "credentials_expired"

/-- `_iter_error_chain`: the class and the text of an error and of its causes. -/
def errorChain : PyError → List (ErrorKind × Str)
  | .raised kind message none => [(kind, message)]
  | .raised kind message (some cause) => (kind, message) :: errorChain cause

/-- One error of a chain names an expiry: by its class, in its text or by its code. -/
def NamesExpiry : ErrorKind × Str → Prop
  | (kind, message) =>
      (∃ provider, kind = .credentialRetrievalError provider) ∨
      (∃ phrase ∈ expiredPhrases, phrase <:+: unicode.lower message) ∨
      ∃ code status, kind = .clientError code status ∧ unicode.lower code ∈ Storage.expiredCodes

theorem isExpiredError_iff {kind : ErrorKind} {message : Str} :
    isExpiredError unicode kind message = true ↔ NamesExpiry unicode (kind, message) := by
  unfold NamesExpiry
  cases kind with
  | credentialRetrievalError provider => simp [isExpiredError]
  | clientError code status => simp [isExpiredError]
  | _ => simp [isExpiredError]

theorem isExpired_iff (exc : PyError) :
    isExpiredCredentialsError unicode exc = true ↔
      ∃ link ∈ errorChain exc, NamesExpiry unicode link := by
  induction exc using isExpiredCredentialsError.induct with
  | case1 kind message => simp [isExpiredCredentialsError, errorChain, isExpiredError_iff]
  | case2 kind message cause ih =>
      simp [isExpiredCredentialsError, errorChain, isExpiredError_iff, ih]

end Notions

section Exhausted

variable {unicode : Unicode} {World Client α : Type} {surroundings : Surroundings World Client α}
  {exc : PyError} {world : World}

/-- An expiry that lasts is wrapped, and the wrapper is no expiry to `classify_boto_error`. -/
theorem persisting_wrapped (plain : isHttpException exc = false)
    (expired : isExpiredCredentialsError unicode exc = true)
    (persists : Persists surroundings exc world) :
    ∃ after, executeWithRetryInner unicode surroundings world =
      (.error (.raised .runtimeError expiredMessage (some exc)), after) := by
  obtain ⟨first, between, after, second, again, last, fetched, raised, fetchedAgain, raisedAgain⟩ :=
    persists
  refine ⟨last, ?_⟩
  rw [executeWithRetryInner, loop_raised_again fetched raised plain expired,
    loop_raised fetchedAgain raisedAgain (.inr (.inr Nat.one_ne_zero))]
  simp [plain, raiseLastError, expired]

/-- Surroundings in which every client is built and every callback raises this error. -/
def alwaysRaising (exc : PyError) : Surroundings Unit Unit Unit where
  getClient world := (.ok (), world)
  forgetClient := id
  callback _ world := (.error exc, world)

theorem alwaysRaising_persists (exc : PyError) : Persists (alwaysRaising exc) exc () :=
  ⟨(), (), (), (), (), (), rfl, rfl, rfl, rfl⟩

theorem not_received (plain : isHttpException exc = false)
    (expired : isExpiredCredentialsError unicode exc = true) : ¬ NotionsAgree unicode exc := by
  intro agree
  obtain ⟨received, after, ended, typed, -⟩ :=
    agree.received expired (alwaysRaising exc) () (alwaysRaising_persists exc)
  obtain ⟨after', wrapped⟩ := persisting_wrapped plain expired (alwaysRaising_persists exc)
  rw [wrapped] at ended
  obtain ⟨same, -⟩ := Prod.mk.inj ended
  obtain rfl := Except.error.inj same
  cases typed

end Exhausted

theorem classOfCode_expired_iff {code : Str} {status : Nat} :
    classOfCode code status = .credentialsExpired ↔ code ∈ Errors.expiredCodes := by
  unfold classOfCode
  split_ifs with listed <;> simp_all

theorem typedExpired_iff {code message : Str} {status : Nat} {cause : Option PyError} :
    TypedExpired (clientError code message status cause) ↔ code ∈ Errors.expiredCodes := by
  refine classOfCode_expired_iff.trans ?_
  -- A missing code is read as `Unknown`, which the table does not have either.
  split_ifs with empty
  · obtain rfl : code = [] := by simpa using empty
    decide
  · rfl

/-- The condition on a `ClientError`: neither table has its code, and no error of its
chain names an expiry. -/
theorem expired_notions_agree_iff (unicode : Unicode) (code message : Str) (status : Nat)
    (cause : Option PyError) :
    NotionsAgree unicode (clientError code message status cause) ↔
      code ∉ Errors.expiredCodes ∧
        ∀ link ∈ errorChain (clientError code message status cause),
          ¬ NamesExpiry unicode link := by
  have lasting : isExpiredCredentialsError unicode (clientError code message status cause) = false ↔
      ∀ link ∈ errorChain (clientError code message status cause), ¬ NamesExpiry unicode link := by
    rw [← Bool.not_eq_true, isExpired_iff]
    simp
  rw [← lasting, ← @typedExpired_iff code message status cause]
  constructor
  · intro agree
    cases expired : isExpiredCredentialsError unicode (clientError code message status cause) with
    | true => exact absurd agree (not_received rfl expired)
    | false => exact ⟨fun typed => by simpa [expired] using agree.typed_iff.mp typed, rfl⟩
  · rintro ⟨untyped, unexpired⟩
    refine ⟨by simp [untyped, unexpired], ?_, by simp [unexpired]⟩
    intro World Client α surroundings world between after first fetched raised
    refine ⟨fun typed => absurd typed untyped, fun _ => ?_⟩
    rw [executeWithRetryInner, loop_raised fetched raised (.inr (.inl unexpired))]
    have plain : isHttpException (clientError code message status cause) = false := rfl
    simp [plain, raiseLastError, unexpired]

/-- An expired token of S3 on both attempts comes back as a generic failure. -/
theorem expired_token_unreceived :
    ¬ NotionsAgree .ascii (clientError (lit "ExpiredToken")
      (lit ("An error occurred (ExpiredToken) when calling the ListObjectsV2 operation: " ++
        "The provided token has expired.")) 400 none) := by
  refine not_received rfl ((isExpired_iff _ _).mpr ⟨_, List.mem_cons_self, .inr (.inr ?_)⟩)
  exact ⟨lit "ExpiredToken", 400, rfl, by decide⟩

end S3Manager.Storage
