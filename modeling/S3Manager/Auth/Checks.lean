import Mathlib.Data.Bool.AllAny
import S3Manager.Auth.Session
import S3Manager.Library.Base64
import S3Manager.Python.AsciiCase

/-! The two checks that compare a secret of a request with the expected one: the CSRF
token of `auth.py`, and the basic credentials of `/metrics` in `main.py`. -/

set_option autoImplicit false

namespace S3Manager.Auth

open Python Access Config Library

section Metrics

def authorizationHeader : Str := lit "authorization"

/-- `base64.b64decode` of a text: anything outside ASCII is a `ValueError`. -/
def b64decode (text : Str) : Option (List UInt8) :=
  if isAscii text then Base64.decodeLenient 0 0 0 text else none

/-- `username, password = decoded.split(":", 1)` -/
def splitCredentials (decoded : Str) : Option (Str × Str) :=
  if ':' ∈ decoded then
    some (decoded.takeWhile (· != ':'), (decoded.dropWhile (· != ':')).drop 1)
  else none

/-- The two assignments of the `try` block; nothing stands for what they raise. -/
def basicCredentials (auth : Str) : Option (Str × Str) := do
  let decoded ← b64decode (auth.drop 6)
  let decoded ← utf8Decode decoded
  splitCredentials decoded

variable (environ : Environ)

/-- `_check_metrics_auth` -/
def checkMetricsAuth (request : Request) : Result Unit :=
  let expected := (environ.getenv (lit "METRICS_PASSWORD")).getD []
  if expected.isEmpty then .ok ()
  else
    let auth := (request.header authorizationHeader).getD []
    if !startsWith (environ.unicode.lower auth) (lit "basic ") then
      raise (.httpException 401) (lit "Basic auth required")
    else
      match basicCredentials auth with
      | none => raise (.httpException 401) (lit "Malformed basic auth")
      | some (username, password) =>
          if username ≠ lit "metrics" then
            raise (.httpException 401) (lit "Invalid credentials")
          else do
            let same ← compareDigest password (.str expected)
            if same then .ok ()
            else raise (.httpException 401) (lit "Invalid credentials")

end Metrics

section Law

/-- A check that accepts, or answers 401 or 403. -/
def FailsClosed {α : Type} (result : Result α) : Prop :=
  match result with
  | .ok _ => True
  | .error exc => exc.kind = .httpException 401 ∨ exc.kind = .httpException 403

variable {environ : Environ} {request : Request} {user : Principal}

theorem failsClosed_http {α : Type} {status : Nat} (known : status = 401 ∨ status = 403)
    (detail : Str) : FailsClosed (raise (.httpException status) detail : Result α) := by
  rcases known with rfl | rfl
  · exact .inl rfl
  · exact .inr rfl

/-- Where another value is answered with 401 or 403, only the comparison can go wrong: it
takes ASCII texts alone. -/
theorem failsClosed_compared {α : Type} {given : Str} {expected : Json} {accepted : α}
    {status : Nat} {detail : Str} (known : status = 401 ∨ status = 403) :
    FailsClosed (do
      let same ← compareDigest given expected
      if same then .ok accepted else raise (.httpException status) detail) ↔
      isAscii given = true ∧ ∃ token, expected = .str token ∧ isAscii token = true := by
  cases expected with
  | str token =>
      by_cases ascii : (isAscii given && isAscii token) = true
      · simp only [compareDigest, ascii, if_true, result_bind_ok]
        obtain ⟨left, right⟩ : isAscii given = true ∧ isAscii token = true := by simpa using ascii
        refine iff_of_true ?_ ⟨left, token, rfl, right⟩
        split
        · trivial
        · exact failsClosed_http known detail
      · simp only [compareDigest, ascii]
        refine iff_of_false (fun closed => ?_) ?_
        · rcases closed with kind | kind <;> cases kind
        · rintro ⟨left, _, ⟨⟩, right⟩
          exact ascii (by simp [left, right])
  | null | bool _ | int _ | float _ | arr _ | obj _ =>
      refine iff_of_false (fun closed => ?_) ?_
      · rcases closed with kind | kind <;> cases kind
      · rintro ⟨-, token, ⟨⟩, -⟩

/-- The token of the header meets one that it can be compared with. -/
def ComparableToken (request : Request) (user : Principal) : Prop :=
  ∀ token, request.header csrfHeader = some token → token ≠ [] →
    user.csrfToken.truthy = true →
      isAscii token = true ∧ ∃ expected, user.csrfToken = .str expected ∧ isAscii expected = true

/-- Credentials for the user `metrics` meet a password they can be compared with. -/
def ComparablePassword (environ : Environ) (request : Request) : Prop :=
  ∀ expected auth password, environ.getenv (lit "METRICS_PASSWORD") = some expected →
    expected ≠ [] → request.header authorizationHeader = some auth →
      startsWith (environ.unicode.lower auth) (lit "basic ") = true →
        basicCredentials auth = some (lit "metrics", password) →
          isAscii password = true ∧ isAscii expected = true

theorem verify_closed_iff :
    FailsClosed (verifyCsrfToken request user) ↔ ComparableToken request user := by
  unfold verifyCsrfToken ComparableToken
  cases sent : request.header csrfHeader with
  | none => exact iff_of_true (failsClosed_http (.inr rfl) _) (by simp)
  | some token =>
      by_cases empty : token = []
      · subst empty
        exact iff_of_true (failsClosed_http (.inr rfl) _) (by simp)
      have shown : token.isEmpty = false := by simpa using empty
      by_cases live : user.csrfToken.truthy = true
      · simp only [shown, live, Bool.not_true, Bool.false_eq_true, if_false]
        refine (failsClosed_compared (.inr rfl)).trans ?_
        constructor
        · rintro comparable _ ⟨⟩ - -
          exact comparable
        · intro comparable
          exact comparable token rfl empty trivial
      · simp only [shown, live, Bool.not_false, Bool.false_eq_true, if_false, if_true]
        exact iff_of_true (failsClosed_http (.inr rfl) _) (fun _ _ _ absurd => by cases absurd)

theorem metrics_closed_iff :
    FailsClosed (checkMetricsAuth environ request) ↔ ComparablePassword environ request := by
  unfold checkMetricsAuth ComparablePassword
  cases configured : environ.getenv (lit "METRICS_PASSWORD") with
  | none => exact iff_of_true trivial (by simp)
  | some expected =>
      by_cases open_ : expected = []
      · subst open_
        refine iff_of_true trivial ?_
        rintro _ _ _ ⟨⟩ live
        exact absurd rfl live
      have closed : expected.isEmpty = false := by simpa using open_
      simp only [Option.getD_some, closed, Bool.false_eq_true, if_false]
      cases sent : request.header authorizationHeader with
      | none =>
          have lower : environ.unicode.lower [] = [] := environ.unicode.lower_ascii [] (by simp)
          have other : startsWith [] (lit "basic ") = false := by decide
          simp only [Option.getD_none, lower, other, Bool.not_false, if_true]
          exact iff_of_true (failsClosed_http (.inl rfl) _) (by simp)
      | some auth =>
          simp only [Option.getD_some]
          by_cases basic : startsWith (environ.unicode.lower auth) (lit "basic ") = true
          · simp only [basic, Bool.not_true, Bool.false_eq_true, if_false]
            cases read : basicCredentials auth with
            | none =>
                refine iff_of_true (failsClosed_http (.inl rfl) _) ?_
                rintro _ _ password ⟨⟩ - ⟨⟩ - found
                rw [read] at found
                cases found
            | some credentials =>
                obtain ⟨username, password⟩ := credentials
                by_cases named : username = lit "metrics"
                · subst named
                  simp only [ne_eq, not_true_eq_false, if_false]
                  refine (failsClosed_compared (.inl rfl)).trans ⟨?_, fun comparable => ?_⟩
                  · rintro ⟨given, _, ⟨⟩, kept⟩ _ _ _ ⟨⟩ - ⟨⟩ - found
                    rw [read] at found
                    cases found
                    exact ⟨given, kept⟩
                  · obtain ⟨given, kept⟩ :=
                      comparable expected auth password rfl open_ rfl basic read
                    exact ⟨given, expected, rfl, kept⟩
                · simp only [ne_eq, named, not_false_eq_true, if_true]
                  refine iff_of_true (failsClosed_http (.inl rfl) _) ?_
                  rintro _ _ _ ⟨⟩ - ⟨⟩ - found
                  rw [read] at found
                  cases found
                  exact absurd rfl named
          · simp only [basic, Bool.not_false, if_true]
            refine iff_of_true (failsClosed_http (.inl rfl) _) ?_
            rintro _ _ _ ⟨⟩ - ⟨⟩ started -
            exact absurd started basic

/-- The right credentials are read back. -/
theorem basicCredentials_encoded {scheme : Str} (six : scheme.length = 6) (password : Str) :
    basicCredentials (scheme ++ Base64.encode (utf8Encode (lit "metrics:" ++ password))) =
      some (lit "metrics", password) := by
  have ascii : isAscii (Base64.encode (utf8Encode (lit "metrics:" ++ password))) = true := by
    simp only [isAscii, List.all_eq_true, decide_eq_true_eq]
    exact fun c member => Base64.encode_ascii member
  have dropped : (scheme ++ Base64.encode (utf8Encode (lit "metrics:" ++ password))).drop 6 =
      Base64.encode (utf8Encode (lit "metrics:" ++ password)) := by
    rw [← six]
    exact List.drop_left
  rw [basicCredentials, dropped, b64decode, if_pos ascii, Base64.decodeLenient_encode]
  simp only [Option.bind_eq_bind, Option.bind_some, utf8Decode_encode]
  rfl

/-- In any case of its letters, the scheme is recognised. -/
theorem basic_scheme {scheme : Str} (unicode : Unicode)
    (basic : scheme.map Char.toLower = lit "basic ") (bytes : List UInt8) :
    startsWith (unicode.lower (scheme ++ Base64.encode bytes)) (lit "basic ") = true := by
  have ascii : ∀ c ∈ scheme ++ Base64.encode bytes, c.toNat < 128 := by
    intro c member
    rcases List.mem_append.mp member with inScheme | encoded
    · have known : ∀ d ∈ lit "basic ", d.toNat < 128 :=
        List.all_iff_forall_prop.1 (by decide)
      refine ascii_of_toLower (known _ ?_)
      rw [← basic]
      exact List.mem_map_of_mem inScheme
    · exact Base64.encode_ascii encoded
  rw [unicode.lower_ascii _ ascii, List.map_append, basic, startsWith_iff]
  exact List.prefix_append _ _

/-- What becomes of the right credentials: they are accepted if they can be compared. -/
theorem checkMetricsAuth_credentials {expected scheme : Str}
    (configured : environ.getenv (lit "METRICS_PASSWORD") = some expected)
    (basic : scheme.map Char.toLower = lit "basic ")
    (sent : request.header authorizationHeader =
      some (scheme ++ Base64.encode (utf8Encode (lit "metrics:" ++ expected)))) :
    checkMetricsAuth environ request = if isAscii expected then .ok () else
      raise .typeError (lit "comparing strings with non-ASCII characters is not supported") := by
  have six : scheme.length = 6 := by
    rw [← List.length_map Char.toLower, basic]
    rfl
  unfold checkMetricsAuth
  rw [configured, sent, Option.getD_some, Option.getD_some]
  by_cases open_ : expected = []
  · subst open_
    rfl
  have closed : expected.isEmpty = false := by simpa using open_
  simp only [closed, basic_scheme environ.unicode basic, basicCredentials_encoded six, compareDigest,
    Bool.not_true, Bool.false_eq_true, if_false, ne_eq, not_true_eq_false, Bool.and_self]
  by_cases ascii : isAscii expected = true
  · simp [ascii, result_bind_ok]
  · simp [ascii, raise]

/-- Both checks answer 401 or 403 to whatever they do not accept, as long as what they compare
is ASCII, and the right credentials are accepted only if the password is. -/
theorem auth_checks_iff (environ : Environ) (request : Request) (user : Principal) :
    (FailsClosed (verifyCsrfToken request user) ↔ ComparableToken request user) ∧
      (FailsClosed (checkMetricsAuth environ request) ↔ ComparablePassword environ request) ∧
      ∀ expected scheme, environ.getenv (lit "METRICS_PASSWORD") = some expected →
        scheme.map Char.toLower = lit "basic " →
        request.header authorizationHeader =
          some (scheme ++ Base64.encode (utf8Encode (lit "metrics:" ++ expected))) →
        (checkMetricsAuth environ request = .ok () ↔ isAscii expected = true) := by
  refine ⟨verify_closed_iff, metrics_closed_iff, fun expected scheme configured basic sent => ?_⟩
  rw [checkMetricsAuth_credentials configured basic sent]
  by_cases ascii : isAscii expected = true <;> simp [ascii, raise]

end Law

section Examples

/-- The environment with this password for `/metrics`. -/
def passwordEnviron (password : String) : Environ :=
  ⟨.ascii, fun name => if name = lit "METRICS_PASSWORD" then some (lit password) else none⟩

def oneHeader (name value : Str) : Request :=
  ⟨fun header => if header = name then some value else none, fun _ => none⟩

def sessionUser : Principal :=
  ⟨lit "dayna", false, [], none, [], .str (lit "4f2a")⟩

def metricsRequest (password : String) : Request :=
  oneHeader authorizationHeader
    (lit "Basic " ++ Base64.encode (utf8Encode (lit "metrics:" ++ lit password)))

/-- A password outside ASCII locks its own credentials out, with a `TypeError`; so does a
CSRF header with a character outside ASCII. -/
theorem password_locked_out :
    checkMetricsAuth (passwordEnviron "пароль") (metricsRequest "пароль") =
        raise .typeError (lit "comparing strings with non-ASCII characters is not supported") ∧
      verifyCsrfToken (oneHeader csrfHeader (lit "é")) sessionUser =
        raise .typeError (lit "comparing strings with non-ASCII characters is not supported") := by
  refine ⟨?_, by rfl⟩
  have configured : (passwordEnviron "пароль").getenv (lit "METRICS_PASSWORD") =
      some (lit "пароль") := by
    simp [passwordEnviron]
  have sent : (metricsRequest "пароль").header authorizationHeader = some (lit "Basic " ++
      Base64.encode (utf8Encode (lit "metrics:" ++ lit "пароль"))) := by
    simp [metricsRequest, oneHeader]
  rw [checkMetricsAuth_credentials configured (by decide) sent]
  rfl

end Examples

end S3Manager.Auth
