import S3Manager.Access.Roles
import S3Manager.Config.Migrate

/-! `auth.py`: the principal that the gateway's headers make, the signed cookie that
carries a CSRF token, and the check of that token. -/

set_option autoImplicit false

namespace S3Manager.Auth

open Python Access Config

/-- What `request.headers.get`, by lower-case names, and `request.cookies.get` read. -/
structure Request where
  header : Str → Option Str
  cookie : Str → Option Str

/-- The claims of a session cookie; a claim that is missing reads as `None`. -/
structure Claims where
  sub : Json
  csrfToken : Json
  exp : Option Int

/-- `jose.jwt` with `JWT_ALGORITHM`. Decoding ends in `none` where it raises a
`JWTError`: for a wrong signature, and after the expiry. -/
structure Jwt where
  encode : Str → Claims → Str
  decode : Str → Int → Str → Option Claims
  decode_encode : ∀ key now claims decoded,
    decode key now (encode key claims) = some decoded → decoded = claims
  decode_live : ∀ key now token claims expiry,
    decode key now token = some claims → claims.exp = some expiry → now ≤ expiry

structure Principal where
  username : Str
  isAdmin : Bool
  allowedRoles : List Json
  defaultRole : Option Json
  groups : List Str
  csrfToken : Json

section Identity

def trustedUsernameHeader : Str := lit "x-authentik-username"

def trustedGroupsHeader : Str := lit "x-authentik-groups"

def adminGroup : Str := lit "admin"

def csrfHeader : Str := lit "x-csrf-token"

def sessionCookie : Str := lit "access_token"

def getTrustedUsername (request : Request) : Option Str :=
  match request.header trustedUsernameHeader with
  | none => none
  | some username => if (strip username).isEmpty then none else some (strip username)

/-- The groups in `|`, `,` or `;` joined form, each once. -/
def parseAuthentikGroups (raw : Option Str) : List Str :=
  let joined := (raw.getD []).map fun c => if c = ';' ∨ c = ',' then '|' else c
  (joined.splitOn '|').foldl (fun groups piece =>
    if (strip piece).isEmpty || groups.contains (strip piece) then groups
    else groups ++ [strip piece]) []

def getTrustedGroups (request : Request) : List Str :=
  parseAuthentikGroups (request.header trustedGroupsHeader)

/-- `[role["name"] for role in roles if role.get("name")]` -/
def roleNamesFromConfig : List Json → Result (List Json)
  | [] => .ok []
  | .obj role :: rest => do
      let names ← roleNamesFromConfig rest
      let name := dictGet role "name"
      .ok (if name.truthy then name :: names else names)
  | _ :: _ => raise .attributeError (lit "object has no attribute 'get'")

def resolveAllowedRoles (groups : List Str) (names : List Json) : List Json :=
  if groups.contains adminGroup then names
  else names.filter fun name => groups.any fun group => decide (name = .str group)

def buildPrincipal (username : Str) (groups : List Str) (configRoles : Json) :
    Result Principal := do
  let roles ← iterate configRoles
  let names ← roleNamesFromConfig roles
  let allowed := resolveAllowedRoles groups names
  .ok ⟨username, groups.contains adminGroup, allowed, allowed.head?, groups, .null⟩

end Identity

section Session

variable (jwt : Jwt) (environ : Environ) (expireMinutes : Int)

def getJwtSecretKey : Result Str :=
  match environ.getenv (lit "JWT_SECRET_KEY") with
  | none => raise .valueError (lit "JWT_SECRET_KEY environment variable is required and must be set")
  | some key =>
      if (strip key).isEmpty ∨ key = lit "your-secret-key-change-in-production" then
        raise .valueError (lit "JWT_SECRET_KEY environment variable is required and must be set")
      else .ok key

/-- The claims that `issue_session_cookie` has signed. -/
def sessionClaims (now : Int) (username csrfToken : Str) : Claims :=
  ⟨.str username, .str csrfToken, some (now + 60 * expireMinutes)⟩

/-- `issue_session_cookie`, for a token that `generate_csrf_token` returned: the
value of the cookie. -/
def issueSessionCookie (now : Int) (username csrfToken : Str) : Result Str := do
  let key ← getJwtSecretKey environ
  .ok (jwt.encode key (sessionClaims expireMinutes now username csrfToken))

def decodeSessionPayload (now : Int) (request : Request) : Result (Option Claims) :=
  match request.cookie sessionCookie with
  | none => .ok none
  | some token =>
      if token.isEmpty then .ok none
      else do
        let key ← getJwtSecretKey environ
        .ok (jwt.decode key now token)

/-- The CSRF token of a payload that belongs to the user. -/
def sessionToken (payload : Option Claims) (username : Str) : Json :=
  match payload with
  | none => .null
  | some claims => if claims.sub = .str username then claims.csrfToken else .null

/-- `get_current_user`: the principal, and the cookie that it sets. `generated` is
the token that it would generate. -/
def getCurrentUser (config : Dict) (now : Int) (generated : Str) (request : Request) :
    Result (Principal × Option Str) :=
  match getTrustedUsername request with
  | none => raise (.httpException 401) (lit "Not authenticated")
  | some username => do
      let user ← buildPrincipal username (getTrustedGroups request) (configRoles config)
      let payload ← decodeSessionPayload jwt environ now request
      let csrfToken := sessionToken payload username
      if csrfToken.truthy then .ok ({ user with csrfToken := csrfToken }, none)
      else do
        let cookie ← issueSessionCookie jwt environ expireMinutes now username generated
        .ok ({ user with csrfToken := .str generated }, some cookie)

def isAscii (text : Str) : Bool :=
  text.all fun c => decide (c.toNat < 128)

/-- `secrets.compare_digest(header, expected)` -/
def compareDigest (header : Str) (expected : Json) : Result Bool :=
  match expected with
  | .str token =>
      if isAscii header && isAscii token then .ok (decide (header = token))
      else
        raise .typeError (lit "comparing strings with non-ASCII characters is not supported")
  | _ => raise .typeError (lit "unsupported operand types(s) or combination of types")

def verifyCsrfToken (request : Request) (currentUser : Principal) : Result Bool :=
  match request.header csrfHeader with
  | none => raise (.httpException 403) (lit "CSRF token missing")
  | some csrfToken =>
      if csrfToken.isEmpty then raise (.httpException 403) (lit "CSRF token missing")
      else if !currentUser.csrfToken.truthy then
        raise (.httpException 403) (lit "CSRF token not found in session")
      else do
        let same ← compareDigest csrfToken currentUser.csrfToken
        if same then .ok true else raise (.httpException 403) (lit "Invalid CSRF token")

end Session

section Laws

variable {jwt : Jwt} {environ : Environ} {expireMinutes : Int} {config : Dict} {now : Int}
  {generated : Str} {request : Request} {user : Principal} {cookie : Option Str}

theorem verified_header {accepted : Bool} (ok : verifyCsrfToken request user = .ok accepted) :
    ∃ token, request.header csrfHeader = some token ∧ user.csrfToken = .str token := by
  unfold verifyCsrfToken at ok
  split at ok
  · cases ok
  · next token sent =>
      split_ifs at ok with empty absent
      · cases ok
      · cases ok
      · obtain ⟨same, compared, passed⟩ := bind_eq_ok_iff.mp ok
        unfold compareDigest at compared
        split at compared
        · next expected held =>
            split_ifs at compared
            · obtain rfl := Except.ok.inj compared
              split_ifs at passed with equal
              · exact ⟨token, sent, by rw [held, of_decide_eq_true equal]⟩
              · cases passed
            · cases compared
        · cases compared

/-- What a principal comes from: the forwarded name, with the token of a session of
that name, or with a generated token. -/
theorem currentUser_cases
    (ok : getCurrentUser jwt environ expireMinutes config now generated request =
      .ok (user, cookie)) :
    ∃ username, getTrustedUsername request = some username ∧
      ((∃ key token claims, getJwtSecretKey environ = .ok key ∧
          request.cookie sessionCookie = some token ∧ jwt.decode key now token = some claims ∧
          claims.sub = .str username ∧ user.csrfToken = claims.csrfToken ∧ cookie = none) ∨
        user.csrfToken = .str generated ∧
          ∃ key, getJwtSecretKey environ = .ok key ∧ cookie = some
            (jwt.encode key (sessionClaims expireMinutes now username generated))) := by
  unfold getCurrentUser at ok
  split at ok
  · cases ok
  · next username forwarded =>
      refine ⟨username, forwarded, ?_⟩
      obtain ⟨built, _, rest⟩ := bind_eq_ok_iff.mp ok
      obtain ⟨payload, decoded, rest⟩ := bind_eq_ok_iff.mp rest
      dsimp only at rest
      split_ifs at rest with held
      · obtain ⟨rfl, rfl⟩ := Prod.mk.inj (Except.ok.inj rest)
        cases payload with
        | none => cases held
        | some claims =>
            by_cases own : claims.sub = .str username
            · unfold decodeSessionPayload at decoded
              split at decoded
              · cases decoded
              · next token carried =>
                  split_ifs at decoded
                  · cases decoded
                  · obtain ⟨key, secret, opened⟩ := bind_eq_ok_iff.mp decoded
                    refine .inl ⟨key, token, claims, secret, carried, Except.ok.inj opened, own,
                      ?_, rfl⟩
                    simp only [sessionToken, if_pos own]
            · rw [sessionToken, if_neg own] at held
              cases held
      · obtain ⟨issued, made, same⟩ := bind_eq_ok_iff.mp rest
        obtain ⟨rfl, rfl⟩ := Prod.mk.inj (Except.ok.inj same)
        obtain ⟨key, secret, encoded⟩ := bind_eq_ok_iff.mp made
        exact .inr ⟨rfl, key, secret, by rw [← Except.ok.inj encoded]⟩

end Laws

end S3Manager.Auth
