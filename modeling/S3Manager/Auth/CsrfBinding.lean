import S3Manager.Auth.Session

/-! Which session a mutating request speaks for: the history of the exchanges
before it, whose answers are the only source of signed cookies. -/

set_option autoImplicit false

namespace S3Manager.Auth

open Python Access Config

/-- A request, when it arrives, the config it meets, and the token that is
generated should it need one. -/
structure Exchange where
  request : Request
  now : Int
  config : Dict
  generated : Str

section History

variable (jwt : Jwt) (environ : Environ) (expireMinutes : Int)

def Exchange.currentUser (exchange : Exchange) : Result (Principal × Option Str) :=
  getCurrentUser jwt environ expireMinutes exchange.config exchange.now exchange.generated
    exchange.request

/-- The answer sets this cookie. -/
def Exchange.Sets (exchange : Exchange) (cookie : Str) : Prop :=
  ∃ user, exchange.currentUser jwt environ expireMinutes = .ok (user, some cookie)

/-- `get_current_user` and `verify_csrf_token`, as a mutating route depends on them. -/
def Exchange.mutate (exchange : Exchange) : Result Principal := do
  let current ← exchange.currentUser jwt environ expireMinutes
  let _ ← verifyCsrfToken exchange.request current.1
  .ok current.1

/-- What is assumed of a request that follows a history: a cookie with a valid
signature was set by an answer, and a generated token is no header sent so far. -/
structure Trusted (history : List Exchange) (exchange : Exchange) : Prop where
  unforged : ∀ key cookie claims, getJwtSecretKey environ = .ok key →
    exchange.request.cookie sessionCookie = some cookie →
    jwt.decode key exchange.now cookie = some claims →
    ∃ earlier ∈ history, earlier.Sets jwt environ expireMinutes cookie
  fresh : ∀ sent ∈ exchange :: history,
    sent.request.header csrfHeader ≠ some exchange.generated

/-- The request shows a live cookie that was signed for its user, with the token of
its header inside. -/
def Bound (history : List Exchange) (exchange : Exchange) : Prop :=
  ∃ username key cookie claims token,
    getTrustedUsername exchange.request = some username ∧
    getJwtSecretKey environ = .ok key ∧
    exchange.request.cookie sessionCookie = some cookie ∧
    jwt.decode key exchange.now cookie = some claims ∧
    claims.sub = .str username ∧ claims.csrfToken = .str token ∧
    exchange.request.header csrfHeader = some token ∧
    ∃ earlier ∈ history, earlier.Sets jwt environ expireMinutes cookie ∧
      getTrustedUsername earlier.request = some username ∧ earlier.generated = token ∧
      exchange.now ≤ earlier.now + 60 * expireMinutes

end History

section Laws

variable {jwt : Jwt} {environ : Environ} {expireMinutes : Int} {history : List Exchange}
  {exchange : Exchange}

theorem sets_cookie {cookie : Str} (sets : exchange.Sets jwt environ expireMinutes cookie) :
    ∃ username key, getTrustedUsername exchange.request = some username ∧
      getJwtSecretKey environ = .ok key ∧
      cookie = jwt.encode key
        (sessionClaims expireMinutes exchange.now username exchange.generated) := by
  obtain ⟨user, answered⟩ := sets
  obtain ⟨username, forwarded, session | minted⟩ := currentUser_cases answered
  · obtain ⟨_, _, _, _, _, _, _, _, none⟩ := session
    cases none
  · obtain ⟨_, key, secret, same⟩ := minted
    exact ⟨username, key, forwarded, secret, Option.some.inj same⟩

theorem mutation_bound (trusted : Trusted jwt environ expireMinutes history exchange)
    {user : Principal} (proceeds : exchange.mutate jwt environ expireMinutes = .ok user) :
    Bound jwt environ expireMinutes history exchange := by
  obtain ⟨⟨current, set⟩, answered, rest⟩ := bind_eq_ok_iff.mp proceeds
  obtain ⟨accepted, verified, _⟩ := bind_eq_ok_iff.mp rest
  obtain ⟨token, sent, held⟩ := verified_header verified
  obtain ⟨username, forwarded, session | minted⟩ := currentUser_cases answered
  · obtain ⟨key, cookie, claims, secret, carried, opened, own, inside, _⟩ := session
    have tokenInside : claims.csrfToken = .str token := inside.symm.trans held
    obtain ⟨earlier, before, sets⟩ := trusted.unforged key cookie claims secret carried opened
    obtain ⟨name, signing, earlierUser, earlierKey, encoded⟩ := sets_cookie sets
    obtain rfl := Except.ok.inj (secret.symm.trans earlierKey)
    rw [encoded] at opened
    have same := jwt.decode_encode _ _ _ _ opened
    have live := jwt.decode_live _ _ _ _ (earlier.now + 60 * expireMinutes) opened (by rw [same]; rfl)
    have nameIs : name = username := by
      rw [same] at own
      exact Json.str.inj own
    have tokenIs : earlier.generated = token := by
      rw [same] at tokenInside
      exact Json.str.inj tokenInside
    rw [nameIs] at earlierUser
    refine ⟨username, key, cookie, claims, token, forwarded, secret, carried, ?_, own, tokenInside,
      sent, earlier, before, sets, earlierUser, tokenIs, live⟩
    rw [encoded]
    exact opened
  · have same : Json.str token = .str exchange.generated := held.symm.trans minted.1
    rw [Json.str.inj same] at sent
    exact absurd sent (trusted.fresh exchange List.mem_cons_self)

theorem stranger_refused (trusted : Trusted jwt environ expireMinutes history exchange)
    {cookie : Str} (carried : exchange.request.cookie sessionCookie = some cookie)
    (stranger : ∀ earlier ∈ history, earlier.Sets jwt environ expireMinutes cookie →
      getTrustedUsername earlier.request ≠ getTrustedUsername exchange.request) :
    ∃ exc, exchange.mutate jwt environ expireMinutes = .error exc := by
  cases outcome : exchange.mutate jwt environ expireMinutes with
  | error exc => exact ⟨exc, rfl⟩
  | ok user =>
      obtain ⟨username, _, shown, _, _, forwarded, _, held, _, _, _, _, earlier, before, sets,
        same, _⟩ := mutation_bound trusted outcome
      obtain rfl := Option.some.inj (held.symm.trans carried)
      exact absurd (same.trans forwarded.symm) (stranger earlier before sets)

theorem unsigned_refused (trusted : Trusted jwt environ expireMinutes history exchange)
    (unsigned : ∀ key cookie, getJwtSecretKey environ = .ok key →
      exchange.request.cookie sessionCookie = some cookie →
      jwt.decode key exchange.now cookie = none) :
    ∃ exc, exchange.mutate jwt environ expireMinutes = .error exc := by
  cases outcome : exchange.mutate jwt environ expireMinutes with
  | error exc => exact ⟨exc, rfl⟩
  | ok user =>
      obtain ⟨_, key, cookie, claims, _, _, secret, carried, opened, _⟩ :=
        mutation_bound trusted outcome
      rw [unsigned key cookie secret carried] at opened
      cases opened

/-- After any history, a mutation is bound to a session of the user it is forwarded
for: not to a stranger's cookie, and not to one without a valid signature. -/
theorem csrf_binding (trusted : Trusted jwt environ expireMinutes history exchange) :
    (∀ user, exchange.mutate jwt environ expireMinutes = .ok user →
      Bound jwt environ expireMinutes history exchange) ∧
    (∀ cookie, exchange.request.cookie sessionCookie = some cookie →
      (∀ earlier ∈ history, earlier.Sets jwt environ expireMinutes cookie →
        getTrustedUsername earlier.request ≠ getTrustedUsername exchange.request) →
      ∃ exc, exchange.mutate jwt environ expireMinutes = .error exc) ∧
    ((∀ key cookie, getJwtSecretKey environ = .ok key →
        exchange.request.cookie sessionCookie = some cookie →
        jwt.decode key exchange.now cookie = none) →
      ∃ exc, exchange.mutate jwt environ expireMinutes = .error exc) :=
  ⟨fun _ proceeds => mutation_bound trusted proceeds,
    fun _ carried stranger => stranger_refused trusted carried stranger,
    fun unsigned => unsigned_refused trusted unsigned⟩

end Laws

section Concrete

/-- A text with a mark before each character and one at the end. -/
def quote : Str → Str
  | [] => ['.']
  | c :: rest => '-' :: c :: quote rest

def unquote : Str → Option (Str × Str)
  | '.' :: rest => some ([], rest)
  | '-' :: c :: rest => (unquote rest).map fun read => (c :: read.1, read.2)
  | _ => none

theorem unquote_quote (text rest : Str) : unquote (quote text ++ rest) = some (text, rest) := by
  induction text with
  | nil => rfl
  | cons c text ih =>
      change (unquote (quote text ++ rest)).map _ = _
      rw [ih]
      rfl

def writeInt (value : Int) : Str :=
  (if value < 0 then '-' else '+') :: List.replicate value.natAbs '1'

def readInt (text : Str) : Int :=
  if text.head? = some '-' then -text.tail.length else text.tail.length

theorem readInt_writeInt (value : Int) : readInt (writeInt value) = value := by
  unfold readInt writeInt
  have magnitude : ((List.replicate value.natAbs '1').length : Int) = value.natAbs := by
    rw [List.length_replicate]
  by_cases negative : value < 0
  · rw [if_pos negative]
    change -((List.replicate value.natAbs '1').length : Int) = value
    omega
  · rw [if_neg negative]
    change ((List.replicate value.natAbs '1').length : Int) = value
    omega

def encodeQuoted (key : Str) (claims : Claims) : Str :=
  match claims with
  | ⟨.str username, .str csrfToken, some exp⟩ =>
      quote key ++ (quote username ++ (quote csrfToken ++ writeInt exp))
  | _ => []

def decodeQuoted (key : Str) (now : Int) (token : Str) : Option Claims :=
  (unquote token).bind fun signed =>
    (unquote signed.2).bind fun username =>
      (unquote username.2).bind fun csrfToken =>
        if signed.1 = key ∧ now ≤ readInt csrfToken.2 then
          some ⟨.str username.1, .str csrfToken.1, some (readInt csrfToken.2)⟩
        else none

theorem decodeQuoted_encode {key : Str} {now : Int} {claims decoded : Claims}
    (opened : decodeQuoted key now (encodeQuoted key claims) = some decoded) :
    decoded = claims := by
  unfold encodeQuoted at opened
  split at opened
  · unfold decodeQuoted at opened
    simp only [unquote_quote, Option.bind_some, readInt_writeInt] at opened
    split_ifs at opened
    exact (Option.some.inj opened).symm
  · cases opened

theorem decodeQuoted_live {key token : Str} {now expiry : Int} {claims : Claims}
    (opened : decodeQuoted key now token = some claims) (expires : claims.exp = some expiry) :
    now ≤ expiry := by
  unfold decodeQuoted at opened
  simp only [Option.bind_eq_some_iff] at opened
  obtain ⟨_, _, _, _, csrfToken, _, checked⟩ := opened
  split_ifs at checked with valid
  obtain rfl := Option.some.inj checked
  obtain rfl := Option.some.inj expires
  exact valid.2

/-- Tokens that are the key and the claims, one behind the other. -/
def Jwt.quoted : Jwt where
  encode := encodeQuoted
  decode := decodeQuoted
  decode_encode _ _ _ _ := decodeQuoted_encode
  decode_live _ _ _ _ _ := decodeQuoted_live

def secretEnviron : Environ where
  unicode := Unicode.ascii
  getenv name := if name = lit "JWT_SECRET_KEY" then some (lit "k") else none

def readOne (name value : Str) (asked : Str) : Option Str :=
  if asked = name then some value else none

/-- The first visit of a user, who has no cookie yet. -/
def firstVisit : Exchange where
  request := ⟨readOne trustedUsernameHeader (lit "ann"), fun _ => none⟩
  now := 0
  config := []
  generated := lit "t"

def annCookie : Str :=
  encodeQuoted (lit "k") (sessionClaims 1 0 (lit "ann") (lit "t"))

/-- A mutation with the cookie and the token of that visit. -/
def annMutation : Exchange where
  request := ⟨fun name => if name = csrfHeader then some (lit "t")
    else readOne trustedUsernameHeader (lit "ann") name, readOne sessionCookie annCookie⟩
  now := 1
  config := []
  generated := lit "u"

theorem firstVisit_sets : firstVisit.Sets Jwt.quoted secretEnviron 1 annCookie :=
  ⟨_, rfl⟩

theorem annMutation_trusted : Trusted Jwt.quoted secretEnviron 1 [firstVisit] annMutation where
  unforged key cookie claims _ carried _ := by
    refine ⟨firstVisit, List.mem_cons_self, ?_⟩
    obtain rfl : annCookie = cookie := Option.some.inj carried
    exact firstVisit_sets
  fresh sent member := by
    obtain rfl | earlier := List.mem_cons.mp member
    · decide
    · obtain rfl := List.mem_singleton.mp earlier
      decide

theorem csrf_binding_ann : Bound Jwt.quoted secretEnviron 1 [firstVisit] annMutation :=
  (csrf_binding annMutation_trusted).1 ⟨lit "ann", false, [], none, [], .str (lit "t")⟩ rfl

end Concrete

end S3Manager.Auth
