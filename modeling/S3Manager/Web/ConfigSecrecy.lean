import S3Manager.Auth.CsrfBinding
import S3Manager.Web.ConfigRoutes

/-! `GET /api/config` for any request: what its answer may depend on. Secret keys make no
difference to anybody, and roles that the groups of a user do not name make none to the user. -/

set_option autoImplicit false

namespace S3Manager.Web

open Python Access Config Library Auth

section Model

variable (environ : Environ) (config : Dict)

/-- The roles that are shown to a user who is no administrator. -/
def filteredRoles (allowedRoles : List Json) : List Json → Result (List Json)
  | [] => .ok []
  | .obj role :: rest =>
      if dictGet role "name" ∈ allowedRoles then do
        let sanitized ← sanitizeRole (.obj role)
        let others ← filteredRoles allowedRoles rest
        .ok (sanitized :: others)
      else filteredRoles allowedRoles rest
  | _ :: _ => raise .attributeError (lit "object has no attribute 'get'")

/-- `roles` of the answer, for a user who is no administrator. -/
def userRoles (allowedRoles : List Json) : Result (List Json) :=
  if allowedRoles.isEmpty then .ok []
  else iterate (configRoles config) >>= filteredRoles allowedRoles

/-- `get_config` for a user who is no administrator. -/
def getUserConfig (allowedRoles : List Json) : Result Dict := do
  let maxFileSize ← shownLimit environ config "max_file_size" "MAX_FILE_SIZE" defaultMaxFileSize
  let maxClientLoad ←
    shownLimit environ config "max_client_load" "MAX_CLIENT_LOAD" defaultMaxClientLoad
  let ttls ← resolvePresignedTtls environ config
  let roles ← userRoles config allowedRoles
  .ok [(lit "roles", .arr roles), (lit "current_role", allowedRoles.head?.getD (.str [])),
    (lit "disable_deletion", shownDeletion environ config),
    (lit "enable_lazy_loading", .bool (lazyLoading environ config)),
    (lit "max_file_size", maxFileSize), (lit "max_client_load", maxClientLoad),
    (lit "presigned_url_default_ttl", .int ttls.1), (lit "presigned_url_max_ttl", .int ttls.2),
    (lit "preview_text_extensions", dictGetD config "preview_text_extensions" (.arr [])),
    (lit "upload_inline_extensions", dictGetD config "upload_inline_extensions" (.arr []))]

/-- What the route has apart from the two configs that it loads. -/
structure ConfigVisit where
  jwt : Jwt
  environ : Environ
  expireMinutes : Int
  now : Int
  generated : Str
  request : Request
  dataDir : Str
  writable : Bool

/-- The route: the principal is made from the config that is loaded for it, and the answer from
the one that is loaded, or reloaded, afterwards. With the answer comes the cookie that is set. -/
def ConfigVisit.serve (visit : ConfigVisit) (authConfig config : Dict) :
    Result (Dict × Option Str) := do
  let (user, cookie) ← getCurrentUser visit.jwt visit.environ visit.expireMinutes authConfig
    visit.now visit.generated visit.request
  let shown ←
    if user.isAdmin then getConfig visit.environ config visit.dataDir visit.writable
    else getUserConfig visit.environ config user.allowedRoles
  .ok (shown, cookie)

end Model

section Alike

/-- The names of roles that users of these groups may see. -/
def Visible (groups : List Str) (name : Json) : Prop :=
  groups.contains adminGroup = true ∨ ∃ group ∈ groups, name = .str group

def secretKey : Str := lit "secret_access_key"

/-- Lists of roles that differ in secrets, and in roles that these groups may not see. -/
inductive AlikeRoles (groups : List Str) : List Json → List Json → Prop where
  | nil : AlikeRoles groups [] []
  | same {entry : Json} {left right : List Json} :
      AlikeRoles groups left right → AlikeRoles groups (entry :: left) (entry :: right)
  | secret {first second : Dict} {left right : List Json} :
      Assoc.erase first secretKey = Assoc.erase second secretKey →
      AlikeRoles groups left right → AlikeRoles groups (.obj first :: left) (.obj second :: right)
  | left {role : Dict} {left right : List Json} : ¬ Visible groups (dictGet role "name") →
      AlikeRoles groups left right → AlikeRoles groups (.obj role :: left) right
  | right {role : Dict} {left right : List Json} : ¬ Visible groups (dictGet role "name") →
      AlikeRoles groups left right → AlikeRoles groups left (.obj role :: right)

/-- Configs that differ in such roles only. -/
structure AlikeConfigs (groups : List Str) (first second : Dict) : Prop where
  others : ∀ key, key ≠ lit "roles" → Assoc.get? first key = Assoc.get? second key
  roles : configRoles first = configRoles second ∨ ∃ left right,
    configRoles first = .arr left ∧ configRoles second = .arr right ∧ AlikeRoles groups left right

variable {groups : List Str} {first second : Dict} {left right names : List Json}

theorem get?_of_erase {key : Str} (same : Assoc.erase first secretKey = Assoc.erase second secretKey)
    (other : key ≠ secretKey) : Assoc.get? first key = Assoc.get? second key := by
  rw [← Assoc.get?_erase_ne first other, ← Assoc.get?_erase_ne second other, same]

theorem name_of_erase (same : Assoc.erase first secretKey = Assoc.erase second secretKey) :
    dictGet first "name" = dictGet second "name" := by
  rw [dictGet, get?_of_erase same (by decide), dictGet]

theorem nameD_of_erase {fallback : Json}
    (same : Assoc.erase first secretKey = Assoc.erase second secretKey) :
    dictGetD first "name" fallback = dictGetD second "name" fallback := by
  rw [dictGetD, get?_of_erase same (by decide), dictGetD]

theorem resolve_cons (name : Json) (names : List Json) :
    resolveAllowedRoles groups (name :: names) =
      resolveAllowedRoles groups [name] ++ resolveAllowedRoles groups names := by
  unfold resolveAllowedRoles
  split_ifs with admin
  · rfl
  · rw [← List.filter_append]
    rfl

theorem resolve_hidden {name : Json} (hidden : ¬ Visible groups name) :
    resolveAllowedRoles groups [name] = [] := by
  have plain : groups.contains adminGroup = false := by
    simpa using fun admin => hidden (.inl (by simpa using admin))
  have unnamed : (groups.any fun group => decide (name = .str group)) = false := by
    simpa using fun group member same => hidden (.inr ⟨group, member, same⟩)
  simp only [resolveAllowedRoles, plain, Bool.false_eq_true, if_false, List.filter_cons, unnamed,
    List.filter_nil]

/-- What a role adds to the roles that the groups allow. -/
theorem allowed_cons (role : Dict) (rest : List Json) :
    (roleNamesFromConfig (.obj role :: rest)).map (resolveAllowedRoles groups) =
      ((roleNamesFromConfig rest).map (resolveAllowedRoles groups)).map fun allowed =>
        (if (dictGet role "name").truthy then resolveAllowedRoles groups [dictGet role "name"]
          else []) ++ allowed := by
  simp only [roleNamesFromConfig]
  cases roleNamesFromConfig rest with
  | error exc => rfl
  | ok names =>
      show Except.ok _ = Except.ok _
      split_ifs with named
      · rw [resolve_cons]
      · rfl

theorem allowed_hidden {role : Dict} (hidden : ¬ Visible groups (dictGet role "name"))
    (rest : List Json) :
    (roleNamesFromConfig (.obj role :: rest)).map (resolveAllowedRoles groups) =
      (roleNamesFromConfig rest).map (resolveAllowedRoles groups) := by
  rw [allowed_cons, resolve_hidden hidden]
  cases roleNamesFromConfig rest <;> simp [Except.map]

/-- The roles that a principal is allowed are the same. -/
theorem allowed_alike (alike : AlikeRoles groups left right) :
    (roleNamesFromConfig left).map (resolveAllowedRoles groups) =
      (roleNamesFromConfig right).map (resolveAllowedRoles groups) := by
  induction alike with
  | nil => rfl
  | @same entry left right _ ih =>
      cases entry with
      | obj role => rw [allowed_cons, allowed_cons, ih]
      | null | bool _ | int _ | float _ | str _ | arr _ => rfl
  | secret same _ ih => rw [allowed_cons, allowed_cons, ih, name_of_erase same]
  | left hidden _ ih => rw [allowed_hidden hidden, ih]
  | right hidden _ ih => rw [allowed_hidden hidden, ih]

theorem sanitize_alike (same : Assoc.erase first secretKey = Assoc.erase second secretKey) :
    sanitizeRole (.obj first) = sanitizeRole (.obj second) := by
  show Except.ok _ = Except.ok _
  rw [show Assoc.erase first (lit "secret_access_key") = _ from same]
  rfl

/-- Roles that a user may not see are not shown. -/
theorem filtered_alike (alike : AlikeRoles groups left right)
    (allowed : ∀ name ∈ names, Visible groups name) :
    filteredRoles names left = filteredRoles names right := by
  induction alike with
  | nil => rfl
  | @same entry left right _ ih =>
      cases entry with
      | obj role => simp only [filteredRoles, ih]
      | null | bool _ | int _ | float _ | str _ | arr _ => rfl
  | secret same _ ih => simp only [filteredRoles, ih, name_of_erase same, sanitize_alike same]
  | left hidden _ ih =>
      rw [filteredRoles, if_neg fun member => hidden (allowed _ member), ih]
  | right hidden _ ih =>
      rw [ih, filteredRoles, if_neg fun member => hidden (allowed _ member)]

/-- An administrator may see every role, but no secret. -/
theorem sanitized_alike (admin : groups.contains adminGroup = true)
    (alike : AlikeRoles groups left right) : sanitizeRoles left = sanitizeRoles right := by
  induction alike with
  | nil => rfl
  | same _ ih => simp only [sanitizeRoles, ih]
  | secret same _ ih => simp only [sanitizeRoles, ih, sanitize_alike same]
  | left hidden _ _ => exact absurd (.inl admin) hidden
  | right hidden _ _ => exact absurd (.inl admin) hidden

theorem effective_alike (admin : groups.contains adminGroup = true)
    (alike : AlikeRoles groups left right) :
    effectiveRole (.arr left) = effectiveRole (.arr right) := by
  cases alike with
  | nil => rfl
  | @same entry _ _ _ => cases entry <;> rfl
  | secret same _ =>
      show Except.ok _ = Except.ok _
      rw [nameD_of_erase same]
  | left hidden _ => exact absurd (.inl admin) hidden
  | right hidden _ => exact absurd (.inl admin) hidden

end Alike

section Answers

variable {groups : List Str} {first second : Dict} {names : List Json} {environ : Environ}

theorem dictGet_alike (alike : AlikeConfigs groups first second) {key : String}
    (other : lit key ≠ lit "roles") : dictGet first key = dictGet second key := by
  rw [dictGet, alike.others _ other]
  rfl

theorem dictGetD_alike (alike : AlikeConfigs groups first second) {key : String} {fallback : Json}
    (other : lit key ≠ lit "roles") :
    dictGetD first key fallback = dictGetD second key fallback := by
  rw [dictGetD, alike.others _ other]
  rfl

/-- The settings that everybody is shown. -/
theorem settings_alike (alike : AlikeConfigs groups first second) :
    resolvePresignedTtls environ first = resolvePresignedTtls environ second ∧
      shownDeletion environ first = shownDeletion environ second ∧
        lazyLoading environ first = lazyLoading environ second ∧
          ∀ key envName fallback, lit key ≠ lit "roles" →
            shownLimit environ first key envName fallback =
              shownLimit environ second key envName fallback := by
  refine ⟨?_, ?_, ?_, fun key envName fallback other => ?_⟩
  · simp only [resolvePresignedTtls, maxTtlSetting, defaultTtlSetting, ttlSetting,
      @dictGet_alike _ _ _ alike "presigned_url_max_ttl" (by decide),
      @dictGet_alike _ _ _ alike "presigned_url_default_ttl" (by decide)]
  · simp only [shownDeletion, @dictGetD_alike _ _ _ alike "disable_deletion" _ (by decide)]
  · simp only [lazyLoading, @dictGet_alike _ _ _ alike "enable_lazy_loading" (by decide)]
  · simp only [shownLimit, dictGet_alike alike other]

theorem plain_alike (alike : AlikeConfigs groups first second) :
    (plainFields.map fun field => (lit field.1, dictGetD first field.1 field.2)) =
      plainFields.map fun field => (lit field.1, dictGetD second field.1 field.2) := by
  have others : ∀ field ∈ plainFields, lit field.1 ≠ lit "roles" := by decide
  exact List.map_congr_left fun field member => by rw [dictGetD_alike alike (others field member)]

theorem listed_bind {β : Type} (shown : List Json → Result (List Json))
    (next : List Json → Result β) (config : Dict) :
    (do
      let listed ← iterate (configRoles config)
      let roles ← shown listed
      next roles) = (iterate (configRoles config) >>= shown) >>= next :=
  (bind_assoc _ _ _).symm

/-- What an administrator is shown. -/
theorem getConfig_alike (alike : AlikeConfigs groups first second)
    (admin : groups.contains adminGroup = true) (dataDir : Str) (writable : Bool) :
    getConfig environ first dataDir writable = getConfig environ second dataDir writable := by
  obtain ⟨ttls, deletion, lazy, limit⟩ := @settings_alike groups first second environ alike
  have roles : effectiveRole (configRoles first) = effectiveRole (configRoles second) ∧
      (iterate (configRoles first) >>= sanitizeRoles) =
        (iterate (configRoles second) >>= sanitizeRoles) := by
    obtain same | ⟨left, right, isLeft, isRight, alikeRoles⟩ := alike.roles
    · rw [same]
      exact ⟨rfl, rfl⟩
    · rw [isLeft, isRight]
      exact ⟨effective_alike admin alikeRoles, sanitized_alike admin alikeRoles⟩
  simp only [getConfig, ttls, deletion, lazy, plain_alike alike, roles.1, listed_bind, roles.2,
    limit "max_file_size" _ _ (by decide), limit "max_client_load" _ _ (by decide)]

/-- What a user is shown. -/
theorem getUserConfig_alike (alike : AlikeConfigs groups first second)
    (allowed : ∀ name ∈ names, Visible groups name) :
    getUserConfig environ first names = getUserConfig environ second names := by
  obtain ⟨ttls, deletion, lazy, limit⟩ := @settings_alike groups first second environ alike
  have roles : userRoles first names = userRoles second names := by
    unfold userRoles
    obtain same | ⟨left, right, isLeft, isRight, alikeRoles⟩ := alike.roles
    · rw [same]
    · rw [isLeft, isRight]
      exact congrArg _ (filtered_alike alikeRoles allowed)
  simp only [getUserConfig, ttls, deletion, lazy, roles,
    @dictGetD_alike _ _ _ alike "preview_text_extensions" _ (by decide),
    @dictGetD_alike _ _ _ alike "upload_inline_extensions" _ (by decide),
    limit "max_file_size" _ _ (by decide), limit "max_client_load" _ _ (by decide)]

/-- A principal reads the configured roles through those that its groups allow. -/
theorem buildPrincipal_eq (username : Str) (roles : Json) :
    buildPrincipal username groups roles =
      ((iterate roles >>= roleNamesFromConfig).map (resolveAllowedRoles groups)).map fun allowed =>
        ⟨username, groups.contains adminGroup, allowed, allowed.head?, groups, .null⟩ := by
  unfold buildPrincipal
  cases iterate roles with
  | error exc => rfl
  | ok entries =>
      simp only [result_bind_ok]
      cases roleNamesFromConfig entries <;> rfl

theorem buildPrincipal_alike (alike : AlikeConfigs groups first second) (username : Str) :
    buildPrincipal username groups (configRoles first) =
      buildPrincipal username groups (configRoles second) := by
  obtain same | ⟨left, right, isLeft, isRight, alikeRoles⟩ := alike.roles
  · rw [same]
  · rw [buildPrincipal_eq, buildPrincipal_eq, isLeft, isRight]
    exact congrArg _ (allowed_alike alikeRoles)

/-- Nobody is allowed a role that its groups may not see. -/
theorem allowed_visible {username : Str} {roles : Json} {user : Principal}
    (built : buildPrincipal username groups roles = .ok user) :
    user.isAdmin = groups.contains adminGroup ∧
      ∀ name ∈ user.allowedRoles, Visible groups name := by
  obtain ⟨entries, -, rest⟩ := bind_eq_ok_iff.mp built
  obtain ⟨configured, -, rest⟩ := bind_eq_ok_iff.mp rest
  obtain rfl := Except.ok.inj rest
  refine ⟨rfl, fun name member => ?_⟩
  dsimp only [resolveAllowedRoles] at member
  split_ifs at member with admin
  · exact .inl admin
  · obtain ⟨-, granted⟩ := List.mem_filter.mp member
    obtain ⟨group, listed, named⟩ := List.any_eq_true.mp granted
    exact .inr ⟨group, listed, of_decide_eq_true named⟩

theorem currentUser_visible {jwt : Jwt} {expireMinutes now : Int} {generated : Str}
    {request : Request} {user : Principal} {cookie : Option Str}
    (ok : getCurrentUser jwt environ expireMinutes first now generated request =
      .ok (user, cookie)) :
    user.isAdmin = (getTrustedGroups request).contains adminGroup ∧
      ∀ name ∈ user.allowedRoles, Visible (getTrustedGroups request) name := by
  unfold getCurrentUser at ok
  split at ok
  · cases ok
  · obtain ⟨principal, built, rest⟩ := bind_eq_ok_iff.mp ok
    have visible := allowed_visible built
    obtain ⟨payload, -, rest⟩ := bind_eq_ok_iff.mp rest
    dsimp only at rest
    split_ifs at rest
    · obtain ⟨rfl, -⟩ := Prod.mk.inj (Except.ok.inj rest)
      exact visible
    · obtain ⟨token, -, rest⟩ := bind_eq_ok_iff.mp rest
      obtain ⟨rfl, -⟩ := Prod.mk.inj (Except.ok.inj rest)
      exact visible

end Answers

section Secrecy

/-- The answer and the cookie of the route depend on no secret key, and, without the group of the
administrators, on no role that the groups do not name: neither where the principal is made nor
where the roles are shown. -/
theorem config_answer_blind (visit : ConfigVisit) {authFirst authSecond first second : Dict}
    (authAlike : AlikeConfigs (getTrustedGroups visit.request) authFirst authSecond)
    (alike : AlikeConfigs (getTrustedGroups visit.request) first second) :
    visit.serve authFirst first = visit.serve authSecond second := by
  have current : getCurrentUser visit.jwt visit.environ visit.expireMinutes authFirst visit.now
      visit.generated visit.request = getCurrentUser visit.jwt visit.environ visit.expireMinutes
        authSecond visit.now visit.generated visit.request := by
    unfold getCurrentUser
    cases getTrustedUsername visit.request with
    | none => rfl
    | some username => simp only [buildPrincipal_alike authAlike]
  unfold ConfigVisit.serve
  rw [← current]
  cases known : getCurrentUser visit.jwt visit.environ visit.expireMinutes authFirst visit.now
      visit.generated visit.request with
  | error exc => rfl
  | ok identity =>
      obtain ⟨user, cookie⟩ := identity
      obtain ⟨admin, allowed⟩ := currentUser_visible known
      simp only [result_bind_ok]
      split_ifs with isAdmin
      · rw [getConfig_alike alike (admin ▸ isAdmin)]
      · rw [getUserConfig_alike alike allowed]

/-- A user of the group `photos`. -/
def photosVisit : ConfigVisit where
  jwt := Jwt.quoted
  environ := secretEnviron
  expireMinutes := 1
  now := 0
  generated := lit "t"
  request :=
    ⟨fun name => if name = trustedGroupsHeader then some (lit "photos")
      else readOne trustedUsernameHeader (lit "ann") name, fun _ => none⟩
  dataDir := []
  writable := true

def photosRole (secret : String) : Json :=
  .obj [(lit "name", .str (lit "photos")), (lit "secret_access_key", .str (lit secret))]

/-- The config without a role that this user may not see, and with it. -/
def narrowConfig (secret : String) : Dict := [(lit "roles", .arr [photosRole secret])]

def widerConfig (secret : String) : Dict :=
  [(lit "roles", .arr [.obj [(lit "name", .str (lit "vault"))], photosRole secret])]

theorem photos_blind :
    (photosVisit.serve (narrowConfig "a") (narrowConfig "a")).isOk = true ∧
      photosVisit.serve (narrowConfig "a") (narrowConfig "a") =
        photosVisit.serve (widerConfig "b") (widerConfig "b") := by
  have hidden : ¬ Visible (getTrustedGroups photosVisit.request) (.str (lit "vault")) := by
    have groups : getTrustedGroups photosVisit.request = [lit "photos"] := by decide
    rw [groups]
    rintro (admin | ⟨group, listed, same⟩)
    · exact absurd admin (by decide)
    · obtain rfl := List.mem_singleton.mp listed
      exact absurd same (by decide)
  have alike : AlikeConfigs (getTrustedGroups photosVisit.request) (narrowConfig "a")
      (widerConfig "b") := by
    refine ⟨fun key other => ?_, .inr ⟨_, _, rfl, rfl, .right hidden (.secret rfl .nil)⟩⟩
    simp only [narrowConfig, widerConfig, Assoc.get?, if_neg (Ne.symm other)]
  exact ⟨by decide, config_answer_blind photosVisit alike alike⟩

end Secrecy

end S3Manager.Web
