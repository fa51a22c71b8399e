import S3Manager.Config.PresignedTtls
import S3Manager.Library.FieldRules
import S3Manager.Web.Routes

/-! The configuration routes of `main.py`: what `GET /api/config` shows to an
administrator, and what `POST /api/config` makes of a request body. -/

set_option autoImplicit false

namespace S3Manager.Web

open Python Access Config Library

section Show

variable (environ : Environ) (config : Dict)

/-- `sanitize_role`; a list has a `copy`, too. -/
def sanitizeRole : Json → Result Json
  | .obj role => .ok (.obj (Assoc.erase role (lit "secret_access_key")))
  | .arr items =>
      if items.contains (.str (lit "secret_access_key")) then
        raise .typeError (lit "list indices must be integers or slices, not str")
      else .ok (.arr items)
  | .null | .bool _ | .int _ | .float _ | .str _ =>
      raise .attributeError (lit "object has no attribute 'copy'")

def sanitizeRoles : List Json → Result (List Json)
  | [] => .ok []
  | role :: rest => do
      let sanitized ← sanitizeRole role
      let others ← sanitizeRoles rest
      .ok (sanitized :: others)

/-- `roles_list[0].get("name", "") if roles_list else ""` -/
def effectiveRole (roles : Json) : Result Json :=
  if roles.truthy then
    match roles with
    | .arr (.obj role :: _) => .ok (dictGetD role "name" (.str []))
    | .arr _ | .str _ => raise .attributeError (lit "object has no attribute 'get'")
    | .obj _ => raise .keyError ['0']
    | _ => raise .typeError (lit "object is not subscriptable")
  else .ok (.str [])

/-- The flag of the config, or of the environment. -/
def lazyLoading : Bool :=
  match dictGet config "enable_lazy_loading" with
  | .null => environ.isTrue "ENABLE_LAZY_LOADING" "true"
  | value => value.truthy

/-- `int(value)` of a limit, read from the environment when it is `None`. -/
def shownLimit (key envName : String) (fallback : Int) : Result Json :=
  match dictGet config key with
  | .null => environ.int envName fallback
  | value => (pyInt environ.unicode value).map .int

/-- `disable_deletion_env or disable_deletion_config` -/
def shownDeletion : Json :=
  if environ.isTrue "DISABLE_DELETION" "" then .bool true
  else dictGetD config "disable_deletion" (.bool false)

/-- The fields that are shown as they are stored, with their defaults. -/
def plainFields : List (String × Json) :=
  [("preview_text_extensions", .arr []), ("upload_inline_extensions", .arr []),
    ("password_min_length", .int 0), ("password_min_uppercase", .int 0),
    ("password_min_lowercase", .int 0), ("password_min_digits", .int 0),
    ("password_min_special", .int 0), ("mcp_enabled", .bool true),
    ("mcp_disable_writes", .bool false), ("mcp_text_extensions", .arr []),
    ("mcp_global_max_read_bytes", .int 10485760), ("mcp_summary_max_keys", .int 50000),
    ("mcp_summary_prefix_scan_pages", .int 20), ("mcp_list_page_size", .int 1000),
    ("mcp_list_max_page_size", .int 10000)]

/-- `get_config` for an administrator. -/
def getConfig (dataDir : Str) (writable : Bool) : Result Dict := do
  let maxFileSize ← shownLimit environ config "max_file_size" "MAX_FILE_SIZE" defaultMaxFileSize
  let maxClientLoad ←
    shownLimit environ config "max_client_load" "MAX_CLIENT_LOAD" defaultMaxClientLoad
  let ttls ← resolvePresignedTtls environ config
  let current ← effectiveRole (configRoles config)
  let listed ← iterate (configRoles config)
  let roles ← sanitizeRoles listed
  .ok ([(lit "roles", .arr roles), (lit "current_role", current),
      (lit "disable_deletion", shownDeletion environ config),
      (lit "enable_lazy_loading", .bool (lazyLoading environ config)),
      (lit "max_file_size", maxFileSize), (lit "max_client_load", maxClientLoad),
      (lit "presigned_url_default_ttl", .int ttls.1), (lit "presigned_url_max_ttl", .int ttls.2),
      (lit "data_dir", .str dataDir), (lit "is_read_only", .bool (!writable))] ++
    plainFields.map fun field => (lit field.1, dictGetD config field.1 field.2))

end Show

section Rules

variable (environ : Environ) (current : Dict)

abbrev ConfigRule := FieldRule Str Json PyError

/-- `try: int(value) except (ValueError, TypeError): raise HTTPException(400, detail)` -/
def intOr400 (detail : String) (value : Json) : Result Int :=
  match pyInt environ.unicode value with
  | .ok number => .ok number
  | .error exc =>
      match exc.kind with
      | .valueError | .typeError => raiseHttp 400 (lit detail)
      | _ => .error exc

/-- A field that a body may leave out: the value of the current config is kept then. -/
def preservedOr (key : String) (fallback : Result Json) : Result (Option Json) :=
  match Assoc.get? current (lit key) with
  | some value => .ok (some value)
  | none => fallback.map some

/-- A field that is kept from the current config only when it is set there. -/
def preservedIfSet (key : String) : Result (Option Json) :=
  match dictGet current key with
  | .null => .ok none
  | value => .ok (some value)

def enableLazyLoadingRule : ConfigRule where
  key := lit "enable_lazy_loading"
  revise
    | some (.bool value) => .ok (some (.bool value))
    | some _ => raiseHttp 400 (lit "enable_lazy_loading must be a boolean")
    | none => preservedOr current "enable_lazy_loading"
        (.ok (.bool (environ.isTrue "ENABLE_LAZY_LOADING" "true")))

/-- The value stays as it was sent, also when it is no integer itself. -/
def maxFileSizeRule : ConfigRule where
  key := lit "max_file_size"
  revise
    | some value => do
        let size ← intOr400 environ "max_file_size must be a valid integer" value
        if size < 1024 then
          raiseHttp 400 (lit "max_file_size must be at least 1024 bytes (1KB)")
        else .ok (some value)
    | none => preservedOr current "max_file_size" (environ.int "MAX_FILE_SIZE" defaultMaxFileSize)

def maxClientLoadRule : ConfigRule where
  key := lit "max_client_load"
  revise
    | some value => do
        let load ← intOr400 environ "max_client_load must be a valid integer" value
        if load < 1 || 200000 < load then
          raiseHttp 400 (lit "max_client_load must be between 1 and 200000")
        else .ok (some (.int load))
    | none => preservedOr current "max_client_load"
        (environ.int "MAX_CLIENT_LOAD" defaultMaxClientLoad)

/-- `_validate_ttl_field` -/
def ttlRule (field : String) : ConfigRule where
  key := lit field
  revise
    | some value => do
        let seconds ← intOr400 environ (field ++ " must be a valid integer") value
        if seconds < presignedUrlMinTtl || presignedUrlHardCeiling < seconds then
          raiseHttp 400 (lit (field ++ " must be between 60 and 604800 seconds"))
        else .ok (some (.int seconds))
    | none => preservedIfSet current field

/-- `default cannot exceed max (when both are known)` -/
def checkTtlOrder (body : Dict) : Result Unit :=
  let default := dictGet body "presigned_url_default_ttl"
  let max := dictGet body "presigned_url_max_ttl"
  if default = .null ∨ max = .null then .ok ()
  else do
    let default ← pyInt environ.unicode default
    let max ← pyInt environ.unicode max
    if max < default then
      raiseHttp 400 (lit "presigned_url_default_ttl cannot exceed presigned_url_max_ttl")
    else .ok ()

/-- `[ext.lstrip(".").lower() for ext in extensions if ext.strip()]`, which stops at
the first entry that is no string. -/
def normalizeExtensions (field : String) : List Json → Result (List Json)
  | [] => .ok []
  | .str extension :: rest => do
      let others ← normalizeExtensions field rest
      .ok (if (strip extension).isEmpty then others
        else .str (environ.unicode.lower (extension.dropWhile fun c => c == '.')) :: others)
  | _ :: _ => raiseHttp 400 (lit (field ++ " must contain only strings"))

def extensionsRule (field : String) : ConfigRule where
  key := lit field
  revise
    | some (.arr extensions) => do
        let normalized ← normalizeExtensions environ field extensions
        .ok (some (.arr normalized))
    | some _ => raiseHttp 400 (lit (field ++ " must be a list"))
    | none => preservedOr current field (.ok (.arr []))

def passwordRule (field : String) : ConfigRule where
  key := lit field
  revise
    | some value => do
        let count ← intOr400 environ (field ++ " must be an integer") value
        if count < 0 || 50 < count then raiseHttp 400 (lit (field ++ " must be between 0 and 50"))
        else .ok (some (.int count))
    | none => preservedIfSet current field

/-- An MCP field: checked when it is sent, else set to what the current config has. -/
def mcpRule (field : String) (accepts : Json → Bool) (detail : String) : ConfigRule where
  key := lit field
  revise
    | some value => if accepts value then .ok (some value) else raiseHttp 422 (lit detail)
    | none => .ok (some (dictGet current field))

def isBoolean : Json → Bool
  | .bool _ => true
  | _ => false

def isStringList : Json → Bool
  | .arr items => items.all fun
      | .str _ => true
      | _ => false
  | _ => false

/-- `isinstance(v, int)` within bounds; a `bool` is refused although it is an `int`. -/
def isIntBetween (low high : Int) : Json → Bool
  | .int value => low ≤ value && value ≤ high
  | _ => false

def limitRules : List ConfigRule :=
  [enableLazyLoadingRule environ current, maxFileSizeRule environ current,
    maxClientLoadRule environ current, ttlRule environ current "presigned_url_default_ttl",
    ttlRule environ current "presigned_url_max_ttl"]

def mcpIntRule (field : String) (low high : Int) (range : String) : ConfigRule :=
  mcpRule current field (isIntBetween low high) (field ++ " must be " ++ range)

def serverRules : List ConfigRule :=
  [extensionsRule environ current "preview_text_extensions",
    extensionsRule environ current "upload_inline_extensions",
    passwordRule environ current "password_min_length",
    passwordRule environ current "password_min_uppercase",
    passwordRule environ current "password_min_lowercase",
    passwordRule environ current "password_min_digits",
    passwordRule environ current "password_min_special",
    mcpRule current "mcp_enabled" isBoolean "mcp_enabled must be boolean",
    mcpRule current "mcp_disable_writes" isBoolean "mcp_disable_writes must be boolean",
    mcpRule current "mcp_text_extensions" isStringList
      "mcp_text_extensions must be list of strings",
    mcpIntRule current "mcp_global_max_read_bytes" 1 10485760 "1..10485760",
    mcpIntRule current "mcp_summary_max_keys" 1000 1000000 "1000..1000000",
    mcpIntRule current "mcp_summary_prefix_scan_pages" 1 200 "1..200",
    mcpIntRule current "mcp_list_page_size" 1 10000 "1..10000",
    mcpIntRule current "mcp_list_max_page_size" 1 10000 "1..10000"]

end Rules

section Roles

/-- The key that a value is in a Python `dict`: equal numbers are one key. -/
def dictKey : Json → Result Json
  | .bool value => .ok (.float (.finite (if value then 1 else 0)))
  | .int value => .ok (.float (.finite value))
  | .arr _ | .obj _ => raise .typeError (lit "unhashable type")
  | value => .ok value

/-- `{r.get("name"): r for r in roles}`, in the order of the list. -/
def currentRoles : List Json → Result (List (Json × Dict))
  | [] => .ok []
  | .obj role :: rest => do
      let name ← dictKey (dictGet role "name")
      let others ← currentRoles rest
      .ok ((name, role) :: others)
  | _ :: _ => raise .attributeError (lit "object has no attribute 'get'")

/-- `current_roles[name]`: the last entry of the name. A `nan` is no key of its own. -/
def currentRole (roles : List (Json × Dict)) (name : Json) : Option Dict :=
  if name = .float .nan then none
  else (roles.reverse.find? fun entry => entry.1 == name).map Prod.snd

def redacted : Json := .str (lit "***REDACTED***")

/-- `f"{name}"` in a refusal, for a name that is a string. -/
def shownName : Json → Str
  | .str name => name
  | _ => []

variable (roles : List (Json × Dict)) (role : Dict)

/-- The secret that is sent, stripped. -/
def sentSecret : Result Str :=
  let secret := dictGet role "secret_access_key"
  if secret.truthy then
    match secret with
    | .str text => .ok (strip text)
    | _ => raise .attributeError (lit "object has no attribute 'strip'")
  else .ok []

/-- A role without a new secret keeps the one that is stored under its name. -/
def keepSecret (roleType : String) : Result Dict := do
  let secret ← sentSecret role
  if secret.isEmpty || secret == lit "***REDACTED***" then do
    let name ← dictKey (dictGet role "name")
    match currentRole roles name with
    | some entry =>
        let existing := dictGetD entry "secret_access_key" (.str [])
        if existing.truthy && existing != redacted then
          .ok (dictSet role "secret_access_key" existing)
        else
          raiseHttp 400 (lit "secret_access_key is required for role '" ++
            shownName (dictGet role "name") ++ lit "'. Please provide it.")
    | none => raiseHttp 400 (lit ("secret_access_key is required for new " ++ roleType ++ " role"))
  else .ok (dictSet role "secret_access_key" (.str secret))

/-- `re.match(r"^AKIA[0-9A-Z]{16}$", access_key_id)` for a stripped text. -/
def matchesAccessKey (text : Str) : Bool :=
  startsWith text (lit "AKIA") && (text.drop 4).length == 16 &&
    (text.drop 4).all fun c => ('0' ≤ c && c ≤ '9') || ('A' ≤ c && c ≤ 'Z')

/-- `role.get(key, "").strip()`, which may not be empty. -/
def trimmedField (key : String) : Result Str := do
  let text ← match dictGetD role key (.str []) with
    | .str text => .ok (strip text)
    | _ => raise .attributeError (lit "object has no attribute 'strip'")
  if text.isEmpty then raiseHttp 400 (lit (key ++ " cannot be empty")) else .ok text

def requireField (key roleType : String) : Result Unit :=
  if dictHas role key then .ok ()
  else raiseHttp 400 (lit (roleType ++ " type requires '" ++ key ++ "'"))

/-- The checks of `update_config` on one role. -/
def checkRole : Result Dict :=
  let roleType := dictGet role "type"
  if roleType = .str (lit "assume_role") then do
    requireField role "role_arn" "assume_role"
    .ok role
  else if roleType = .str (lit "credentials") then do
    requireField role "access_key_id" "credentials"
    let accessKeyId ← trimmedField role "access_key_id"
    if !matchesAccessKey accessKeyId then
      raiseHttp 400 (lit ("Invalid access_key_id format. AWS access keys should start with AKIA " ++
        "and be 20 characters long"))
    else keepSecret roles (dictSet role "access_key_id" (.str accessKeyId)) "credentials"
  else if roleType = .str (lit "s3_compatible") then do
    requireField role "access_key_id" "s3_compatible"
    requireField role "endpoint_url" "s3_compatible"
    let accessKeyId ← trimmedField role "access_key_id"
    let endpointUrl ← trimmedField role "endpoint_url"
    keepSecret roles (dictSet (dictSet role "access_key_id" (.str accessKeyId)) "endpoint_url"
      (.str endpointUrl)) "s3_compatible"
  else if roleType = .str (lit "profile") then do
    requireField role "profile_name" "profile"
    .ok role
  else .ok role

/-- The checks on an entry of `config["roles"]`; only an object gets through them. -/
def checkEntry (entry : Json) : Result Json := do
  let named ← containsText entry (lit "name")
  let typed ← if named then containsText entry (lit "type") else .ok false
  if !named || !typed then raiseHttp 400 (lit "Role must have 'name' and 'type'")
  else
    match entry with
    | .obj role => (checkRole roles role).map .obj
    | _ => raise .attributeError (lit "object has no attribute 'get'")

def checkEntries : List Json → Result (List Json)
  | [] => .ok []
  | entry :: rest => do
      let checked ← checkEntry roles entry
      let others ← checkEntries rest
      .ok (checked :: others)

/-- The loop over the roles of the body, which are changed in place. What is no list
has to be empty, and stays what it is. -/
def checkRoles (current body : Dict) : Result Dict := do
  let listed ← iterate (configRoles current)
  let roles ← currentRoles listed
  let entries ← iterate (configRoles body)
  let checked ← checkEntries roles entries
  match configRoles body with
  | .arr _ => .ok (dictSet body "roles" (.arr checked))
  | _ => .ok body

end Roles

section Update

variable (environ : Environ) (current : Dict)

/-- The answer to an exception inside the `try` of `update_config`. -/
def asAnswer (exc : PyError) : PyError :=
  match exc.kind with
  | .permissionError => .new (.httpException 403) exc.message
  | .httpException _ => exc
  | _ => .new (.httpException 500) (lit "Failed to update config — see server logs")

/-- What `update_config` makes of a body, up to the call of `save_config`. -/
def revisedConfig (body : Dict) : Result Dict := do
  if !dictHas body "roles" then
    raiseHttp 400 (lit "Invalid config structure: 'roles' is required")
  else do
    let body ← FieldRule.applyAll (limitRules environ current) body
    checkTtlOrder environ body
    let body ← FieldRule.applyAll (serverRules environ current) body
    checkRoles current body

/-- `update_config`: the config that is saved. -/
def updateConfig (isAdmin writable : Bool) (body : Dict) : Result Dict :=
  if !isAdmin then
    raiseHttp 403 (lit "Admin privileges required to update configuration")
  else if !writable then
    raiseHttp 403 (lit ("The application does not have write access to the configuration file " ++
      "(e.g., mounted as read-only from Kubernetes ConfigMap). Configuration management must be " ++
      "handled externally."))
  else (revisedConfig environ current body).mapError asAnswer

end Update

end S3Manager.Web
