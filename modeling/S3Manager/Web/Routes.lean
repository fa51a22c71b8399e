import S3Manager.Python.Doubles
import S3Manager.Storage.Objects

/-! The storage routes of `main.py`, after authentication and before exceptions
turn into HTTP answers. They sanitize their path once and pass it on. -/

set_option autoImplicit false

namespace S3Manager.Web

open Python Utils Access Storage

def raiseHttp {α : Type} (status : Nat) (detail : Str) : Result α :=
  raise (.httpException status) detail

/-- `except ValueError as e: raise HTTPException(status_code=400, detail=str(e))` -/
def orBadRequest {α : Type} (result : Result α) : Result α :=
  match result with
  | .ok value => .ok value
  | .error exc =>
      match exc.kind with
      | .valueError => raiseHttp 400 exc.message
      | _ => .error exc

variable (unicode : Unicode) (config : Dict)

/-- The bucket and the path as every route sanitizes them. -/
def sanitizeTarget (bucketName path : Str) : Result (Str × Str) :=
  orBadRequest do
    let bucketName ← sanitizeBucketName unicode bucketName
    let path ← sanitizePath path
    .ok (bucketName, path)

section Listing

/-- The three answers of `GET /api/buckets/{bucket_name}/files`. -/
inductive ListAnswer where
  | files (entries : List FileEntry) (path : Str)
  | paginated (page : PaginatedListing)
  | clientLoad (chunk : ClientLoad)

structure ListQuery where
  maxKeys : Option Int
  continuationToken : Option Str
  clientLoad : Bool
  search : Option Str

/-- The search term, and the combinations of parameters that are refused. -/
def ListQuery.checked (query : ListQuery) : Result Str := do
  let search ← orBadRequest (sanitizeSearchPrefix (query.search.getD []))
  if query.continuationToken.isSome && query.maxKeys.isNone && !query.clientLoad then
    raiseHttp 400 (lit "continuation_token requires max_keys to be set as well")
  else if !search.isEmpty && !query.clientLoad then
    raiseHttp 400 (lit "search requires client_load=1")
  else .ok search

def listFiles (pages : Nat) (role : Option Str) (bucketName path : Str) (user : UserDict)
    (query : ListQuery) : S3Program ListAnswer := do
  let target ← S3Program.ofResult (sanitizeTarget unicode bucketName path)
  let search ← S3Program.ofResult query.checked
  if query.clientLoad then do
    let chunk ← S3Program.ofResult
      (match query.maxKeys with
      | some maxKeys => .ok maxKeys
      | none => pyInt unicode (dictGetD config "max_client_load" (.int 10000)))
    let page ← listObjectsClientLoadForRole unicode config role target.1 target.2 user chunk
      query.continuationToken search
    pure (.clientLoad page)
  else
    match query.maxKeys with
    | none => do
        let listing ← S3Program.ofResult
          (prepareListPath unicode config role target.1 user target.2)
        match listing.virtualDirectories with
        | some directories => pure (.files directories listing.effectivePath)
        | none => do
            let files ← listObjectsForRole unicode config pages role target.1
              listing.effectivePath user
            pure (.files files listing.effectivePath)
    | some maxKeys => do
        let page ← listObjectsPaginatedForRole unicode config role target.1 target.2 user maxKeys
          query.continuationToken
        pure (.paginated page)

end Listing

section Upload

/-- `Path(key).suffix` -/
def pathSuffix (key : Str) : Str :=
  let parts := (key.splitOn '/').filter fun part => !part.isEmpty && part != ['.']
  let name := parts.getLast?.getD []
  let extension := (name.reverse.takeWhile fun c => c != '.').reverse
  if extension.length + 1 < name.length && !extension.isEmpty then '.' :: extension else []

/-- `text in container` for a value of the config. -/
def containsText (container : Json) (text : Str) : Result Bool :=
  match container with
  | .arr items => .ok (decide (.str text ∈ items))
  | .str s => .ok (containsSub s text)
  | .obj fields => .ok (fields.any fun field => field.1 == text)
  | .null | .bool _ | .int _ | .float _ => raise .typeError (lit "argument is not iterable")

/-- Whether an upload is stored with `Content-Disposition: inline`. -/
def inlineDisposition (key : Str) : Result (Option Str) :=
  let extensions := dictGetD config "upload_inline_extensions" (.arr [])
  if extensions.truthy then do
    let extension := unicode.lower ((pathSuffix key).dropWhile fun c => c == '.')
    let inline ← containsText extensions extension
    .ok (if inline then some (lit "inline") else none)
  else .ok none

/-- The form of `POST /api/buckets/{bucket_name}/upload`. -/
structure UploadForm where
  key : Str
  content : Bytes
  contentType : Option Str

/-- `f"{max_file_size / (1024 * 1024)}"` -/
def sizeMb (maxFileSize : Int) : Str :=
  let text := floatRepr (double maxFileSize.natAbs) (1024 * 1024)
  if maxFileSize < 0 then '-' :: text else text

def fileTooLarge (maxFileSize : Int) : Str :=
  lit "File size exceeds maximum allowed size of " ++ sizeMb maxFileSize ++ lit "MB"

/-- The check of `upload_file` on the spooled size. -/
def spooledSizeCheck (maxFileSize : Int) (size : Nat) : Result Unit :=
  if maxFileSize < size then raiseHttp 413 (fileTooLarge maxFileSize)
  else .ok ()

def uploadFile (role : Option Str) (bucketName : Str) (form : UploadForm) (user : UserDict)
    (maxFileSize : Int) : S3Program Str := do
  let target ← S3Program.ofResult (sanitizeTarget unicode bucketName form.key)
  let _ ← S3Program.ofResult (spooledSizeCheck maxFileSize form.content.length)
  let disposition ← S3Program.ofResult (inlineDisposition unicode config target.2)
  let contentType := (form.contentType.filter fun s => !s.isEmpty).getD
    (lit "application/octet-stream")
  uploadFileobjForRole unicode config role target.1 target.2 form.content user contentType
    disposition
  pure target.2

end Upload

/-- `download_file`: the file name it is served under, and the body. -/
def downloadFile (role : Option Str) (bucketName path : Str) (user : UserDict) :
    S3Program (Str × ObjectBody) := do
  let target ← S3Program.ofResult (sanitizeTarget unicode bucketName path)
  let body ← iterObjectForRole unicode config role target.1 target.2 user
  pure ((target.2.splitOn '/').getLast?.getD [], body)

def presignedUrlMinTtl : Int := 60

/-- The lifetime granted to a presigned URL under the resolved bounds. -/
def grantedTtl (defaultTtl maxTtl : Int) (expiresIn : Option Int) : Result Int :=
  match expiresIn with
  | none => .ok defaultTtl
  | some requested =>
      if requested < presignedUrlMinTtl || maxTtl < requested then
        raiseHttp 400 (lit "INVALID_EXPIRES_IN")
      else .ok requested

/-- `validate_role_access` of `main.py`, which answers with a status itself. -/
def validateRoleAccessHttp (roleName : Option Str) (user : UserDict) : Result (Option Str) :=
  match roleName with
  | none => .ok none
  | some name =>
      if user.isAdmin || user.allowedRoles.contains name then .ok (some name)
      else
        raiseHttp 403 (lit "Access denied: You don't have permission to use role '" ++ name ++ ['\''])

theorem validateRoleAccessHttp_ok {roleName validated : Option Str} {user : UserDict}
    (accepted : validateRoleAccessHttp roleName user = .ok validated) : validated = roleName := by
  unfold validateRoleAccessHttp at accepted
  split at accepted
  · exact (Except.ok.inj accepted).symm
  · split_ifs at accepted
    · exact (Except.ok.inj accepted).symm
    · cases accepted

def getPresignedUrl (role bucketName path : Str) (user : UserDict) (op : Str)
    (defaultTtl maxTtl : Int) (expiresIn : Option Int) : S3Program Str := do
  if op ≠ lit "get" then S3Program.ofResult (raiseHttp 400 (lit "Unsupported op"))
  else do
    let ttl ← S3Program.ofResult (grantedTtl defaultTtl maxTtl expiresIn)
    let target ← S3Program.ofResult (sanitizeTarget unicode bucketName path)
    let validated ← S3Program.ofResult (validateRoleAccessHttp (some role) user)
    let signing := match validated with
      | some name => if name.isEmpty then role else name
      | none => role
    generatePresignedUrlForRole unicode config (some signing) target.1 target.2 user ttl

/-- The path handed on by `delete_file`, with the directory flag put back. -/
def deletePath (raw sanitized : Str) : Str :=
  if endsWith (rstrip raw) ['/'] && !endsWith sanitized ['/'] then sanitized ++ ['/']
  else sanitized

/-- The two switches that disable deletion. -/
def deletionDisabled (disableDeletionEnv : Bool) : Bool :=
  disableDeletionEnv || (dictGetD config "disable_deletion" (.bool false)).truthy

def deleteFile (pages : Nat) (role : Option Str) (bucketName path : Str) (user : UserDict)
    (disableDeletionEnv : Bool) : S3Program DeleteResult :=
  if deletionDisabled config disableDeletionEnv then
    S3Program.ofResult (raiseHttp 403 (lit "File deletion is disabled by administrator"))
  else do
    let target ← S3Program.ofResult (sanitizeTarget unicode bucketName path)
    if target.2.isEmpty then
      S3Program.ofResult (raiseHttp 400 (lit "Cannot delete root path"))
    else
      deleteObjectForRole unicode config pages role target.1 (deletePath path target.2) user

end S3Manager.Web
