import S3Manager.Storage.Listings

/-! The helpers of `s3_client.py` for single objects: head, read, presign, upload,
copy and delete. The path they are given is the key they send. -/

set_option autoImplicit false

namespace S3Manager.Storage

open Python Access Library

variable (unicode : Unicode) (config : Dict)

/-- `error_code in {"404", "NoSuchKey"}` turns into `FileNotFoundError`. -/
def missingAs (message : Str) (exc : PyError) : PyError :=
  match exc.kind with
  | .clientError code _ =>
      if code = lit "404" ∨ code = lit "NoSuchKey" then
        .raised .fileNotFoundError message (some exc)
      else exc
  | _ => exc

def objectNotFound (bucket path : Str) : Str :=
  lit "Object '" ++ path ++ lit "' not found in bucket '" ++ bucket ++ ['\'']

/-- The gate and the retry that every helper for one object is made of. -/
def gatedCall {α : Type} (role : Option Str) (bucket path : Str) (user : UserDict)
    (callback : S3Program α) : S3Program α := do
  let validated ← S3Program.ofResult (validateStorageAccess config role bucket user path)
  executeWithS3Retry unicode validated callback

def headObjectForRole (role : Option Str) (bucket path : Str) (user : UserDict) :
    S3Program Nat :=
  gatedCall unicode config role bucket path user do
    let head ← (S3Program.call (.headObject bucket path)).mapError
      (missingAs (objectNotFound bucket path))
    pure (ObjectHead.contentLength head)

/-- `(resp.get("ETag") or "").strip('"') or None` -/
def plainEtag (etag : Option Str) : Option Str :=
  let stripped := trimBy (fun c => c == '"') (etag.getD [])
  if stripped.isEmpty then none else some stripped

def getObjectMetadataForRole (role : Option Str) (bucket path : Str) (user : UserDict) :
    S3Program ObjectHead :=
  gatedCall unicode config role bucket path user do
    let head : ObjectHead ← (S3Program.call (.headObject bucket path)).mapError
      (missingAs (objectNotFound bucket path))
    pure { head with etag := plainEtag head.etag }

def readObjectForRole (role : Option Str) (bucket path : Str) (user : UserDict) :
    S3Program Bytes :=
  gatedCall unicode config role bucket path user do
    let body ← (S3Program.call (.getObject bucket path none)).mapError
      (missingAs (objectNotFound bucket path))
    pure (ObjectBody.content body)

/-- `iter_object_for_role`, with the streamed body in one piece. -/
def iterObjectForRole (role : Option Str) (bucket path : Str) (user : UserDict) :
    S3Program ObjectBody :=
  gatedCall unicode config role bucket path user <|
    (S3Program.call (.getObject bucket path none)).mapError
      (missingAs (objectNotFound bucket path))

def readObjectRangeForRole (role : Option Str) (bucket path : Str) (first last : Nat)
    (user : UserDict) : S3Program Bytes :=
  gatedCall unicode config role bucket path user do
    let body ← (S3Program.call (.getObject bucket path (some (first, last)))).mapError
      (missingAs (objectNotFound bucket path))
    pure (ObjectBody.content body)

def textExtensionToMime : List (Str × Str) :=
  [(lit ".txt", lit "text/plain"), (lit ".md", lit "text/markdown"),
    (lit ".markdown", lit "text/markdown"), (lit ".csv", lit "text/csv"),
    (lit ".tsv", lit "text/tab-separated-values"), (lit ".log", lit "text/plain"),
    (lit ".json", lit "application/json"), (lit ".yaml", lit "text/yaml"),
    (lit ".yml", lit "text/yaml"), (lit ".xml", lit "application/xml"),
    (lit ".py", lit "text/x-python"), (lit ".sh", lit "application/x-sh"),
    (lit ".sql", lit "application/sql"), (lit ".toml", lit "application/toml"),
    (lit ".ini", lit "text/plain"), (lit ".conf", lit "text/plain"),
    (lit ".srt", lit "text/plain"), (lit ".vtt", lit "text/vtt")]

def utf8TextContentTypeFor (path : Str) : Option Str :=
  (textExtensionToMime.find? fun entry => endsWith (unicode.lower path) entry.1).map fun entry =>
    entry.2 ++ lit "; charset=utf-8"

def generatePresignedUrlForRole (role : Option Str) (bucket path : Str) (user : UserDict)
    (expiresIn : Int) : S3Program Str :=
  gatedCall unicode config role bucket path user <|
    S3Program.call
      (.generatePresignedUrl bucket path (utf8TextContentTypeFor unicode path) expiresIn)

def putObjectForRole (role : Option Str) (bucket path : Str) (content : Bytes) (user : UserDict)
    (contentType : Str) (contentDisposition : Option Str) : S3Program Unit :=
  gatedCall unicode config role bucket path user <|
    S3Program.call (.putObject bucket path content contentType contentDisposition)

def uploadFileobjForRole (role : Option Str) (bucket path : Str) (fileobj : Bytes)
    (user : UserDict) (contentType : Str) (contentDisposition : Option Str) : S3Program Unit :=
  gatedCall unicode config role bucket path user <|
    S3Program.call (.uploadFileobj bucket path fileobj contentType contentDisposition)

def copyObjectForRole (role : Option Str) (sourceBucket sourcePath destBucket destPath : Str)
    (user : UserDict) : S3Program Unit := do
  let _ ← S3Program.ofResult
    (validateStorageAccess config role sourceBucket user sourcePath)
  let _ ← S3Program.ofResult (validateStorageAccess config role destBucket user destPath)
  let validated ← S3Program.ofResult (validateRoleAccess role user)
  executeWithS3Retry unicode validated <|
    (S3Program.call (.copyObject destBucket destPath sourceBucket sourcePath)).mapError
      (missingAs (lit "Source object '" ++ sourcePath ++ lit "' not found in bucket '" ++
        sourceBucket ++ ['\'']))

section Delete

structure DeleteResult where
  message : Str
  count : Nat
  deriving DecidableEq

/-- The batches `keys[i : i + 1000]` for `i` in `range(0, len(keys), 1000)`. -/
def deleteBatches (keys : List Str) : List (List Str) :=
  (List.range ((keys.length + 999) / 1000)).map fun i => (keys.drop (i * 1000)).take 1000

/-- Delete the batches in order and count their keys. -/
def deleteEach (bucket : Str) : List (List Str) → Nat → S3Program Nat
  | [], deleted => pure deleted
  | batch :: rest, deleted => do
      let _ ← S3Program.call (.deleteObjects bucket batch)
      deleteEach bucket rest (deleted + batch.length)

def pageKeys (pages : List ListPage) : List Str :=
  pages.flatMap fun page => page.contents.map S3Object.key

def deleteNotFound (path : Str) : Str :=
  lit "File or directory '" ++ path ++ lit "' not found"

/-- The directory branch: everything below `searchPrefix + "/"`. -/
def deleteDirectory (pages : Nat) (bucket path : Str) : S3Program Nat := do
  let replies ← paginate pages (firstPage bucket (rstripSlash path ++ ['/']) none none)
  if (pageKeys replies).isEmpty then
    S3Program.raise .fileNotFoundError (deleteNotFound path)
  else deleteEach bucket (deleteBatches (pageKeys replies)) 0

/-- The branch for one key, which has to be the first one listed. -/
def deleteSingle (bucket path : Str) : S3Program Nat := do
  let page ← S3Program.call
    (.listObjectsV2 (firstPage bucket (rstripSlash path) none (some 1)))
  match page.contents with
  | [] => S3Program.raise .fileNotFoundError (deleteNotFound path)
  | object :: _ =>
      if object.key = rstripSlash path then do
        let _ ← S3Program.call (.deleteObject bucket (rstripSlash path))
        pure 1
      else S3Program.raise .fileNotFoundError (deleteNotFound path)

/-- `path` with a trailing slash is a directory. -/
def deletePathKeys (pages : Nat) (bucket path : Str) : S3Program Nat :=
  if endsWith path ['/'] then deleteDirectory pages bucket path else deleteSingle bucket path

def deleteObjectForRole (pages : Nat) (role : Option Str) (bucket path : Str) (user : UserDict) :
    S3Program DeleteResult :=
  gatedCall unicode config role bucket path user do
    let deleted ← deletePathKeys pages bucket path
    pure ⟨lit "Successfully deleted " ++ lit (toString deleted) ++ lit " object(s)", deleted⟩

end Delete

end S3Manager.Storage
