import S3Manager.Mcp.Tools
import S3Manager.Storage.Summary

/-! The handlers of the storage tools in `mcp_server.py`: the inner ones that turn
denials and missing objects into tool errors, and the ladder around every tool. -/

set_option autoImplicit false

namespace S3Manager.Mcp

open Python Access Storage

section Handlers

variable (unicode : Unicode)

/-- The codes of `raise_storage_permission_mcp`. -/
def storagePermissionCode (message : Str) : Str :=
  let lower := unicode.lower message
  if containsSub lower (lit "allowed_prefixes") || containsSub lower (lit "prefix access denied") ||
      containsSub lower (lit "path traversal") || containsSub lower (lit "invalid path") ||
      containsSub lower (lit "uri keys") then
    lit "PREFIX_NOT_ALLOWED"
  else if containsSub lower (lit "bucket") then lit "BUCKET_NOT_ALLOWED"
  else lit "ROLE_NOT_ALLOWED"

/-- `except (PermissionError, RoleNotFoundError) as e: raise_storage_permission_mcp(e, ...)` -/
def raiseStoragePermission (exc : PyError) : PyError :=
  match exc.kind with
  | .permissionError | .roleNotFoundError =>
      .raised (.mcpError (storagePermissionCode unicode exc.message)) exc.message (some exc)
  | _ => exc

/-- `except FileNotFoundError: raise McpError("FILE_NOT_FOUND", ...)` -/
def raiseFileNotFound (message : PyError → Str) (exc : PyError) : PyError :=
  match exc.kind with
  | .fileNotFoundError => .raised (.mcpError (lit "FILE_NOT_FOUND")) (message exc) (some exc)
  | _ => exc

def ladderCode : S3ErrorClass → Str
  | .accessDenied => lit "S3_ACCESS_DENIED"
  | .notFound => lit "S3_NOT_FOUND"
  | .config => lit "S3_CONFIG_ERROR"
  | .network => lit "S3_NETWORK_ERROR"
  | .credentialsExpired => lit "CREDENTIALS_EXPIRED"
  | .throttled | .operation => lit "S3_OPERATION_ERROR"

/-- The `except` clauses that end every storage tool. -/
def ladder (exc : PyError) : PyError :=
  match exc.kind with
  | .mcpError _ => exc
  | .s3Operation errorClass _ =>
      .raised (.mcpError (ladderCode errorClass)) exc.message (some exc)
  | _ => .raised (.mcpError (lit "INTERNAL_ERROR")) (lit "Internal server error") (some exc)

end Handlers

section Summary

variable (unicode : Unicode) (config : Dict) (formats : SummaryFormats)

/-- `d[key]` -/
def dictItem (d : Dict) (key : String) : Result Json :=
  match Library.Assoc.get? d (lit key) with
  | some value => .ok value
  | none => raise .keyError (lit key)

/-- The answer of `bucket_summary`: the dictionary, after the tool has logged two of
its fields. Reading the limits raises neither error of the inner handler. -/
def bucketSummaryAnswer (pages : Nat) (role : Option Str) (bucket path : Str) (user : UserDict) :
    S3Program Dict :=
  S3Program.mapError ladder do
    let summary ← (bucketSummary unicode config pages role bucket path user).mapError
      (raiseStoragePermission unicode)
    let result := summary.response unicode formats bucket
    let _ ← S3Program.ofResult (dictItem result "scanned_objects")
    let _ ← S3Program.ofResult (dictItem result "complete")
    pure result

end Summary

section Read

variable (unicode : Unicode) (config : Dict) (rules : TextRules) (token : Token)
  (role : Option Str) (bucket path : Str) (user : UserDict) (forceText : Bool)

/-- What `read_file` does once it knows the size of the object. -/
def readSized (limit : Json) (size : Nat) : S3Program FileText := do
  if exceeds limit size then
    S3Program.ofResult (raiseMcp "FILE_TOO_LARGE" (lit "File size exceeds limit"))
  else do
    refuseBinary unicode config rules role bucket path user forceText
    let raw ← readObjectForRole unicode config role bucket path user
    let content ← decodeContent rules forceText raw
    pure ⟨content, size⟩

theorem readFile_eq : readFile unicode config rules token role bucket path user forceText =
    S3Program.ofResult (effectiveMax config token) >>= fun limit =>
      headObjectForRole unicode config role bucket path user >>=
        readSized unicode config rules role bucket path user forceText limit := rfl

/-- The answer of `read_file`: the inner handlers are around the HEAD only. -/
def readFileAnswer : S3Program FileText :=
  S3Program.mapError ladder do
    let limit ← S3Program.ofResult (effectiveMax config token)
    let size ← (headObjectForRole unicode config role bucket path user).mapError fun exc =>
      raiseStoragePermission unicode (raiseFileNotFound (fun _ => lit "Object not found") exc)
    readSized unicode config rules role bucket path user forceText limit size

end Read

section Calls

/-- What a tool call is made with: the request, the config, and the libraries. -/
structure ToolEnv where
  unicode : Unicode
  config : Dict
  formats : SummaryFormats
  rules : TextRules
  pages : Nat
  token : Token
  role : Option Str
  user : UserDict

/-- The storage tools with their arguments. -/
inductive ToolCall where
  | listBuckets
  | listFiles (bucket path : Str) (recursive : Bool) (maxKeys : Option Int)
      (continuationToken : Option Str)
  | bucketSummary (bucket path : Str)
  | uploadFile (bucket path : Str) (maxFileSize estimatedSize : Int) (content : Bytes)
  | deleteFile (bucket path : Str)
  | readFile (bucket path : Str) (forceText : Bool)
  | copyObject (sourceBucket sourcePath destBucket destPath : Str) (deleteSource : Bool)
  | getObjectMetadata (bucket path : Str)
  | presignedUrl (bucket path : Str) (expiresIn : Int)

/-- A program of which only the outcome counts. -/
def outcome {α : Type} (program : S3Program α) : S3Program Unit :=
  program >>= fun _ => pure ()

/-- The storage operations of a call: what its handlers are around. -/
def ToolCall.operation (env : ToolEnv) : ToolCall → S3Program Unit
  | .listBuckets => outcome (listBucketsForRole env.unicode env.config env.role env.user)
  | .listFiles bucket path recursive maxKeys continuationToken =>
      outcome (Mcp.listFiles env.unicode env.config env.pages env.role bucket path env.user
        recursive maxKeys continuationToken)
  | .bucketSummary bucket path =>
      outcome (Mcp.bucketSummary env.unicode env.config env.pages env.role bucket path env.user)
  | .uploadFile bucket path maxFileSize estimatedSize content =>
      Mcp.uploadFile env.unicode env.config env.token env.role bucket path env.user maxFileSize
        estimatedSize content
  | .deleteFile bucket path =>
      outcome (Mcp.deleteFile env.unicode env.config env.pages env.token env.role bucket path
        env.user)
  | .readFile bucket path forceText =>
      outcome (Mcp.readFile env.unicode env.config env.rules env.token env.role bucket path env.user
        forceText)
  | .copyObject sourceBucket sourcePath destBucket destPath deleteSource =>
      Mcp.copyObject env.unicode env.config env.pages env.token env.role sourceBucket sourcePath
        destBucket destPath env.user deleteSource
  | .getObjectMetadata bucket path =>
      outcome (Mcp.getObjectMetadata env.unicode env.config env.role bucket path env.user)
  | .presignedUrl bucket path expiresIn =>
      outcome (Mcp.presignedUrl env.unicode env.config env.role bucket path env.user expiresIn)

/-- A call under the handler of denials and the ladder. -/
def ToolEnv.answering (env : ToolEnv) (program : S3Program Unit) : S3Program Unit :=
  (program.mapError (raiseStoragePermission env.unicode)).mapError ladder

/-- The same with a handler of missing objects. -/
def ToolEnv.answeringMissing (env : ToolEnv) (message : PyError → Str)
    (program : S3Program Unit) : S3Program Unit :=
  env.answering (program.mapError (raiseFileNotFound message))

/-- How a call is answered. -/
def ToolCall.answer (env : ToolEnv) (call : ToolCall) : S3Program Unit :=
  match call with
  | .bucketSummary bucket path =>
      outcome (bucketSummaryAnswer env.unicode env.config env.formats env.pages env.role bucket path
        env.user)
  | .readFile bucket path forceText =>
      outcome (readFileAnswer env.unicode env.config env.rules env.token env.role bucket path
        env.user forceText)
  | .deleteFile _ _ | .getObjectMetadata _ _ =>
      env.answeringMissing (fun _ => lit "Object not found") (call.operation env)
  | .copyObject _ _ _ _ _ => env.answeringMissing PyError.message (call.operation env)
  | _ => env.answering (call.operation env)

end Calls

end S3Manager.Mcp
