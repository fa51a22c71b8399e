import Mathlib.Algebra.Order.Ring.Unbundled.Rat
import S3Manager.Storage.Objects

/-! The storage tools of `mcp_server.py`, after the request is authenticated and
up to the ladder that turns exceptions into tool errors. They pass raw paths on. -/

set_option autoImplicit false

namespace S3Manager.Mcp

open Python Access Storage

/-- The fields of an API token that the tools read. -/
structure Token where
  isReadOnly : Bool
  maxReadBytes : Int

def raiseMcp {α : Type} (code : String) (message : Str) : Result α :=
  raise (.mcpError (lit code)) message

inductive WriteTool where
  | uploadFile
  | deleteFile
  | copyObject
  deriving DecidableEq

def assertWriteAllowed (token : Token) (tool : WriteTool) (config : Dict) : Result Unit :=
  if (dictGetD config "mcp_disable_writes" (.bool false)).truthy then
    raiseMcp "READ_ONLY_SERVER" (lit "Server config disables MCP writes")
  else if token.isReadOnly then
    raiseMcp "READ_ONLY_TOKEN" (lit "This token is read-only")
  else if tool = .deleteFile ∧ (dictGetD config "disable_deletion" (.bool false)).truthy then
    raiseMcp "DELETION_DISABLED" (lit "Deletion is disabled in server config")
  else .ok ()

variable (unicode : Unicode) (config : Dict)

section Listings

/-- The answer of `list_files` in its two modes. -/
inductive ListFilesAnswer where
  | recursive (listing : RecursiveListing)
  | level (files : List FileEntry) (cutAt : Option Nat)

/-- The page size and the ceiling of `list_files`, both at least 1. -/
def listPageLimits : Result (Int × Int) := do
  let pageSize ← pyInt unicode (dictGetD config "mcp_list_page_size" (.int 1000))
  let ceiling ← pyInt unicode (dictGetD config "mcp_list_max_page_size" (.int 10000))
  .ok (max 1 pageSize, max 1 ceiling)

/-- The check of the raw path that the listing tools make before they strip it. -/
def checkRawPath (role : Option Str) (bucket path : Str) (user : UserDict) : Result Unit :=
  if path.isEmpty then .ok ()
  else do
    let _ ← validateStorageAccess config role bucket user path
    .ok ()

def truncatedHint : Str :=
  lit ("This is the first page of a larger listing. Pass " ++
    "next_continuation_token to page through keys, or call " ++
    "bucket_summary(role, bucket, path) to get counts, sizes " ++
    "and the prefix breakdown in one compact call.")

def listFiles (pages : Nat) (role : Option Str) (bucket path : Str) (user : UserDict)
    (recursive : Bool) (maxKeys : Option Int) (continuationToken : Option Str) :
    S3Program ListFilesAnswer := do
  let limits ← S3Program.ofResult (listPageLimits unicode config)
  let effectiveMaxKeys := max 1 (min (maxKeys.getD limits.1) limits.2)
  let _ ← S3Program.ofResult (checkRawPath config role bucket path user)
  if recursive then do
    let listing ← listObjectsRecursiveForRole unicode config pages role bucket
      (folderPrefix (stripSlash path)) user effectiveMaxKeys continuationToken limits.2
    pure (.recursive
      (if listing.isTruncated then { listing with hint := some truncatedHint } else listing))
  else do
    let files ← listObjectsForRole unicode config pages role bucket (stripSlash path) user
    if effectiveMaxKeys < files.length then
      pure (.level (files.take effectiveMaxKeys.toNat) (some effectiveMaxKeys.toNat))
    else pure (.level files none)

def bucketSummary (pages : Nat) (role : Option Str) (bucket path : Str) (user : UserDict) :
    S3Program BucketSummary := do
  let maxKeys ← S3Program.ofResult
    (pyInt unicode (dictGetD config "mcp_summary_max_keys" (.int 50000)))
  let prefixScanPages ← S3Program.ofResult
    (pyInt unicode (dictGetD config "mcp_summary_prefix_scan_pages" (.int 20)))
  let _ ← S3Program.ofResult (checkRawPath config role bucket path user)
  summarizeBucketForRole unicode config pages role bucket (folderPrefix (stripSlash path)) user
    maxKeys prefixScanPages

end Listings

section Reads

inductive TextKind where
  | extension
  | extensionless
  | binaryKnown
  | sniff
  deriving DecidableEq

/-- How file names and bodies are taken for text: the extension tables of
`_classify_text`, the sampling, and the UTF-8 decoder. -/
structure TextRules where
  classify : Str → TextKind
  isLikelyText : Bytes → Bool
  decode : Bytes → Option Str
  decodeReplacing : Bytes → Str

/-- `min(token.max_read_bytes, config.get("mcp_global_max_read_bytes", ...))`: the first one,
unless the second is less. -/
def effectiveMax (token : Token) : Result Json :=
  let limit := dictGetD config "mcp_global_max_read_bytes" (.int 10485760)
  let least (below : Bool) : Json := if below then limit else .int token.maxReadBytes
  match limit with
  | .int cap => .ok (least (decide (cap < token.maxReadBytes)))
  | .bool cap => .ok (least (decide ((if cap then 1 else 0) < token.maxReadBytes)))
  | .float (.finite cap) => .ok (least (decide (cap < (token.maxReadBytes : Rat))))
  | .float (.infinite negative) => .ok (least negative)
  | .float .nan => .ok (least false)
  | _ => raise .typeError (lit "'<' not supported between instances")

/-- `size > effective_max` -/
def exceeds (limit : Json) (size : Nat) : Bool :=
  match limit with
  | .int cap => decide (cap < size)
  | .bool cap => decide ((if cap then 1 else 0) < size)
  | .float (.finite cap) => decide (cap < (size : Rat))
  | .float (.infinite negative) => negative
  | _ => false

def exceedsReadCap (token : Token) (size : Nat) : Result Bool :=
  (effectiveMax config token).map fun limit => exceeds limit size

theorem exceedsReadCap_ok {config : Dict} {token : Token} {size : Nat} {exceeded : Bool}
    (checked : exceedsReadCap config token size = .ok exceeded) :
    ∃ limit, effectiveMax config token = .ok limit ∧ exceeds limit size = exceeded := by
  unfold exceedsReadCap at checked
  cases capped : effectiveMax config token with
  | error exc =>
      rw [capped] at checked
      cases checked
  | ok limit =>
      rw [capped] at checked
      exact ⟨limit, rfl, Except.ok.inj checked⟩

def binaryContent {α : Type} : S3Program α :=
  S3Program.ofResult (raiseMcp "BINARY_CONTENT" (lit "File appears binary"))

/-- `if raw.startswith(b"\xef\xbb\xbf"): raw = raw[3:]` -/
def stripBom (raw : Bytes) : Bytes :=
  if [0xef, 0xbb, 0xbf].isPrefixOf raw then raw.drop 3 else raw

/-- The part of `read_file` that refuses binary files, with a sample where the
name decides nothing. -/
def refuseBinary (rules : TextRules) (role : Option Str) (bucket path : Str) (user : UserDict)
    (forceText : Bool) : S3Program Unit :=
  if forceText then pure ()
  else
    match rules.classify path with
    | .binaryKnown => binaryContent
    | .extension | .extensionless => pure ()
    | .sniff => do
        let sample ← readObjectRangeForRole unicode config role bucket path 0 8191 user
        if rules.isLikelyText sample then pure () else binaryContent

def decodeContent (rules : TextRules) (forceText : Bool) (raw : Bytes) : S3Program Str :=
  if forceText then pure (rules.decodeReplacing (stripBom raw))
  else
    match rules.decode (stripBom raw) with
    | some content => pure content
    | none => binaryContent

/-- What `read_file` answers about the object; its size is that of the HEAD. -/
structure FileText where
  content : Str
  size : Nat

/-- `read_file`: a HEAD, sometimes a sample, and the body. -/
def readFile (rules : TextRules) (token : Token) (role : Option Str) (bucket path : Str)
    (user : UserDict) (forceText : Bool) : S3Program FileText := do
  let limit ← S3Program.ofResult (effectiveMax config token)
  let size ← headObjectForRole unicode config role bucket path user
  if exceeds limit size then
    S3Program.ofResult (raiseMcp "FILE_TOO_LARGE" (lit "File size exceeds limit"))
  else do
    refuseBinary unicode config rules role bucket path user forceText
    let raw ← readObjectForRole unicode config role bucket path user
    let content ← decodeContent rules forceText raw
    pure ⟨content, size⟩

def getObjectMetadata (role : Option Str) (bucket path : Str) (user : UserDict) :
    S3Program ObjectHead :=
  getObjectMetadataForRole unicode config role bucket path user

/-- `presigned_url`, with the lifetime clamped to `[60, presigned_url_max_ttl]`. -/
def presignedUrl (role : Option Str) (bucket path : Str) (user : UserDict) (expiresIn : Int) :
    S3Program Str := do
  let maxTtl ← S3Program.ofResult
    (pyInt unicode (dictGetD config "presigned_url_max_ttl" (.int 604800)))
  generatePresignedUrlForRole unicode config role bucket path user (max 60 (min expiresIn maxTtl))

end Reads

section Parts

variable {unicode : Unicode} {config : Dict} {rules : TextRules} {token : Token}
  {role : Option Str} {bucket path : Str} {user : UserDict} {forceText : Bool}

/-- What holds of every result and of whatever is put together of parts that it holds of, holds of
`read_file` as soon as it holds of the requests. -/
theorem readFile_of_parts (holds : {α : Type} → S3Program α → Prop)
    (result : ∀ {α : Type} (value : Result α), holds (S3Program.ofResult value))
    (bind : ∀ {α β : Type} {program : S3Program α} {next : α → S3Program β}, holds program →
      (∀ value, holds (next value)) → holds (program >>= next))
    (head : holds (headObjectForRole unicode config role bucket path user))
    (sample : holds (readObjectRangeForRole unicode config role bucket path 0 8191 user))
    (body : holds (readObjectForRole unicode config role bucket path user)) :
    holds (readFile unicode config rules token role bucket path user forceText) := by
  have detected : holds (refuseBinary unicode config rules role bucket path user forceText) := by
    unfold refuseBinary
    split
    · exact result (.ok ())
    · split
      · exact result _
      · exact result (.ok ())
      · exact result (.ok ())
      · apply bind sample
        intro sample
        split
        · exact result (.ok ())
        · exact result _
  have decoded (raw : Bytes) : holds (decodeContent rules forceText raw) := by
    unfold decodeContent
    split
    · exact result (.ok _)
    · split
      · exact result (.ok _)
      · exact result _
  apply bind (result _)
  intro limit
  apply bind head
  intro size
  split
  · exact result _
  · exact bind detected fun _ => bind body fun raw => bind (decoded raw) fun _ => result (.ok _)

end Parts

section Writes

/-- `upload_file` with its content decoded. -/
def uploadFile (token : Token) (role : Option Str) (bucket path : Str) (user : UserDict)
    (maxFileSize estimatedSize : Int) (content : Bytes) : S3Program Unit := do
  let _ ← S3Program.ofResult (assertWriteAllowed token .uploadFile config)
  if maxFileSize < estimatedSize then
    S3Program.ofResult
      (raiseMcp "FILE_TOO_LARGE" (lit "Upload exceeds the server's max_file_size limit"))
  else
    putObjectForRole unicode config role bucket path content user
      (lit "application/octet-stream") none

def deleteFile (pages : Nat) (token : Token) (role : Option Str) (bucket path : Str)
    (user : UserDict) : S3Program DeleteResult := do
  let _ ← S3Program.ofResult (assertWriteAllowed token .deleteFile config)
  deleteObjectForRole unicode config pages role bucket path user

/-- The refusal of a move while deletion is disabled. -/
def assertMoveAllowed (deleteSource : Bool) : Result Unit :=
  if deleteSource ∧ (dictGetD config "disable_deletion" (.bool false)).truthy then
    raiseMcp "DELETION_DISABLED"
      (lit "Deletion is disabled in server config (delete_source requires it)")
  else .ok ()

/-- The delete that turns a copy into a move. -/
def deleteMoved (pages : Nat) (role : Option Str) (sourceBucket sourcePath : Str)
    (user : UserDict) (deleteSource : Bool) : S3Program Unit :=
  if deleteSource then do
    let _ ← deleteObjectForRole unicode config pages role sourceBucket sourcePath user
    pure ()
  else pure ()

/-- `copy_object`; with `deleteSource` it moves. -/
def copyObject (pages : Nat) (token : Token) (role : Option Str)
    (sourceBucket sourcePath destBucket destPath : Str) (user : UserDict) (deleteSource : Bool) :
    S3Program Unit := do
  let _ ← S3Program.ofResult (assertWriteAllowed token .copyObject config)
  let _ ← S3Program.ofResult (assertMoveAllowed config deleteSource)
  copyObjectForRole unicode config role sourceBucket sourcePath destBucket destPath user
  deleteMoved unicode config pages role sourceBucket sourcePath user deleteSource

end Writes

end S3Manager.Mcp
