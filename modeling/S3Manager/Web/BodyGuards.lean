import S3Manager.Library.Utf8
import S3Manager.Web.ReaderSafety
import S3Manager.Web.Routes

/-! The two middlewares of `main.py` that look at a request body before it is read: they
compare its declared size with a limit, one for uploads by the web UI and one for MCP. -/

set_option autoImplicit false

namespace S3Manager.Web

open Python Library

section Declared

inductive GuardAnswer where
  | callNext
  | refused (status : Nat) (detail : Str)
  deriving DecidableEq

/-- `int(content_length)`; a text that is no number counts as no header. -/
def declaredSize (unicode : Unicode) (contentLength : Option Str) : Option Int :=
  contentLength.bind (intOfStr unicode)

/-- What both guards make of a declared size. -/
def boundDeclared (unicode : Unicode) (contentLength : Option Str) (missing : String)
    (limit : Result Int) (tooLarge : Int → Str) : Result GuardAnswer :=
  match declaredSize unicode contentLength with
  | none => .ok (.refused 411 (lit missing))
  | some size =>
      if size < 0 then .ok (.refused 411 (lit missing))
      else do
        let limit ← limit
        .ok (if limit < size then .refused 413 (tooLarge limit) else .callNext)

theorem boundDeclared_truthful {unicode : Unicode} {header : Str} {size : Nat} {missing : String}
    {limit : Int} {tooLarge : Int → Str} (truthful : intOfStr unicode header = some (size : Int)) :
    boundDeclared unicode (some header) missing (.ok limit) tooLarge =
      .ok (if limit < size then .refused 413 (tooLarge limit) else .callNext) := by
  have declared : declaredSize unicode (some header) = some (size : Int) := truthful
  have natural : ¬ (size : Int) < 0 := by omega
  simp only [boundDeclared, declared, if_neg natural, result_bind_ok]

end Declared

section Guards

variable (environ : Config.Environ) (config : Dict)

def mcpJsonEnvelopeOverheadBytes : Int := 8192

def resolveMcpBodyMaxBytes : Result Int := do
  let maxFileSize ← resolveMaxFileSize environ config
  .ok ((maxFileSize + 2) / 3 * 4 + mcpJsonEnvelopeOverheadBytes)

/-- `_mcp_body_guard` -/
def mcpBodyGuard (method path : Str) (contentLength : Option Str) : Result GuardAnswer :=
  if method = lit "POST" ∧ (path = lit "/mcp" ∨ startsWith path (lit "/mcp/") = true) then
    boundDeclared environ.unicode contentLength
      "Content-Length header is required for /mcp requests"
      (resolveMcpBodyMaxBytes environ config)
      fun limit => lit s!"Request body exceeds maximum allowed size of {limit} bytes"
  else .ok .callNext

def guardsUpload (method path : Str) : Prop :=
  method = lit "POST" ∧ startsWith path (lit "/api/buckets/") = true ∧
    endsWith path (lit "/upload") = true

instance (method path : Str) : Decidable (guardsUpload method path) := by
  unfold guardsUpload
  infer_instance

/-- `_upload_body_guard` -/
def uploadBodyGuard (hasValidSession : Bool) (method path : Str)
    (contentLength : Option Str) : Result GuardAnswer :=
  if guardsUpload method path then
    if !hasValidSession then .ok (.refused 401 (lit "Not authenticated"))
    else
      boundDeclared environ.unicode contentLength "Content-Length header is required for uploads"
        (resolveMaxFileSize environ config)
        fileTooLarge
  else .ok .callNext

end Guards

end S3Manager.Web
