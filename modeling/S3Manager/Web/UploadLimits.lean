import S3Manager.Web.BodyGuards
import S3Manager.Web.Routes

/-! The three places that compare an upload of the web UI with `max_file_size`: the guard
sees the multipart body, the handler the spooled file, and the browser the file itself. -/

set_option autoImplicit false

namespace S3Manager.Web

open Python Access Storage Library

section Body

def crlf : Bytes := [13, 10]

def dashes : Bytes := utf8Encode (lit "--")

/-- One entry of a `FormData`: the lines above it, and what it holds. -/
structure FormPart where
  header : Bytes
  content : Bytes

def FormPart.encode (boundary : Bytes) (part : FormPart) : Bytes :=
  dashes ++ boundary ++ crlf ++ part.header ++ crlf ++ crlf ++ part.content ++ crlf

def multipartBody (boundary : Bytes) (parts : List FormPart) : Bytes :=
  parts.flatMap (FormPart.encode boundary) ++ dashes ++ boundary ++ dashes ++ crlf

/-- What `uploadFile` of `filesApi.ts` sends; texts are as they are on the wire. -/
structure UploadRequest where
  boundary : Bytes
  fileName : Bytes
  fileType : Bytes
  content : Bytes
  key : Bytes
  role : Bytes

namespace UploadRequest

variable (request : UploadRequest)

def fieldHeader (name : String) : Bytes :=
  utf8Encode (lit ("Content-Disposition: form-data; name=\"" ++ name ++ "\""))

def parts : List FormPart :=
  [⟨fieldHeader "file" ++ utf8Encode (lit "; filename=\"") ++ request.fileName ++
      utf8Encode (lit "\"") ++ crlf ++ utf8Encode (lit "Content-Type: ") ++ request.fileType,
    request.content⟩,
    ⟨fieldHeader "key", request.key⟩, ⟨fieldHeader "role", request.role⟩]

def body : Bytes := multipartBody request.boundary request.parts

/-- What the body has besides the bytes of the file. -/
def framing : Nat := ({ request with content := [] } : UploadRequest).body.length

theorem body_length : request.body.length = request.content.length + request.framing := by
  simp only [framing, body, multipartBody, parts, FormPart.encode, List.flatMap_cons,
    List.flatMap_nil, List.length_append, List.length_nil]
  omega

end UploadRequest

end Body

section Checks

/-- `maxFileSize !== undefined && item.file.size > maxFileSize` -/
def preflightRefuses (maxFileSize : Option Int) (size : Nat) : Bool :=
  match maxFileSize with
  | none => false
  | some limit => limit < size

end Checks

section Agreement

variable {environ : Config.Environ} {config : Dict} {url header : Str}
  {limit : Int} {request : UploadRequest}

/-- The guard answers 413 to the request of an authenticated client. -/
def GuardRefuses (environ : Config.Environ) (config : Dict)
    (url header : Str) : Prop :=
  ∃ detail, uploadBodyGuard environ config true (lit "POST") url (some header) =
    .ok (.refused 413 detail)

def HandlerRefuses (limit : Int) (request : UploadRequest) : Prop :=
  ∃ exc, spooledSizeCheck limit request.content.length = .error exc

/-- An upload is refused for its size exactly when the file is larger than the limit, and
the guard, the handler and the browser refuse the same files. -/
structure SizeAgreement (environ : Config.Environ) (config : Dict)
    (url header : Str) (limit : Int) (request : UploadRequest) : Prop where
  refused : GuardRefuses environ config url header ∨ HandlerRefuses limit request ↔
    limit < request.content.length
  handler : GuardRefuses environ config url header ↔ HandlerRefuses limit request
  browser : HandlerRefuses limit request ↔
    preflightRefuses (some limit) request.content.length = true

theorem handlerRefuses_iff : HandlerRefuses limit request ↔ limit < request.content.length := by
  unfold HandlerRefuses spooledSizeCheck
  split_ifs with large
  · exact ⟨fun _ => large, fun _ => ⟨_, rfl⟩⟩
  · simp [large]

theorem guardRefuses_iff (guarded : guardsUpload (lit "POST") url)
    (resolved : resolveMaxFileSize environ config = .ok limit)
    (truthful : intOfStr environ.unicode header = some (request.body.length : Int)) :
    GuardRefuses environ config url header ↔ limit < request.body.length := by
  unfold GuardRefuses uploadBodyGuard
  simp only [if_pos guarded, Bool.not_true, Bool.false_eq_true, if_false, resolved,
    boundDeclared_truthful truthful]
  split_ifs with large
  · exact ⟨fun _ => large, fun _ => ⟨_, rfl⟩⟩
  · simp [large]

/-- The three agree exactly when the file is too large by itself, or small enough for the
whole body to be within the limit. -/
theorem size_agreement_iff (guarded : guardsUpload (lit "POST") url)
    (resolved : resolveMaxFileSize environ config = .ok limit)
    (truthful : intOfStr environ.unicode header = some (request.body.length : Int)) :
    SizeAgreement environ config url header limit request ↔
      limit < request.content.length ∨
        (request.content.length + request.framing : Int) ≤ limit := by
  have guard := @guardRefuses_iff _ _ _ _ _ _ guarded resolved truthful
  rw [request.body_length] at guard
  have browser : HandlerRefuses limit request ↔
      preflightRefuses (some limit) request.content.length = true := by
    rw [handlerRefuses_iff]
    simp [preflightRefuses]
  constructor
  · intro agreement
    have same := agreement.handler
    rw [guard, handlerRefuses_iff] at same
    by_cases large : limit < request.content.length
    · exact .inl large
    · have fits := fun claim => large (same.mp claim)
      exact .inr (by omega)
  · intro condition
    have same : GuardRefuses environ config url header ↔ HandlerRefuses limit request := by
      rw [guard, handlerRefuses_iff]
      omega
    exact ⟨by rw [same, or_self, handlerRefuses_iff], same, browser⟩

/-- A file of four bytes. -/
def smallUpload : UploadRequest :=
  ⟨[98], utf8Encode (lit "a.bin"), utf8Encode (lit "text/plain"), [1, 2, 3, 4], [107], [114]⟩

theorem smallUpload_length : smallUpload.body.length = 218 := by decide +kernel

theorem smallUpload_header :
    intOfStr Config.bareEnviron.unicode (lit "218") = some (smallUpload.body.length : Int) := by
  rw [smallUpload_length]
  decide

theorem size_agreement_small :
    SizeAgreement Config.bareEnviron [(lit "max_file_size", .int 1024)]
      (lit "/api/buckets/data/upload") (lit "218") 1024 smallUpload := by
  refine (size_agreement_iff (by decide) rfl smallUpload_header).mpr (.inr ?_)
  have length := smallUpload_length
  rw [UploadRequest.body_length] at length
  omega

/-- A file of just the limit is refused by the guard alone. -/
theorem file_at_limit_refused :
    ¬ ∀ (environ : Config.Environ) (config : Dict) (url header : Str)
        (limit : Int) (request : UploadRequest), guardsUpload (lit "POST") url →
        resolveMaxFileSize environ config = .ok limit →
        intOfStr environ.unicode header = some (request.body.length : Int) →
        SizeAgreement environ config url header limit request := by
  intro always
  have agreement := always Config.bareEnviron [(lit "max_file_size", .int 4)]
    (lit "/api/buckets/data/upload") (lit "218") 4 smallUpload (by decide) rfl smallUpload_header
  have refused : GuardRefuses Config.bareEnviron [(lit "max_file_size", .int 4)]
      (lit "/api/buckets/data/upload") (lit "218") :=
    (@guardRefuses_iff _ _ _ _ 4 smallUpload (by decide) rfl smallUpload_header).mpr
      (by rw [smallUpload_length]; decide)
  have large := agreement.refused.mp (.inl refused)
  exact absurd large (by decide)

end Agreement

end S3Manager.Web
