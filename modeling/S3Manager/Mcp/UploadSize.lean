import S3Manager.Library.Base64
import S3Manager.Mcp.Refusals
import S3Manager.Web.BodyGuards

/-! The size limits of an upload over MCP: the guard on the body of the request, and the
estimate that `upload_file` makes before it decodes anything. -/

set_option autoImplicit false

namespace S3Manager.Mcp

open Python Access Storage Library Web

section Upload

/-- The padding is counted in the last two characters only. -/
def estimateBase64DecodedSize (contentBase64 : Str) : Int :=
  let length : Int := contentBase64.length
  let estimate := length * 3 / 4 - Base64.padding contentBase64
  max estimate 0

/-- `base64.b64decode(s, validate=True)`, which is strict; its refusals have texts. -/
structure StrictBase64 where
  b64decode : Str → Except Str Bytes
  strict : ∀ text bytes, b64decode text = .ok bytes ↔ Base64.decode text = some bytes

variable (environ : Config.Environ) (config : Dict) (token : Token) (role : Option Str)
  (bucket path : Str) (user : UserDict)

def uploadTooLarge (estimatedSize maxFileSize : Int) : Str :=
  lit (s!"Upload of ~{estimatedSize} bytes exceeds the server's " ++
    s!"max_file_size limit of {maxFileSize}")

/-- What `upload_file` does before it asks S3 for anything. -/
def admitUpload (b64decode : Str → Except Str Bytes) (contentBase64 : Str) : Result Bytes := do
  let _ ← assertWriteAllowed token .uploadFile config
  let maxFileSize ← resolveMaxFileSize environ config
  let estimatedSize := estimateBase64DecodedSize contentBase64
  if maxFileSize < estimatedSize then
    raiseMcp "FILE_TOO_LARGE" (uploadTooLarge estimatedSize maxFileSize)
  else
    match b64decode contentBase64 with
    | .error message =>
        raiseMcp "INVALID_INPUT" (lit "content_base64 is not valid base64: " ++ message)
    | .ok content => .ok content

/-- The answer of `upload_file`, under its handlers. -/
def uploadFileAnswer (b64decode : Str → Except Str Bytes) (contentBase64 : Str) :
    S3Program Unit :=
  S3Program.mapError ladder do
    let content ← S3Program.ofResult (admitUpload environ config token b64decode contentBase64)
    (putObjectForRole environ.unicode config role bucket path content user
      (lit "application/octet-stream") none).mapError (raiseStoragePermission environ.unicode)

end Upload

section Laws

variable {environ : Config.Environ} {config : Dict} {decoder : StrictBase64} {text : Str}
  {bytes : Bytes} {limit : Int}

theorem estimate_decoded (decoded : decoder.b64decode text = .ok bytes) :
    estimateBase64DecodedSize text = bytes.length := by
  obtain ⟨groups, chars, counted, -⟩ :=
    Base64.decode_length ((decoder.strict text bytes).mp decoded)
  simp only [estimateBase64DecodedSize]
  omega

/-- The text takes four bytes of the request body for every three of the file. -/
theorem body_fits {before after : Bytes} (decoded : decoder.b64decode text = .ok bytes)
    (within : (bytes.length : Int) ≤ limit) (envelope : before.length + after.length ≤ 8192) :
    ((before ++ utf8Encode text ++ after).length : Int) ≤
      (limit + 2) / 3 * 4 + mcpJsonEnvelopeOverheadBytes := by
  have accepted := (decoder.strict text bytes).mp decoded
  obtain ⟨groups, chars, counted, few⟩ := Base64.decode_length accepted
  rw [List.length_append, List.length_append, Base64.decode_bytes accepted, chars,
    mcpJsonEnvelopeOverheadBytes]
  omega

theorem guard_passes {before after : Bytes} {header : Str}
    (resolved : resolveMaxFileSize environ config = .ok limit)
    (decoded : decoder.b64decode text = .ok bytes) (within : (bytes.length : Int) ≤ limit)
    (envelope : before.length + after.length ≤ 8192)
    (truthful : intOfStr environ.unicode header =
      some (before ++ utf8Encode text ++ after).length) (method path : Str) :
    mcpBodyGuard environ config method path (some header) = .ok .callNext := by
  have fits := body_fits decoded within envelope
  have bound : resolveMcpBodyMaxBytes environ config =
      .ok ((limit + 2) / 3 * 4 + mcpJsonEnvelopeOverheadBytes) := by
    rw [resolveMcpBodyMaxBytes, resolved, result_bind_ok]
  unfold mcpBodyGuard
  split_ifs with guarded
  · rw [bound, boundDeclared_truthful truthful, if_neg (Int.not_lt.mpr fits)]
  · rfl

variable {token : Token} {role : Option Str} {bucket path : Str} {user : UserDict}

theorem assertWriteAllowed_avoids (tool : WriteTool) :
    Avoids (lit "FILE_TOO_LARGE") (assertWriteAllowed token tool config) := by
  unfold assertWriteAllowed
  split_ifs with server readOnly deletion
  · exact avoids_raise (by decide)
  · exact avoids_raise (by decide)
  · exact avoids_raise (by decide)
  · exact avoids_ok _

theorem admit_within (resolved : resolveMaxFileSize environ config = .ok limit)
    (decoded : decoder.b64decode text = .ok bytes) (within : (bytes.length : Int) ≤ limit) :
    admitUpload environ config token decoder.b64decode text =
      assertWriteAllowed token .uploadFile config >>= fun _ => .ok bytes := by
  simp only [admitUpload, resolved, result_bind_ok, estimate_decoded decoded,
    if_neg (Int.not_lt.mpr within), decoded]

/-- An upload above the limit is refused whatever the decoder would do. -/
theorem admit_above (resolved : resolveMaxFileSize environ config = .ok limit)
    (decoded : decoder.b64decode text = .ok bytes) (above : limit < (bytes.length : Int))
    (b64decode : Str → Except Str Bytes) :
    admitUpload environ config token b64decode text =
      assertWriteAllowed token .uploadFile config >>= fun _ =>
        raiseMcp "FILE_TOO_LARGE" (uploadTooLarge bytes.length limit) := by
  simp only [admitUpload, resolved, result_bind_ok, estimate_decoded decoded, if_pos above]

theorem assertWriteAllowed_cases (tool : WriteTool) :
    assertWriteAllowed token tool config = .ok () ∨
      ∃ code message, assertWriteAllowed token tool config = raiseMcp code message := by
  unfold assertWriteAllowed
  split_ifs with server readOnly deletion
  · exact .inr ⟨_, _, rfl⟩
  · exact .inr ⟨_, _, rfl⟩
  · exact .inr ⟨_, _, rfl⟩
  · exact .inl rfl

/-- Within the limit the tool puts the decoded bytes, if it may write. -/
theorem upload_within (resolved : resolveMaxFileSize environ config = .ok limit)
    (decoded : decoder.b64decode text = .ok bytes) (within : (bytes.length : Int) ≤ limit) :
    uploadFileAnswer environ config token role bucket path user decoder.b64decode text =
      S3Program.mapError ladder (do
        S3Program.ofResult (assertWriteAllowed token .uploadFile config)
        (putObjectForRole environ.unicode config role bucket path bytes user
          (lit "application/octet-stream") none).mapError
            (raiseStoragePermission environ.unicode)) := by
  rw [uploadFileAnswer, admit_within resolved decoded within]
  cases assertWriteAllowed token .uploadFile config <;> rfl

/-- Above the limit the tool answers a refusal at once: it decodes nothing and asks S3 for
nothing. -/
theorem upload_above (resolved : resolveMaxFileSize environ config = .ok limit)
    (decoded : decoder.b64decode text = .ok bytes) (above : limit < (bytes.length : Int))
    (b64decode : Str → Except Str Bytes) :
    uploadFileAnswer environ config token role bucket path user b64decode text =
      S3Program.ofResult (assertWriteAllowed token .uploadFile config >>= fun _ =>
        raiseMcp "FILE_TOO_LARGE" (uploadTooLarge bytes.length limit)) := by
  rw [uploadFileAnswer, admit_above resolved decoded above]
  obtain allowed | ⟨code, message, refused⟩ :=
    @assertWriteAllowed_cases config token .uploadFile
  · rw [allowed]
    rfl
  · rw [refused]
    rfl

theorem storagePermissionCode_cases (unicode : Unicode) (message : Str) :
    storagePermissionCode unicode message ∈
      [lit "PREFIX_NOT_ALLOWED", lit "BUCKET_NOT_ALLOWED", lit "ROLE_NOT_ALLOWED"] := by
  unfold storagePermissionCode
  dsimp only
  split_ifs <;> simp

/-- No upload that is admitted is too large to the tool after all. -/
theorem upload_spares (b64decode : Str → Except Str Bytes)
    (admitted : Avoids (lit "FILE_TOO_LARGE") (admitUpload environ config token b64decode text)) :
    Spares (lit "FILE_TOO_LARGE")
      (uploadFileAnswer environ config token role bucket path user b64decode text) := by
  have permission : ∀ message, storagePermissionCode environ.unicode message ≠
      lit "FILE_TOO_LARGE" := by
    intro message same
    have cases_ := storagePermissionCode_cases environ.unicode message
    rw [same] at cases_
    exact absurd cases_ (by decide)
  refine spares_mapError (ladder_spares (fun errorClass => ?_) (by decide)) ?_
  · cases errorClass <;> decide
  · refine spares_bind (spares_ofResult admitted) fun content => ?_
    exact spares_mapError (raiseStoragePermission_spares permission)
      (spares_gatedCall (spares_call _))

end Laws

section Chain

variable {environ : Config.Environ} {config : Dict} {decoder : StrictBase64} {text : Str}
  {bytes : Bytes} {limit : Int} {token : Token} {role : Option Str} {bucket path : Str}
  {user : UserDict}

/-- The estimate of a text that decodes is the length of its bytes. Within the limit the
guard lets the request through, the tool finds nothing too large and, if it may write, puts
these bytes. Above it the tool answers a refusal, whatever its decoder and the world are, and
leaves the world alone. -/
theorem upload_size_chain (resolved : resolveMaxFileSize environ config = .ok limit)
    (decoded : decoder.b64decode text = .ok bytes) :
    estimateBase64DecodedSize text = bytes.length ∧
      ((bytes.length : Int) ≤ limit →
        (∀ before after header, before.length + after.length ≤ 8192 →
          intOfStr environ.unicode header =
            some (before ++ utf8Encode text ++ after).length →
          ∀ method url, mcpBodyGuard environ config method url (some header) = .ok .callNext) ∧
        (∀ (World : Type) (handler : (effect : Effect) → World → effect.Reply × World),
          (∀ effect world, Quiet (lit "FILE_TOO_LARGE") effect (handler effect world).1) →
          ∀ world, Avoids (lit "FILE_TOO_LARGE") (Program.run handler (uploadFileAnswer environ
            config token role bucket path user decoder.b64decode text) world).1) ∧
        uploadFileAnswer environ config token role bucket path user decoder.b64decode text =
          S3Program.mapError ladder (do
            S3Program.ofResult (assertWriteAllowed token .uploadFile config)
            (putObjectForRole environ.unicode config role bucket path bytes user
              (lit "application/octet-stream") none).mapError
                (raiseStoragePermission environ.unicode))) ∧
      (limit < bytes.length → ∀ (b64decode : Str → Except Str Bytes) (World : Type)
        (handler : (effect : Effect) → World → effect.Reply × World) (world : World),
        Program.run handler (uploadFileAnswer environ config token role bucket path user b64decode
            text) world =
          (assertWriteAllowed token .uploadFile config >>= fun _ =>
            raiseMcp "FILE_TOO_LARGE" (uploadTooLarge bytes.length limit), world)) := by
  refine ⟨estimate_decoded decoded, fun within => ⟨fun before after header envelope truthful =>
    guard_passes resolved decoded within envelope truthful, fun World handler quiet world => ?_,
    upload_within resolved decoded within⟩, fun above b64decode World handler world => ?_⟩
  · refine spares_run quiet (upload_spares decoder.b64decode ?_) world
    rw [admit_within resolved decoded within]
    exact avoids_bind (assertWriteAllowed_avoids _) fun _ => avoids_ok bytes
  · rw [upload_above resolved decoded above]
    rfl

/-- The decoder itself, with one text for all its refusals. -/
def plainDecoder : StrictBase64 where
  b64decode text := (Base64.decode text).elim (.error (lit "Incorrect padding")) .ok
  strict text bytes := by cases Base64.decode text <;> simp

/-- Four bytes under a limit of four, and five. -/
theorem upload_size_at_limit :
    estimateBase64DecodedSize (Base64.encode [1, 2, 3, 4]) = 4 ∧
      mcpBodyGuard Config.bareEnviron [(lit "max_file_size", .int 4)] (lit "POST") (lit "/mcp")
        (some (lit "8")) = .ok .callNext ∧
      ∀ (World : Type) (handler : (effect : Effect) → World → effect.Reply × World) (world : World),
        Program.run handler (uploadFileAnswer Config.bareEnviron [(lit "max_file_size", .int 4)]
            ⟨false, 1⟩ none [] [] ⟨true, [], none⟩ plainDecoder.b64decode
            (Base64.encode [1, 2, 3, 4, 5])) world =
          (raiseMcp "FILE_TOO_LARGE" (uploadTooLarge 5 4), world) := by
  have decoded (content : Bytes) : plainDecoder.b64decode (Base64.encode content) = .ok content :=
    (plainDecoder.strict _ _).mpr (Base64.decode_encode _)
  have resolved : resolveMaxFileSize Config.bareEnviron [(lit "max_file_size", .int 4)] =
      .ok 4 := rfl
  obtain ⟨exact_, fits, -⟩ := @upload_size_chain _ _ plainDecoder _ _ _ ⟨false, 1⟩ none [] []
    ⟨true, [], none⟩ resolved (decoded [1, 2, 3, 4])
  obtain ⟨-, -, refused⟩ := @upload_size_chain _ _ plainDecoder _ _ _ ⟨false, 1⟩ none [] []
    ⟨true, [], none⟩ resolved (decoded [1, 2, 3, 4, 5])
  have sent : (utf8Encode (Base64.encode [1, 2, 3, 4])).length = 8 := by decide
  refine ⟨exact_, (fits (by decide)).1 [] [] (lit "8") (by decide) ?_ (lit "POST") (lit "/mcp"),
    refused (by decide) _⟩
  rw [List.nil_append, List.append_nil, sent]
  decide

end Chain

end S3Manager.Mcp
