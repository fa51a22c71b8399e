import S3Manager.Doors.WriteGuards
import S3Manager.Storage.KeptContent

/-! What is uploaded through either door is what either door shows of it afterwards, while
other clients of both doors go on with other objects. -/

set_option autoImplicit false

namespace S3Manager.Doors

open Python Utils Access Storage Library

section Content

namespace StorageOperation

/-- The operation uploads this content under the key. -/
def Uploads (unicode : Unicode) (bucket key : Str) (content : Bytes) : StorageOperation → Prop
  | .mcpUploadFile _ _ name path _ _ body => name = bucket ∧ path = key ∧ body = content
  | .webUploadFile _ bucketName form _ =>
      Web.sanitizeTarget unicode bucketName form.key = .ok (bucket, key) ∧ form.content = content
  | _ => False

/-- The operation reads the object or its size. -/
def Reads (unicode : Unicode) (bucket key : Str) : StorageOperation → Prop
  | .mcpReadFile _ _ _ name path _ | .mcpGetObjectMetadata _ name path =>
      name = bucket ∧ path = key
  | .webDownloadFile _ bucketName path =>
      Web.sanitizeTarget unicode bucketName path = .ok (bucket, key)
  | _ => False

/-- What its answer says about the content. -/
def Shows (content : Bytes) : (operation : StorageOperation) → operation.Answer → Prop
  | .mcpReadFile rules _ _ _ _ forceText, answer =>
      Mcp.decodeContent rules forceText content = pure (Mcp.FileText.content answer) ∧
        Mcp.FileText.size answer = content.length
  | .mcpGetObjectMetadata _ _ _, head => ObjectHead.contentLength head = content.length
  | .webDownloadFile _ _ _, answer =>
      ObjectBody.content (Prod.snd answer) = content ∧
        ObjectBody.contentLength (Prod.snd answer) = content.length
  | _, _ => False

end StorageOperation

variable {unicode : Unicode} {conventions : Conventions} {config : Dict} {user : UserDict}
  {bucket key : Str} {content : Bytes}

theorem triple_uploads {operation : StorageOperation}
    (uploads : operation.Uploads unicode bucket key content) :
    Triple conventions (Holds bucket key content) (fun _ => True)
      (operation.program unicode config user) (fun _ => Holds bucket key content) fun _ => True := by
  cases operation with
  | mcpUploadFile token role name path maxFileSize estimatedSize body =>
      obtain ⟨rfl, rfl, rfl⟩ := uploads
      refine triple_check stable_true fun _ _ => ?_
      split
      · exact triple_ofResult stable_true fun _ same => by cases same
      · exact triple_putObject _ _
  | webUploadFile role bucketName form maxFileSize =>
      obtain ⟨sanitized, rfl⟩ := uploads
      refine triple_check stable_true fun target same => ?_
      obtain rfl := Except.ok.inj (sanitized.symm.trans same)
      refine triple_check stable_true fun _ _ => triple_check stable_true fun disposition _ => ?_
      exact triple_bind stable_true (triple_uploadFileobj _ _) fun _ =>
        triple_failed (triple_pure stable_kept fun _ here => here) fun _ _ => trivial
  | _ => exact uploads.elim

theorem triple_decodeContent {pre : Store → Prop} {rules : Mcp.TextRules} {forceText : Bool} :
    Triple conventions pre pre (Mcp.decodeContent rules forceText content)
      (fun text store => pre store ∧ Mcp.decodeContent rules forceText content = pure text) pre := by
  unfold Mcp.decodeContent
  split
  · exact triple_pure stable_kept fun _ here => ⟨here, rfl⟩
  · split
    · exact triple_pure stable_kept fun _ here => ⟨here, rfl⟩
    · exact triple_ofResult stable_kept fun _ same => by cases same

theorem triple_reads {operation : StorageOperation} (reads : operation.Reads unicode bucket key) :
    Triple conventions (Holds bucket key content) (Holds bucket key content)
      (operation.program unicode config user) (fun answer _ => operation.Shows content answer)
      (Holds bucket key content) := by
  cases operation with
  | mcpReadFile rules token role name path forceText =>
      obtain ⟨rfl, rfl⟩ := reads
      refine triple_check stable_kept fun limit _ => ?_
      refine triple_bind stable_kept triple_headObject fun size => triple_fact fun headed => ?_
      split
      · exact triple_ofResult stable_kept fun _ same => by cases same
      · have refused : Triple conventions (Holds name path content) (Holds name path content)
            (Mcp.refuseBinary unicode config rules role name path user forceText)
            (fun _ => Holds name path content) (Holds name path content) := by
          unfold Mcp.refuseBinary
          split
          · exact triple_pure stable_kept fun _ here => here
          · split
            · exact triple_ofResult stable_kept fun _ same => by cases same
            · exact triple_pure stable_kept fun _ here => here
            · exact triple_pure stable_kept fun _ here => here
            · refine triple_bind stable_kept (triple_readObjectRange 0 8191) fun sample => ?_
              split
              · exact triple_pure stable_kept fun _ here => here
              · exact triple_ofResult stable_kept fun _ same => by cases same
        refine triple_bind stable_kept refused fun _ => ?_
        refine triple_bind stable_kept triple_readObject fun raw => triple_fact ?_
        rintro rfl
        refine triple_bind stable_kept triple_decodeContent fun text => triple_fact fun decoded => ?_
        exact triple_pure stable_kept fun _ _ => ⟨decoded, headed⟩
  | mcpGetObjectMetadata role name path =>
      obtain ⟨rfl, rfl⟩ := reads
      exact triple_post triple_getObjectMetadata fun _ _ shown => shown.2
  | webDownloadFile role bucketName path =>
      refine triple_check stable_kept fun target same => ?_
      obtain rfl := Except.ok.inj (reads.symm.trans same)
      refine triple_bind stable_kept triple_iterObject fun body => triple_fact fun shown => ?_
      exact triple_pure stable_kept fun _ _ => shown
  | _ => exact reads.elim

/-- One call, and another when it has returned normally. -/
def callThen (unicode : Unicode) (first second : DoorCall) : S3Program second.operation.Answer := do
  let _ ← first.operation.program unicode first.config first.user
  second.operation.program unicode second.config second.user

theorem holds_unchanged {held later : Store}
    (changes : ChangesOnly bucket key False False held later) (here : Holds bucket key content held) :
    Holds bucket key content later := by
  obtain ⟨stored, found, same⟩ := here
  refine ⟨stored, ?_, same⟩
  cases left : later.get? bucket key with
  | none => exact (changes.lost (found ▸ Option.some_ne_none stored) left).elim
  | some other =>
      by_contra different
      exact changes.changed other left fun same => different (same.symm.trans found)

variable {Client : Type} [DecidableEq Client]

/-- An upload and a later read of the same key have both returned normally, each through any
door and for any user. However their requests and retries interleaved with the calls of other
clients, the answer shows what was uploaded, unless one of the others may have put or taken
that object. -/
theorem upload_reads_back {upload read : DoorCall} {answer : read.operation.Answer}
    (uploads : upload.operation.Uploads unicode bucket key content)
    (reads : read.operation.Reads unicode bucket key) (sessions : Client → ClientSession)
    (stores : ∀ client, ¬ (sessions client).Has (DoorCall.MayStore unicode bucket key))
    (erases : ∀ client, ¬ (sessions client).Has (DoorCall.MayErase unicode bucket key))
    (schedule : List (Option Client)) (world : World)
    (ended : ((Pool.beside world (callThen unicode upload read) fun client =>
      (sessions client).program unicode).run (handle conventions) schedule).programs none =
        .pure (.ok answer)) :
    read.operation.Shows content answer := by
  have whole : Triple conventions (Holds bucket key content) (fun _ => True)
      (callThen unicode upload read) (fun answer _ => read.operation.Shows content answer)
      fun _ => True :=
    triple_bind stable_true (triple_uploads uploads) fun _ =>
      triple_failed (triple_reads reads) fun _ _ => trivial
  refine beside_ends whole trivial ?_ ended
  refine Pool.interferes_of_confined schedule keeping_refl fun member other => ?_
  cases member with
  | none => exact absurd rfl other
  | some client =>
      exact Program.confined_weaken (confined_session_leave (stores client)
        (erases client)) fun held later changes here => holds_unchanged changes here

/-- An upload over MCP that the web reads back beside a client that sweeps another folder. -/
def standUpload : DoorCall := ⟨standConfig, standUser, uploadTo (lit "stand-a/x")⟩

def standDownload : DoorCall :=
  ⟨standConfig, standUser, .webDownloadFile (some (lit "stand")) (lit "data") (lit "stand-a/x")⟩

def standSweep : ClientSession :=
  .call ⟨standConfig, standUser,
    .mcpDeleteFile 1 ⟨false, 0⟩ (some (lit "stand")) (lit "data") (lit "stand-a/z/")⟩ fun _ => .done

def standReadPool : Pool Effect.Reply World fun member : Option Unit =>
    member.elim (Result standDownload.operation.Answer) fun _ => List Answered :=
  Pool.beside ⟨(standStore [1]).put (lit "data") (lit "stand-a/z/y") [2] none, fun _ => none⟩
    (callThen .ascii standUpload standDownload) fun _ => standSweep.program .ascii

theorem stand_reads_back :
    ∃ answer, (standReadPool.run (handle .plain)
        [none, some (), none, some (), none, some (), none]).programs none = .pure (.ok answer) ∧
      standDownload.operation.Shows [0] answer := by
  have ended : ∃ answer, (standReadPool.run (handle .plain)
      [none, some (), none, some (), none, some (), none]).programs none =
        Program.pure (.ok answer) := ⟨_, rfl⟩
  obtain ⟨answer, ended⟩ := ended
  have uploads : standUpload.operation.Uploads .ascii (lit "data") (lit "stand-a/x") [0] :=
    ⟨rfl, rfl, rfl⟩
  have reads : standDownload.operation.Reads .ascii (lit "data") (lit "stand-a/x") := rfl
  refine ⟨answer, ended, upload_reads_back uploads reads (fun _ : Unit => standSweep)
    (fun _ may => ?_) (fun _ may => ?_) _ _ ended⟩
  · obtain may | ⟨_, done⟩ := may
    · exact may.names
    · exact done
  · have apart : ¬ folderOf (lit "stand-a/z/") <+: lit "stand-a/x" := by decide
    obtain may | ⟨_, done⟩ := may
    · exact apart may.names.2
    · exact done

end Content

end S3Manager.Doors
