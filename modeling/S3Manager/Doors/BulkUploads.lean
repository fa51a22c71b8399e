import S3Manager.Doors.Delivery
import S3Manager.Doors.ReadBack
import S3Manager.Ui.BulkUpload
import S3Manager.Ui.FileBrowser

/-! An upload of several files from the file browser, from its first request to its summary,
while other clients of both doors go on: what the summary calls done is in the store. -/

set_option autoImplicit false

namespace S3Manager.Doors

open Python Utils Access Storage Library Ui

section Model

/-- What the server has when an upload arrives, and what the browser tells of it meanwhile. -/
structure UploadVisit where
  config : Dict
  user : UserDict
  maxFileSize : Int
  contentType : Option Str
  events : List UploadEvent
  delivery : Delivery UploadFailure

variable (unicode : Unicode) (describe : PyError → UploadFailure) (role : Option Str)
  (bucketName : Str)

def UploadVisit.operation (visit : UploadVisit) (request : FileUpload) : StorageOperation :=
  .webUploadFile role bucketName ⟨request.key, request.file.content, visit.contentType⟩
    visit.maxFileSize

/-- `uploadFile`: the route, and what the browser makes of its answer. -/
def serveUpload (visits : Nat → UploadVisit) (served : Nat) (request : FileUpload) :
    Program Effect.Reply UploadReply :=
  let visit := visits served
  Program.bind
    (visit.delivery.carry describe
      ((visit.operation role bucketName request).program unicode visit.config visit.user))
    fun outcome => .pure ⟨visit.events, outcome⟩

/-- The upload of a list of files into the folder of a screen. -/
def uploadBatch (visits : Nat → UploadVisit) (screen : Screen) (maxFileSize : Option Int)
    (formatBytes : Int → Str) (aborted : Nat → Bool) (files : List FileWithRelativePath) :
    Program Effect.Reply UploadReport :=
  (handleUpload screen.uploadKey maxFileSize formatBytes aborted files).inline
    (serveUpload unicode describe role bucketName visits) 0

/-- An object and what is to be in it. -/
structure Placed where
  bucket : Str
  key : Str
  content : Bytes

/-- The upload route puts the file there. -/
def Places (request : FileUpload) (placed : Placed) : Prop :=
  Web.sanitizeTarget unicode bucketName request.key = .ok (placed.bucket, placed.key) ∧
    request.file.content = placed.content

/-- No other file of the batch goes to the same object, unless it is the same. -/
def Undisputed (screen : Screen) (files : List FileWithRelativePath) (placed : Placed) : Prop :=
  ∀ chosen ∈ files,
    Web.sanitizeTarget unicode bucketName (screen.uploadKey chosen.relativePath) =
      .ok (placed.bucket, placed.key) → chosen.file.content = placed.content

/-- Every file that the report calls done is in the store, where `safe` allows to expect it. -/
def Stored (screen : Screen) (files : List FileWithRelativePath) (safe : Placed → Prop)
    (report : UploadReport) (store : Store) : Prop :=
  ∀ line ∈ files.zip report.items, line.2.status = .done → ∀ placed,
    Places unicode bucketName (line.1.request screen.uploadKey) placed → safe placed →
      Holds placed.bucket placed.key placed.content store

/-- No other file of the batch goes to the object with another content, and none of the other
clients' calls may store or take it. -/
structure Undisturbed {Client : Type} (sessions : Client → ClientSession) (screen : Screen)
    (files : List FileWithRelativePath) (placed : Placed) : Prop where
  undisputed : Undisputed unicode bucketName screen files placed
  stores : ∀ client, ¬ (sessions client).Has
    (DoorCall.MayStore unicode placed.bucket placed.key)
  erases : ∀ client, ¬ (sessions client).Has
    (DoorCall.MayErase unicode placed.bucket placed.key)

end Model

section Serving

variable {unicode : Unicode} {conventions : Conventions} {describe : PyError → UploadFailure}
  {role : Option Str} {bucketName : Str} {visits : Nat → UploadVisit} {served : Nat}
  {request : FileUpload} {placed : Placed} {world : World} {config : Dict} {user : UserDict}

/-- An upload of something else leaves the object alone, and one of the same content leaves it
as it is. -/
theorem triple_uploadFileobj_keeps {bucket key name other : Str} {content body : Bytes}
    (same : name = bucket ∧ other = key → body = content) (contentType : Str)
    (contentDisposition : Option Str) :
    Triple conventions (Holds bucket key content) (Holds bucket key content)
      (uploadFileobjForRole unicode config role name other body user contentType contentDisposition)
      (fun _ => Holds bucket key content) (Holds bucket key content) := by
  refine triple_check stable_kept fun _ _ => triple_retry stable_kept (fun _ => stable_kept)
    (triple_call stable_kept (fun _ => stable_kept) fun store here => ?_)
  by_cases own : name = bucket ∧ other = key
  · obtain ⟨⟨rfl, rfl⟩, rfl⟩ := And.intro own (same own)
    exact holds_put store _
  · obtain ⟨stored, found, whole⟩ := here
    refine ⟨stored, ?_, whole⟩
    show (store.put name other body _).get? bucket key = some stored
    rw [get?_put, if_neg fun apart => own ⟨apart.1.symm, apart.2.symm⟩, found]

theorem serveUpload_keeps
    (undisputed : Web.sanitizeTarget unicode bucketName request.key =
      .ok (placed.bucket, placed.key) → request.file.content = placed.content)
    (here : Holds placed.bucket placed.key placed.content world.store) :
    (serveUpload unicode describe role bucketName visits served request).Relies (handle conventions)
      (Keeping (Holds placed.bucket placed.key placed.content))
      (fun _ later => Holds placed.bucket placed.key placed.content later.store) world := by
  refine Program.relies_bind keeping_refl (carry_keeps ?_ here)
    fun outcome later still final moved => moved still
  refine triple_check stable_kept fun target sanitized => triple_check stable_kept fun _ _ => ?_
  refine triple_check stable_kept fun disposition _ => ?_
  refine triple_bind stable_kept (triple_uploadFileobj_keeps (fun own => undisputed ?_) _ _)
    fun _ => triple_pure stable_kept fun _ still => still
  rw [← own.1, ← own.2]
  exact sanitized

theorem serveUpload_brings (places : Places unicode bucketName request placed) :
    (serveUpload unicode describe role bucketName visits served request).Relies (handle conventions)
      (Keeping (Holds placed.bucket placed.key placed.content))
      (fun reply later => reply.outcome = .ok () →
        Holds placed.bucket placed.key placed.content later.store) world := by
  have uploads : ((visits served).operation role bucketName request).Uploads unicode placed.bucket
      placed.key placed.content := places
  exact Program.relies_bind keeping_refl (carry_brings (triple_uploads uploads))
    fun outcome later stored final moved done => moved (stored done)

end Serving

section Batches

variable {unicode : Unicode} {conventions : Conventions} {describe : PyError → UploadFailure}
  {role : Option Str} {bucketName : Str} {visits : Nat → UploadVisit} {screen : Screen}
  {maxFileSize : Option Int} {formatBytes : Int → Str} {aborted : Nat → Bool}
  {files : List FileWithRelativePath} {report : UploadReport} {safe : Placed → Prop}

/-- The request for the file has succeeded. -/
def LandedIn (unicode : Unicode) (bucketName : Str) (safe : Placed → Prop) (log : UploadLog)
    (placed : {placed // safe placed}) : Prop :=
  ∃ entry ∈ log, entry.2.outcome = .ok () ∧ Places unicode bucketName entry.1 placed.1

def holdsAt (safe : Placed → Prop) (placed : {placed // safe placed}) (store : Store) : Prop :=
  Holds placed.1.bucket placed.1.key placed.1.content store

/-- The batch as a whole, whoever interferes. -/
theorem uploadBatch_relies (world : World)
    (undisputed : ∀ placed, safe placed → Undisputed unicode bucketName screen files placed) :
    (uploadBatch unicode describe role bucketName visits screen maxFileSize formatBytes aborted
      files).Relies (handle conventions) (Program.Sparing (KeptIn (holdsAt safe)))
      (fun report later => Stored unicode bucketName screen files safe report later.store) world := by
  have gathers (request : FileUpload) (reply : UploadReply) (log : UploadLog)
      (placed : {placed // safe placed})
      (done : LandedIn unicode bucketName safe (UploadLog.record request reply log) placed) :
      LandedIn unicode bucketName safe log placed ∨
        (reply.outcome = .ok () ∧ Places unicode bucketName request placed.1) := by
    obtain ⟨entry, listed, good, places⟩ := done
    obtain earlier | last := List.mem_append.mp listed
    · exact .inl ⟨entry, earlier, good, places⟩
    · obtain rfl := List.mem_singleton.mp last
      exact .inr ⟨good, places⟩
  have keeps (served : Nat) (request : FileUpload) (placed : {placed // safe placed})
      (world : World) (among : ∃ chosen ∈ files, request = chosen.request screen.uploadKey)
      (here : KeptIn (holdsAt safe) placed world) :
      (serveUpload unicode describe role bucketName visits served request).Relies
        (handle conventions)
        (fun first later => KeptIn (holdsAt safe) placed first → KeptIn (holdsAt safe) placed later)
        (fun _ later => KeptIn (holdsAt safe) placed later) world := by
    obtain ⟨chosen, listed, rfl⟩ := among
    exact serveUpload_keeps (undisputed placed.1 placed.2 chosen listed) here
  have brings (served : Nat) (request : FileUpload) (placed : {placed // safe placed})
      (world : World) (_ : ∃ chosen ∈ files, request = chosen.request screen.uploadKey) :
      (serveUpload unicode describe role bucketName visits served request).Relies
        (handle conventions)
        (fun first later => KeptIn (holdsAt safe) placed first → KeptIn (holdsAt safe) placed later)
        (fun reply later => reply.outcome = .ok () ∧ Places unicode bucketName request placed.1 →
          KeptIn (holdsAt safe) placed later) world := by
    by_cases places : Places unicode bucketName request placed.1
    · exact Program.relies_mono (serveUpload_brings places) fun _ _ stored done => stored done.1
    · exact Program.relies_always fun _ _ done => absurd done.2 places
  refine Program.relies_mono (Program.relies_gather gathers keeps brings
    (handleUpload_asks aborted files)
    (handleUpload_ends screen.uploadKey maxFileSize formatBytes aborted files) ?_) ?_
  · rintro placed ⟨entry, listed, -⟩
    cases listed
  · rintro _ later ⟨log, ⟨stop, items, listed, rfl⟩, stored⟩ line told done placed places allowed
    obtain ⟨reply, logged, good⟩ := listed_done listed told done
    exact stored ⟨placed, allowed⟩ ⟨_, logged, good, places⟩

variable {Client : Type} [DecidableEq Client]

/-- An upload of several files has shown its summary, whatever requests or answers were lost,
whenever the user cancelled, and however its requests interleaved with those of other clients:
every file that it calls done is in the store with its content, unless another file of the
batch or a call of another client may have changed that object. -/
theorem bulk_upload_stores (sessions : Client → ClientSession)
    (schedule : List (Option Client)) (world : World)
    (ended : ((Pool.beside world
      (uploadBatch unicode describe role bucketName visits screen maxFileSize formatBytes aborted
        files) fun client => (sessions client).program unicode).run (handle conventions)
          schedule).programs none = .pure report) :
    Stored unicode bucketName screen files (Undisturbed unicode bucketName sessions screen files)
      report
      ((Pool.beside world
        (uploadBatch unicode describe role bucketName visits screen maxFileSize formatBytes aborted
          files) fun client => (sessions client).program unicode).run (handle conventions)
            schedule).world.store := by
  refine beside_spared (fun client placed => ?_)
    (uploadBatch_relies world fun placed undisturbed => undisturbed.undisputed) ended
  exact Program.confined_weaken (confined_session_leave (placed.2.stores client)
    (placed.2.erases client)) fun held later changes => holds_unchanged changes

def chosenFile : FileWithRelativePath := ⟨⟨lit "x", [7]⟩, lit "x"⟩

def chosenScreen : Screen where
  pathFromUrl := lit "stand-a"
  pages := []

def chosenVisit : UploadVisit where
  config := standConfig
  user := standUser
  maxFileSize := 100
  contentType := none
  events := [.progress 40, .finalizing]
  delivery := .answered

/-- An upload of one file, beside a client that sweeps another folder. -/
def chosenPool : Pool Effect.Reply World fun member : Option Unit =>
    member.elim UploadReport fun _ => List Answered :=
  Pool.beside ⟨standStore [1], fun _ => none⟩
    (uploadBatch .ascii (fun _ => .failed []) (some (lit "stand")) (lit "data")
      (fun _ => chosenVisit) chosenScreen (some 100) (fun _ => []) (fun _ => false) [chosenFile])
    fun _ => standSweep.program .ascii

theorem chosen_stored :
    Holds (lit "data") (lit "stand-a/x") [7]
      (chosenPool.run (handle .plain) [none, some (), none, some (), none]).world.store := by
  have ended : (chosenPool.run (handle .plain) [none, some (), none, some (), none]).programs none =
      Program.pure (.of [⟨lit "x", .done, none, some 100⟩]) := rfl
  have undisturbed : Undisturbed .ascii (lit "data") (fun _ : Unit => standSweep) chosenScreen
      [chosenFile] ⟨lit "data", lit "stand-a/x", [7]⟩ := by
    refine ⟨fun chosen listed _ => ?_, fun _ may => ?_, fun _ may => ?_⟩
    · rw [List.mem_singleton.mp listed]
      rfl
    · obtain may | ⟨_, done⟩ := may
      · exact may.names
      · exact done
    · have apart : ¬ folderOf (lit "stand-a/z/") <+: lit "stand-a/x" := by decide
      obtain may | ⟨_, done⟩ := may
      · exact apart may.names.2
      · exact done
  exact bulk_upload_stores (fun _ : Unit => standSweep) _ _ ended _ List.mem_cons_self rfl _ ⟨rfl, rfl⟩ undisturbed

end Batches

end S3Manager.Doors
