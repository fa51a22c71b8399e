import S3Manager.Doors.Confinement
import S3Manager.Library.Marks
import S3Manager.Storage.StoreChanges

/-! Whose leave a change of the store has. Clients of both doors run side by side; an object
that is lost or changed was named by a call of the run which the write guards let through and
whose user is granted the object. -/

set_option autoImplicit false

namespace S3Manager.Doors

open Python Utils Access Storage Library

section Model

/-- The server takes writes over MCP, and so does the token. -/
def McpWrites (config : Dict) (token : Mcp.Token) : Prop :=
  (dictGetD config "mcp_disable_writes" (.bool false)).truthy = false ∧ token.isReadOnly = false

def DeletionEnabled (config : Dict) : Prop :=
  (dictGetD config "disable_deletion" (.bool false)).truthy = false

namespace StorageOperation

/-- The object that the operation puts into the store. -/
def Writes (unicode : Unicode) (bucket key : Str) : StorageOperation → Prop
  | .mcpUploadFile _ _ name path _ _ _ => name = bucket ∧ path = key
  | .mcpCopyObject _ _ _ _ _ destBucket destPath _ => destBucket = bucket ∧ destPath = key
  | .webUploadFile _ bucketName form _ =>
      Web.sanitizeTarget unicode bucketName form.key = .ok (bucket, key)
  | _ => False

/-- The objects that it is there to take away. -/
def Deletes (unicode : Unicode) (bucket key : Str) : StorageOperation → Prop
  | .mcpDeleteFile _ _ _ name path => name = bucket ∧ Targeted path key
  | .mcpCopyObject _ _ _ sourceBucket sourcePath _ _ deleteSource =>
      deleteSource = true ∧ sourceBucket = bucket ∧ Targeted sourcePath key
  | .webDeleteFile _ _ bucketName path _ =>
      ∃ target, Web.sanitizeTarget unicode bucketName path = .ok target ∧ target.1 = bucket ∧
        Targeted (Web.deletePath path target.2) key
  | _ => False

/-- What the guards ask of the server and the token before an object is put. -/
def WriteGuards (config : Dict) : StorageOperation → Prop
  | .mcpUploadFile token _ _ _ _ _ _ => McpWrites config token
  | .mcpCopyObject _ token _ _ _ _ _ deleteSource =>
      McpWrites config token ∧ (deleteSource = true → DeletionEnabled config)
  | _ => True

/-- What they ask before objects are taken away. -/
def DeleteGuards (config : Dict) : StorageOperation → Prop
  | .mcpDeleteFile _ token _ _ _ | .mcpCopyObject _ token _ _ _ _ _ _ =>
      McpWrites config token ∧ DeletionEnabled config
  | .webDeleteFile _ _ _ _ disableDeletionEnv =>
      disableDeletionEnv = false ∧ DeletionEnabled config
  | _ => True

/-- The request puts and takes only what the operation names, and only past the guards. -/
def Guarded (unicode : Unicode) (config : Dict) (operation : StorageOperation)
    (request : S3Request) : Prop :=
  ∀ bucket key,
    (Puts bucket key request → operation.WriteGuards config ∧ operation.Writes unicode bucket key) ∧
      (Takes bucket key request →
        operation.DeleteGuards config ∧ operation.Deletes unicode bucket key)

end StorageOperation

/-- Some call that the client can come to make. -/
def ClientSession.Has (leave : DoorCall → Prop) : ClientSession → Prop
  | .done => False
  | .call made next => leave made ∨ ∃ result, (next result).Has leave

/-- The program of the session, every request marked with the call that it is made for. -/
def ClientSession.markedProgram (unicode : Unicode) :
    ClientSession → Program (Marked DoorCall Effect.Reply) (List Answered)
  | .done => .pure []
  | .call made next =>
      Program.bind ((made.operation.program unicode made.config made.user).mark made) fun result =>
        Program.bind ((next result).markedProgram unicode) fun answers =>
          .pure (⟨made.operation, result⟩ :: answers)

def markedPool {Client : Type} (unicode : Unicode) (sessions : Client → ClientSession)
    (world : World) : Pool (Marked DoorCall Effect.Reply) World (fun _ : Client => List Answered) where
  world := world
  programs client := (sessions client).markedProgram unicode

/-- The calls that S3 answers requests of along the schedule, each with its client. -/
def servedCalls {Client : Type} [DecidableEq Client] (unicode : Unicode) (conventions : Conventions)
    (sessions : Client → ClientSession) (world : World) (schedule : List Client) :
    List (Client × DoorCall) :=
  (markedPool unicode sessions world).served (handle conventions) schedule

/-- The call names the object to put it, the guards let it through, and its user is granted the
object. Only where a path of the call has blanks around it, the user may be granted the trimmed
path instead. -/
structure DoorCall.MayStore (unicode : Unicode) (bucket key : Str) (made : DoorCall) : Prop where
  guarded : made.operation.WriteGuards made.config
  names : made.operation.Writes unicode bucket key
  granted : made.operation.Trimmed → UserGrants made.config made.user bucket key

structure DoorCall.MayErase (unicode : Unicode) (bucket key : Str) (made : DoorCall) : Prop where
  guarded : made.operation.DeleteGuards made.config
  names : made.operation.Deletes unicode bucket key
  granted : made.operation.Trimmed → UserGrants made.config made.user bucket key

end Model

section Operations

variable {unicode : Unicode} {config : Dict} {user : UserDict}

theorem guarded_read {operation : StorageOperation} {request : S3Request}
    (puts : ∀ bucket key, ¬ Puts bucket key request)
    (takes : ∀ bucket key, ¬ Takes bucket key request) :
    operation.Guarded unicode config request :=
  fun _ _ => ⟨fun claim => absurd claim (puts _ _), fun claim => absurd claim (takes _ _)⟩

theorem guarded_put {operation : StorageOperation} {request : S3Request} {bucket key : Str}
    (puts : ∀ name other, Puts name other request → bucket = name ∧ key = other)
    (takes : ∀ name other, ¬ Takes name other request) (guards : operation.WriteGuards config)
    (writes : operation.Writes unicode bucket key) : operation.Guarded unicode config request := by
  refine fun name other => ⟨fun claim => ?_, fun claim => absurd claim (takes _ _)⟩
  obtain ⟨rfl, rfl⟩ := puts _ _ claim
  exact ⟨guards, writes⟩

theorem writeAllowed {token : Mcp.Token} {tool : Mcp.WriteTool} {passed : Unit}
    (allowed : Mcp.assertWriteAllowed token tool config = .ok passed) :
    McpWrites config token ∧ (tool = .deleteFile → DeletionEnabled config) := by
  unfold Mcp.assertWriteAllowed at allowed
  split_ifs at allowed with server readOnly deletion
  · exact absurd allowed (by simp [Mcp.raiseMcp, raise])
  · exact absurd allowed (by simp [Mcp.raiseMcp, raise])
  · exact absurd allowed (by simp [Mcp.raiseMcp, raise])
  · refine ⟨⟨by simpa using server, by simpa using readOnly⟩, fun same => ?_⟩
    simpa [DeletionEnabled] using fun on => deletion ⟨same, on⟩

theorem moveAllowed {deleteSource : Bool} {passed : Unit}
    (allowed : Mcp.assertMoveAllowed config deleteSource = .ok passed) (move : deleteSource = true) :
    DeletionEnabled config := by
  unfold Mcp.assertMoveAllowed at allowed
  split_ifs at allowed with refused
  · exact absurd allowed (by simp [Mcp.raiseMcp, raise])
  · simpa [DeletionEnabled] using fun on => refused ⟨move, on⟩

/-- A delete takes only what it targets. -/
theorem makes_deleteObject {operation : StorageOperation} {role : Option Str} {bucket path : Str}
    (pages : Nat) (guards : operation.DeleteGuards config)
    (deletes : ∀ key, Targeted path key → operation.Deletes unicode bucket key) :
    Makes (operation.Guarded unicode config)
      (deleteObjectForRole unicode config pages role bucket path user) := by
  refine makes_gatedCall (makes_bind ?_ fun deleted => makes_pure _)
  have lists (listed : Str) : MayList (operation.Guarded unicode config) bucket listed :=
    fun _ _ _ => guarded_read (fun _ _ => id) fun _ _ => id
  unfold deletePathKeys
  split
  · next slash =>
      refine makes_deleteDirectory pages (lists _) fun keys under name key => ⟨False.elim, ?_⟩
      rintro ⟨rfl, member⟩
      refine ⟨guards, deletes key ?_⟩
      unfold Targeted
      rw [if_pos slash]
      exact under key member
  · next plain =>
      have whole : rstripSlash path = path := rstripSlash_eq_self (Bool.not_eq_true _ ▸ plain)
      refine makes_deleteSingle (lists _) fun name key => ⟨False.elim, ?_⟩
      rintro ⟨rfl, rfl⟩
      exact ⟨guards, deletes _ (whole.symm ▸ targeted_self path)⟩

/-- No operation makes a request that its guards do not let through. -/
theorem makes_guarded (operation : StorageOperation) :
    Makes (operation.Guarded unicode config) (operation.program unicode config user) := by
  have reads {request : S3Request} (puts : ∀ bucket key, ¬ Puts bucket key request)
      (takes : ∀ bucket key, ¬ Takes bucket key request) :
      operation.Guarded unicode config request := guarded_read puts takes
  have lists {bucket listed : Str} : MayList (operation.Guarded unicode config) bucket listed :=
    fun _ _ _ => reads (fun _ _ => id) fun _ _ => id
  cases operation with
  | mcpListFiles =>
      refine makes_check fun limits _ => makes_check fun _ _ => ?_
      split
      · exact makes_bind (makes_gatedListing fun _ => makes_recursivePages lists rfl rfl _ _)
          fun _ => makes_pure _
      · refine makes_bind (makes_gatedListing fun _ =>
          makes_bind (makes_paginate lists rfl rfl _) fun _ => makes_pure _) fun files => ?_
        split <;> exact makes_pure _
  | mcpBucketSummary =>
      refine makes_check fun _ _ => makes_check fun _ _ => makes_check fun _ _ => ?_
      exact makes_gatedListing fun _ => makes_bind (makes_scanChildren lists rfl rfl _ _) fun _ =>
        makes_bind (makes_scanPages lists rfl rfl _ _) fun _ => makes_pure _
  | mcpUploadFile =>
      refine makes_check fun _ allowed => ?_
      split
      · exact makes_ofResult _
      · exact makes_gatedCall (makes_call (guarded_put (fun _ _ => id) (fun _ _ => id)
          (writeAllowed allowed).1 ⟨rfl, rfl⟩))
  | mcpDeleteFile =>
      refine makes_check fun _ allowed => ?_
      obtain ⟨writable, enabled⟩ := writeAllowed allowed
      exact makes_deleteObject _ ⟨writable, enabled rfl⟩ fun key targeted => ⟨rfl, targeted⟩
  | mcpReadFile =>
      apply Mcp.readFile_of_parts (Makes _) makes_ofResult makes_bind
      · exact makes_gatedPart (reads (fun _ _ => id) fun _ _ => id)
      · exact makes_gatedPart (reads (fun _ _ => id) fun _ _ => id)
      · exact makes_gatedPart (reads (fun _ _ => id) fun _ _ => id)
  | mcpCopyObject pages token role sourceBucket sourcePath destBucket destPath deleteSource =>
      refine makes_check fun _ allowed => makes_check fun _ moves => ?_
      have writable := (writeAllowed allowed).1
      refine makes_bind ?_ fun _ => ?_
      · refine makes_check fun _ _ => makes_check fun _ _ => makes_check fun _ _ => ?_
        exact makes_retry (makes_mapError (makes_call (guarded_put (fun _ _ => id) (fun _ _ => id)
          ⟨writable, moveAllowed moves⟩ ⟨rfl, rfl⟩)))
      · unfold Mcp.deleteMoved
        split
        · next move =>
            exact makes_bind (makes_deleteObject _ ⟨writable, moveAllowed moves move⟩
              fun key targeted => ⟨move, rfl, targeted⟩) fun _ => makes_pure _
        · exact makes_pure _
  | mcpGetObjectMetadata => exact makes_gatedPart (reads (fun _ _ => id) fun _ _ => id)
  | mcpPresignedUrl =>
      exact makes_check fun _ _ => makes_gatedCall (makes_call (reads (fun _ _ => id) fun _ _ => id))
  | webListFiles pages role bucketName path query =>
      refine makes_check fun target _ => makes_check fun search _ => ?_
      split
      · exact makes_check fun chunk _ => makes_bind (makes_gatedListing fun _ =>
          makes_bind (makes_clientLoadPages lists _ _ _ _) fun _ => makes_pure _) fun _ => makes_pure _
      · split
        · refine makes_check fun listing _ => ?_
          split
          · exact makes_pure _
          · exact makes_bind (makes_gatedListing fun _ =>
              makes_bind (makes_paginate lists rfl rfl _) fun _ => makes_pure _) fun _ => makes_pure _
        · exact makes_bind (makes_gatedListing fun _ =>
            makes_bind (makes_firstPageDirectories lists) fun _ =>
              makes_bind (makes_call (lists _ rfl rfl)) fun _ => makes_pure _) fun _ => makes_pure _
  | webUploadFile =>
      exact makes_check fun target sanitized => makes_check fun _ _ => makes_check fun _ _ =>
        makes_bind (makes_gatedCall (makes_call
          (guarded_put (fun _ _ => id) (fun _ _ => id) trivial sanitized))) fun _ => makes_pure _
  | webDownloadFile =>
      exact makes_check fun target _ => makes_bind
        (makes_gatedCall (makes_mapError (makes_call (reads (fun _ _ => id) fun _ _ => id)))) fun _ => makes_pure _
  | webGetPresignedUrl role bucketName path op defaultTtl maxTtl expiresIn =>
      simp only [StorageOperation.program, Web.getPresignedUrl]
      split
      · exact makes_ofResult _
      · exact makes_check fun _ _ => makes_check fun _ _ => makes_check fun _ _ =>
          makes_gatedCall (makes_call (reads (fun _ _ => id) fun _ _ => id))
  | webDeleteFile pages role bucketName path disableDeletionEnv =>
      simp only [StorageOperation.program, Web.deleteFile]
      split
      · exact makes_ofResult _
      · next enabled =>
          refine makes_check fun target sanitized => ?_
          split
          · exact makes_ofResult _
          · refine makes_deleteObject _ ?_ fun key targeted => ⟨target, sanitized, rfl, targeted⟩
            show disableDeletionEnv = false ∧ DeletionEnabled config
            simpa [Web.deletionDisabled, DeletionEnabled] using enabled

end Operations

section Sessions

variable {unicode : Unicode} {conventions : Conventions} {bucket key : Str} {store erase : Prop}

/-- One call: what its guards refuse does not happen, and neither does anything to an object
that it does not name or its user is not granted. -/
theorem confined_call_leave {made : DoorCall} (stores : made.MayStore unicode bucket key → store)
    (erases : made.MayErase unicode bucket key → erase) :
    Program.Confined (handle conventions) Eq
      (fun world later => ChangesOnly bucket key store erase world.store later.store)
      (made.operation.program unicode made.config made.user) := by
  by_cases granted : made.operation.Trimmed → UserGrants made.config made.user bucket key
  · have step (request : S3Request) (held : Store)
        (guarded : made.operation.Guarded unicode made.config request) :
        ChangesOnly bucket key store erase held (held.answer conventions request).2 := by
      refine answer_changesOnly (fun puts => stores ?_) fun takes => erases ?_
      · obtain ⟨guards, names⟩ := (guarded bucket key).1 puts
        exact ⟨guards, names, granted⟩
      · obtain ⟨guards, names⟩ := (guarded bucket key).2 takes
        exact ⟨guards, names, granted⟩
    refine Program.confined_of_wp (handle_step changesOnly_refl step) ?_
      (makes_guarded made.operation)
    rintro effect world _ - rfl
    exact ⟨rfl, rfl⟩
  · obtain ⟨trimmed, refused⟩ := Classical.not_imp.mp granted
    have elsewhere : ∀ name other, UserGrants made.config made.user name other →
        ¬ (name = bucket ∧ other = key) := by
      rintro name other here ⟨rfl, rfl⟩
      exact refused here
    refine Program.confined_weaken (confined_operation made.operation elsewhere trimmed)
      fun world later kept => changesOnly_of_same ?_
    exact kept bucket key fun outside => outside ⟨rfl, rfl⟩

theorem confined_session_leave {session : ClientSession}
    (stores : session.Has (DoorCall.MayStore unicode bucket key) → store)
    (erases : session.Has (DoorCall.MayErase unicode bucket key) → erase) :
    Program.Confined (handle conventions) Eq
      (fun world later => ChangesOnly bucket key store erase world.store later.store)
      (session.program unicode) := by
  induction session with
  | done => exact trivial
  | call made next ih =>
      refine Program.confined_bind (confined_call_leave (fun may => stores (.inl may))
        fun may => erases (.inl may)) fun result => ?_
      exact Program.confined_bind (ih result (fun may => stores (.inr ⟨result, may⟩))
        fun may => erases (.inr ⟨result, may⟩)) fun answers => trivial

theorem unmark_markedProgram (session : ClientSession) :
    (session.markedProgram unicode).unmark = session.program unicode := by
  induction session with
  | done => rfl
  | call made next ih =>
      rw [ClientSession.markedProgram, Program.unmark_bind]
      apply congrArg₂ Program.bind (Program.unmark_mark made _)
      funext result
      rw [Program.unmark_bind, ih]
      rfl

theorem unmark_markedPool {Client : Type} (sessions : Client → ClientSession) (world : World) :
    (markedPool unicode sessions world).unmark = sessionPool unicode sessions world :=
  congrArg (Pool.mk world) (funext fun client => unmark_markedProgram (sessions client))

theorem has_of_has_eq {session : ClientSession} {made : DoorCall} {leave : DoorCall → Prop}
    (has : session.Has fun call => call = made) (may : leave made) : session.Has leave := by
  induction session with
  | done => exact has
  | call first next ih =>
      rcases has with rfl | ⟨result, later⟩
      · exact .inl may
      · exact .inr ⟨result, ih result later⟩

/-- Every request is made for a call of the session, and does what that call may do. -/
theorem heeds_session (bucket key : Str) {session : ClientSession} {called : DoorCall → Prop}
    (has : ∀ made, session.Has (fun call => call = made) → called made) :
    Program.Heeds (handle conventions) (fun made world later => called made ∧
      ChangesOnly bucket key (made.MayStore unicode bucket key) (made.MayErase unicode bucket key)
        world.store later.store) (session.markedProgram unicode) := by
  induction session with
  | done => exact trivial
  | call made next ih =>
      apply Program.heeds_bind
      · apply Program.heeds_mark
        apply Program.confined_weaken (confined_call_leave id id)
        exact fun world later changes => ⟨has made (.inl rfl), changes⟩
      · intro result
        apply Program.heeds_bind
        · exact ih result fun other later => has other (.inr ⟨result, later⟩)
        · exact fun answers => trivial

variable {Client : Type} [DecidableEq Client]

def sweep : StorageOperation :=
  .mcpDeleteFile 1 ⟨false, 0⟩ (some (lit "stand")) (lit "data") (lit "stand-a/")

/-- One client uploads below the folder, and another deletes the folder. -/
def standPair (deletes : Bool) : ClientSession :=
  if deletes then .call ⟨standConfig, standUser, sweep⟩ fun _ => .done else standSession

/-- The file `y` is in the folder. -/
def standFilled : World :=
  ⟨(standStore [1]).put (lit "data") (lit "stand-a/y") [2] none, fun _ => none⟩

end Sessions

end S3Manager.Doors
