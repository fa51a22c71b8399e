import S3Manager.Config.Migrate
import S3Manager.Mcp.Move
import S3Manager.Web.Routes

/-! The switch that disables deletion, at the three doors through which objects
are deleted: the web route, the tool, and the move. -/

set_option autoImplicit false

namespace S3Manager.Doors

open Python Access Storage Config Library

/-- One delete, as it can be asked for at each of the doors. -/
structure DeleteRequest where
  role : Option Str
  bucket : Str
  path : Str
  user : UserDict
  token : Mcp.Token
  destBucket : Str
  destPath : Str

section Doors

variable (environ : Environ) (config : Dict) (pages : Nat) (request : DeleteRequest)

/-- `os.getenv("DISABLE_DELETION", "").lower() == "true"` -/
def disableDeletionEnv : Bool :=
  environ.isTrue "DISABLE_DELETION" ""

def disableDeletionConfig : Bool :=
  (dictGetD config "disable_deletion" (.bool false)).truthy

namespace DeleteRequest

def webDelete : S3Program DeleteResult :=
  Web.deleteFile environ.unicode config pages request.role request.bucket request.path
    request.user (disableDeletionEnv environ)

def mcpDelete : S3Program DeleteResult :=
  Mcp.deleteFile environ.unicode config pages request.token request.role request.bucket
    request.path request.user

def mcpMove : S3Program Unit :=
  Mcp.copyObject environ.unicode config pages request.token request.role request.bucket
    request.path request.destBucket request.destPath request.user true

/-- Everything but the switch lets the request through. -/
structure Permitted : Prop where
  writable : Mcp.assertWriteAllowed request.token .uploadFile config = .ok ()
  web : ∃ target validated,
    Web.sanitizeTarget environ.unicode request.bucket request.path = .ok target ∧
      target.2 ≠ [] ∧
      validateStorageAccess config request.role target.1 request.user
        (Web.deletePath request.path target.2) = .ok validated
  source : ∃ validated,
    validateStorageAccess config request.role request.bucket request.user request.path =
      .ok validated
  dest : ∃ validated,
    validateStorageAccess config request.role request.destBucket request.user
      request.destPath = .ok validated

end DeleteRequest

def webRefusal : PyError :=
  .new (.httpException 403) (lit "File deletion is disabled by administrator")

def mcpRefusal : PyError :=
  .new (.mcpError (lit "DELETION_DISABLED")) (lit "Deletion is disabled in server config")

def moveRefusal : PyError :=
  .new (.mcpError (lit "DELETION_DISABLED"))
    (lit "Deletion is disabled in server config (delete_source requires it)")

/-- The door answers with the refusal, whatever S3 would do. -/
def Refuses {α : Type} (program : S3Program α) (refusal : PyError) : Prop :=
  ∀ conventions world, (program.run conventions world).1 = .error refusal

def KeepsStore {α : Type} (program : S3Program α) : Prop :=
  ∀ conventions world, (program.run conventions world).2.store = world.store

/-- One switch for every door. -/
structure OneSwitch : Prop where
  web_delete : Refuses (request.webDelete environ config pages) webRefusal ↔
    Refuses (request.mcpDelete environ config pages) mcpRefusal
  web_move : Refuses (request.webDelete environ config pages) webRefusal ↔
    Refuses (request.mcpMove environ config pages) moveRefusal
  web_keeps : Refuses (request.webDelete environ config pages) webRefusal →
    KeepsStore (request.webDelete environ config pages)
  delete_keeps : Refuses (request.mcpDelete environ config pages) mcpRefusal →
    KeepsStore (request.mcpDelete environ config pages)
  move_keeps : Refuses (request.mcpMove environ config pages) moveRefusal →
    KeepsStore (request.mcpMove environ config pages)

end Doors

section Struck

variable {α β : Type} {conventions : Conventions} {unicode : Unicode}

/-- An error that no door uses to refuse, and that is not retried. -/
def otherFault : PyError :=
  .new .keyError []

/-- A world in which every call fails. -/
def struck : World where
  store := ⟨[], fun _ => .empty, []⟩
  faults := fun _ => some otherFault

theorem otherFault_not_expired : isExpiredCredentialsError unicode otherFault = false := by
  have empty : unicode.lower [] = [] := unicode.lower_ascii [] (by simp)
  have plain : isExpiredError unicode .keyError [] =
      expiredPhrases.any (containsSub (unicode.lower [])) := rfl
  change isExpiredError unicode .keyError [] = false
  rw [plain, empty]
  rfl

theorem retry_struck (roleName : Option Str) (callback : S3Program α) :
    ((executeWithS3Retry unicode roleName callback).run conventions struck).1 =
      .error otherFault := by
  unfold executeWithS3Retry S3Program.run
  rw [Program.run_perform, client_fails rfl]
  simp only [otherFault_not_expired, Bool.false_eq_true, if_false]
  rfl

theorem bind_struck {program : S3Program α} (next : α → S3Program β)
    (fails : (program.run conventions struck).1 = .error otherFault) :
    ((program >>= next).run conventions struck).1 = .error otherFault := by
  rw [run_bind]
  cases ran : program.run conventions struck with
  | mk result after =>
      rw [ran] at fails
      obtain rfl := fails
      rfl

theorem not_refuses {program : S3Program α} {refusal : PyError}
    (fails : (program.run Conventions.plain struck).1 = .error otherFault)
    (different : refusal.kind ≠ .keyError) : ¬ Refuses program refusal := by
  intro refuses
  have same := fails.symm.trans (refuses Conventions.plain struck)
  exact different (congrArg PyError.kind (Except.error.inj same)).symm

theorem refuses_ofResult (refusal : PyError) :
    Refuses (S3Program.ofResult (.error refusal) : S3Program α) refusal :=
  fun _ _ => rfl

theorem keeps_ofResult (result : Result α) : KeepsStore (S3Program.ofResult result) :=
  fun _ _ => rfl

end Struck

section Agreement

variable {environ : Environ} {config : Dict} {pages : Nat} {request : DeleteRequest}

theorem assertWriteAllowed_delete
    (writable : Mcp.assertWriteAllowed request.token .uploadFile config = .ok ()) :
    Mcp.assertWriteAllowed request.token .deleteFile config =
      if disableDeletionConfig config then .error mcpRefusal else .ok () := by
  unfold Mcp.assertWriteAllowed at writable ⊢
  split at writable
  · cases writable
  · next enabled =>
      split at writable
      · cases writable
      · next write =>
          rw [if_neg enabled, if_neg write]
          simp only [true_and, disableDeletionConfig]
          rfl

theorem assertWriteAllowed_copy
    (writable : Mcp.assertWriteAllowed request.token .uploadFile config = .ok ()) :
    Mcp.assertWriteAllowed request.token .copyObject config = .ok () := by
  unfold Mcp.assertWriteAllowed at writable ⊢
  simpa using writable

theorem webDelete_cases (permitted : request.Permitted environ config) :
    (disableDeletionEnv environ || disableDeletionConfig config) = true ∧
        request.webDelete environ config pages = S3Program.ofResult (.error webRefusal) ∨
      (disableDeletionEnv environ || disableDeletionConfig config) = false ∧
        ((request.webDelete environ config pages).run Conventions.plain struck).1 =
          .error otherFault := by
  unfold DeleteRequest.webDelete Web.deleteFile
  cases disabled : (disableDeletionEnv environ || disableDeletionConfig config) with
  | true => exact .inl ⟨rfl, if_pos disabled⟩
  | false =>
      refine .inr ⟨rfl, ?_⟩
      have enabled : ¬ Web.deletionDisabled config (disableDeletionEnv environ) = true := by
        rw [Bool.not_eq_true]
        exact disabled
      obtain ⟨target, validated, sanitized, nonempty, accepted⟩ := permitted.web
      rw [if_neg enabled, sanitized]
      change ((if target.2.isEmpty then _ else _ : S3Program DeleteResult).run _ struck).1 = _
      rw [if_neg (by simpa using nonempty), deleteObjectForRole, gatedCall, accepted]
      exact retry_struck validated _

theorem mcpDelete_cases (permitted : request.Permitted environ config) :
    disableDeletionConfig config = true ∧
        request.mcpDelete environ config pages = S3Program.ofResult (.error mcpRefusal) ∨
      disableDeletionConfig config = false ∧
        ((request.mcpDelete environ config pages).run Conventions.plain struck).1 =
          .error otherFault := by
  unfold DeleteRequest.mcpDelete Mcp.deleteFile
  rw [assertWriteAllowed_delete permitted.writable]
  cases disabled : disableDeletionConfig config with
  | true => exact .inl ⟨rfl, rfl⟩
  | false =>
      refine .inr ⟨rfl, ?_⟩
      obtain ⟨validated, accepted⟩ := permitted.source
      rw [deleteObjectForRole, gatedCall, accepted]
      exact retry_struck validated _

theorem mcpMove_cases (permitted : request.Permitted environ config) :
    disableDeletionConfig config = true ∧
        request.mcpMove environ config pages = S3Program.ofResult (.error moveRefusal) ∨
      disableDeletionConfig config = false ∧
        ((request.mcpMove environ config pages).run Conventions.plain struck).1 =
          .error otherFault := by
  unfold DeleteRequest.mcpMove Mcp.copyObject
  rw [assertWriteAllowed_copy permitted.writable]
  cases disabled : disableDeletionConfig config with
  | true =>
      refine .inl ⟨rfl, ?_⟩
      have refused : Mcp.assertMoveAllowed config true = .error moveRefusal :=
        if_pos ⟨rfl, disabled⟩
      rw [refused]
      rfl
  | false =>
      refine .inr ⟨rfl, ?_⟩
      have allowed : Mcp.assertMoveAllowed config true = .ok () := by
        refine if_neg ?_
        intro both
        exact absurd (disabled.symm.trans both.2) (by simp)
      obtain ⟨validated, accepted⟩ := permitted.source
      obtain ⟨other, acceptedDest⟩ := permitted.dest
      rw [allowed, ofResult_ok_bind, ofResult_ok_bind]
      refine bind_struck _ ?_
      rw [copyObjectForRole, accepted, acceptedDest, (validateStorageAccess_ok_iff.mp accepted).1]
      exact retry_struck _ _

theorem refuses_iff {α : Type} {program : S3Program α} {refusal : PyError} {switch : Bool}
    (different : refusal.kind ≠ .keyError)
    (either : switch = true ∧ program = S3Program.ofResult (.error refusal) ∨
      switch = false ∧ (program.run Conventions.plain struck).1 = .error otherFault) :
    (Refuses program refusal ↔ switch = true) ∧ (Refuses program refusal → KeepsStore program) := by
  obtain ⟨rfl, rfl⟩ | ⟨rfl, fails⟩ := either
  · exact ⟨by simp [refuses_ofResult], fun _ => keeps_ofResult _⟩
  · have passes := not_refuses fails different
    exact ⟨by simp [passes], fun refuses => absurd refuses passes⟩

theorem switch_of_one (permitted : request.Permitted environ config)
    (one : OneSwitch environ config pages request) :
    disableDeletionEnv environ = false ∨ disableDeletionConfig config = true := by
  have web := (refuses_iff (by simp [webRefusal, PyError.kind, PyError.new])
    (@webDelete_cases environ config pages request permitted)).1
  have delete := (refuses_iff (by simp [mcpRefusal, PyError.kind, PyError.new])
    (@mcpDelete_cases environ config pages request permitted)).1
  have same := web.symm.trans (one.web_delete.trans delete)
  cases env : disableDeletionEnv environ with
  | false => exact .inl rfl
  | true =>
      rw [env] at same
      exact .inr (same.mp rfl)

theorem one_of_switch (permitted : request.Permitted environ config)
    (agrees : disableDeletionEnv environ = false ∨ disableDeletionConfig config = true) :
    OneSwitch environ config pages request := by
  obtain ⟨web, webKeeps⟩ := refuses_iff (by simp [webRefusal, PyError.kind, PyError.new])
    (@webDelete_cases environ config pages request permitted)
  obtain ⟨delete, deleteKeeps⟩ := refuses_iff (by simp [mcpRefusal, PyError.kind, PyError.new])
    (@mcpDelete_cases environ config pages request permitted)
  obtain ⟨move, moveKeeps⟩ := refuses_iff (by simp [moveRefusal, PyError.kind, PyError.new])
    (@mcpMove_cases environ config pages request permitted)
  have same : (disableDeletionEnv environ || disableDeletionConfig config) = true ↔
      disableDeletionConfig config = true := by
    obtain off | on := agrees
    · simp [off]
    · simp [on]
  exact ⟨(web.trans same).trans delete.symm, (web.trans same).trans move.symm, webKeeps,
    deleteKeeps, moveKeeps⟩

/-- The doors agree unless deletion is disabled in the environment alone: the tools
read the config only. -/
theorem oneSwitch_iff (permitted : request.Permitted environ config) :
    OneSwitch environ config pages request ↔
      disableDeletionEnv environ = false ∨ disableDeletionConfig config = true :=
  ⟨switch_of_one permitted, one_of_switch permitted⟩

/-- A role without restrictions, and a token that may write. -/
def deleteAny (path : Str) : DeleteRequest where
  role := some (lit "team")
  bucket := lit "data"
  path := path
  user := Mcp.Move.teamUser
  token := Mcp.Move.writeToken
  destBucket := lit "data"
  destPath := lit "b.txt"

/-- An environment with one variable. -/
def environWith (name value : String) : Environ where
  unicode := Unicode.ascii
  getenv := fun asked => if asked = lit name then some (lit value) else none

theorem deleteAny_permitted (name value : String) :
    (deleteAny (lit "a.txt")).Permitted (environWith name value) Mcp.Move.openConfig :=
  ⟨rfl, ⟨(lit "data", lit "a.txt"), some (lit "team"), rfl, by decide, rfl⟩, ⟨_, rfl⟩, ⟨_, rfl⟩⟩

theorem oneSwitch_default :
    OneSwitch (environWith "PORT" "8080") Mcp.Move.openConfig 5 (deleteAny (lit "a.txt")) ↔
      disableDeletionEnv (environWith "PORT" "8080") = false ∨
        disableDeletionConfig Mcp.Move.openConfig = true :=
  oneSwitch_iff (deleteAny_permitted "PORT" "8080")

/-- With `DISABLE_DELETION=True` the web route refuses and the tools delete. -/
theorem env_switch_forgotten :
    ¬ ∀ (environ : Environ) (config : Dict) (pages : Nat) (request : DeleteRequest),
      request.Permitted environ config → OneSwitch environ config pages request := by
  intro claimed
  have permitted := deleteAny_permitted "DISABLE_DELETION" "True"
  have agrees := switch_of_one permitted (claimed _ _ 5 _ permitted)
  revert agrees
  decide

end Agreement

end S3Manager.Doors
