import S3Manager.Clients.Probe
import S3Manager.Mcp.Ladder
import S3Manager.Storage.Failures
import S3Manager.Storage.StoreRuns

/-! What becomes of the class of an S3 error on its way to the answer of a tool and
to the metric of the operation. -/

set_option autoImplicit false

namespace S3Manager.Mcp

open Python Access Storage Errors

section Operations

variable {α : Type} (env : ToolEnv)

theorem carries_outcome {program : S3Program α} (holds : Carries True program) :
    Carries True (outcome program) :=
  carries_bind holds fun _ => carries_pure _

theorem carries_listFiles (bucket path : Str) (recursive : Bool) (maxKeys : Option Int)
    (continuationToken : Option Str) :
    Carries True (listFiles env.unicode env.config env.pages env.role bucket path env.user recursive
      maxKeys continuationToken) := by
  refine carries_bind (carries_ofResult _) fun limits => ?_
  refine carries_bind (carries_ofResult _) fun _ => ?_
  split
  · exact carries_bind (carries_listObjectsRecursive _ _ _ _ _ _ _ _ _ _) fun _ => carries_pure _
  · refine carries_bind (carries_listObjects _ _ _ _ _ _ _) fun files => ?_
    split
    · exact carries_pure _
    · exact carries_pure _

theorem carries_readFile (bucket path : Str) (forceText : Bool) :
    Carries True (readFile env.unicode env.config env.rules env.token env.role bucket path env.user
      forceText) :=
  readFile_of_parts (Carries True) carries_ofResult carries_bind
    (carries_gatedCall _ _ _ _ _ _ carries_object) (carries_gatedCall _ _ _ _ _ _ carries_object)
    (carries_gatedCall _ _ _ _ _ _ carries_object)

theorem carries_operation (call : ToolCall) : Carries True (call.operation env) := by
  cases call with
  | listBuckets => exact carries_outcome (carries_listBuckets _ _ _ _)
  | listFiles bucket path recursive maxKeys continuationToken =>
      exact carries_outcome (carries_listFiles env bucket path recursive maxKeys continuationToken)
  | bucketSummary bucket path =>
      refine carries_outcome ?_
      refine carries_bind (carries_ofResult _) fun maxKeys => ?_
      refine carries_bind (carries_ofResult _) fun prefixScanPages => ?_
      refine carries_bind (carries_ofResult _) fun _ => ?_
      exact carries_summarizeBucket _ _ _ _ _ _ _ _ _
  | uploadFile bucket path maxFileSize estimatedSize content =>
      refine carries_bind (carries_ofResult _) fun _ => ?_
      split
      · exact carries_ofResult _
      · exact carries_gatedCall _ _ _ _ _ _ (carries_call _)
  | deleteFile bucket path =>
      refine carries_outcome (carries_bind (carries_ofResult _) fun _ => ?_)
      exact carries_deleteObject _ _ _ _ _ _ _
  | readFile bucket path forceText =>
      exact carries_outcome (carries_readFile env bucket path forceText)
  | copyObject sourceBucket sourcePath destBucket destPath deleteSource =>
      refine carries_bind (carries_ofResult _) fun _ => ?_
      refine carries_bind (carries_ofResult _) fun _ => ?_
      refine carries_bind (carries_copyObject _ _ _ _ _ _ _ _) fun _ => ?_
      unfold deleteMoved
      split
      · exact carries_bind (carries_deleteObject _ _ _ _ _ _ _) fun _ => carries_pure _
      · exact carries_pure _
  | getObjectMetadata bucket path =>
      exact carries_outcome (carries_gatedCall _ _ _ _ _ _ carries_object)
  | presignedUrl bucket path expiresIn =>
      refine carries_outcome (carries_bind (carries_ofResult _) fun maxTtl => ?_)
      exact carries_gatedCall _ _ _ _ _ _ (carries_call _)

end Operations

section Answers

variable {α : Type} {env : ToolEnv} {conventions : Conventions} {world after : World}
  {exc : PyError}

/-- No inner handler catches the exception. -/
def Uncaught (exc : PyError) : Prop :=
  exc.kind ≠ .permissionError ∧ exc.kind ≠ .roleNotFoundError ∧ exc.kind ≠ .fileNotFoundError

theorem raiseStoragePermission_uncaught (uncaught : Uncaught exc) (unicode : Unicode) :
    raiseStoragePermission unicode exc = exc := by
  unfold raiseStoragePermission
  split
  · next kind => exact absurd kind uncaught.1
  · next kind => exact absurd kind uncaught.2.1
  · rfl

theorem raiseFileNotFound_uncaught (uncaught : Uncaught exc) (message : PyError → Str) :
    raiseFileNotFound message exc = exc := by
  unfold raiseFileNotFound
  split
  · next kind => exact absurd kind uncaught.2.2
  · rfl

theorem mapError_raises {translate : PyError → PyError} {program : S3Program α}
    (raised : program.run conventions world = (.error exc, after)) :
    (program.mapError translate).run conventions world = (.error (translate exc), after) := by
  rw [run_mapError, raised]

theorem outcome_raises {program : S3Program α}
    (raised : program.run conventions world = (.error exc, after)) :
    (outcome program).run conventions world = (.error exc, after) := by
  unfold outcome
  rw [run_bind, raised]

theorem outcome_raised {program : S3Program α}
    (raised : (outcome program).run conventions world = (.error exc, after)) :
    program.run conventions world = (.error exc, after) := by
  unfold outcome at raised
  rw [run_bind] at raised
  cases ran : program.run conventions world with
  | mk result left =>
      rw [ran] at raised
      cases result with
      | error other =>
          obtain ⟨same, rfl⟩ := Prod.mk.inj raised
          obtain rfl := Except.error.inj same
          rfl
      | ok value => cases (Prod.mk.inj raised).1

theorem answering_raises {program : S3Program Unit} (uncaught : Uncaught exc)
    (raised : program.run conventions world = (.error exc, after)) :
    (env.answering program).run conventions world = (.error (ladder exc), after) := by
  have inner := @mapError_raises _ _ _ _ _ (raiseStoragePermission env.unicode) _ raised
  rw [raiseStoragePermission_uncaught uncaught] at inner
  exact mapError_raises inner

theorem answeringMissing_raises {program : S3Program Unit} {message : PyError → Str}
    (uncaught : Uncaught exc)
    (raised : program.run conventions world = (.error exc, after)) :
    (env.answeringMissing message program).run conventions world = (.error (ladder exc), after) := by
  have inner := @mapError_raises _ _ _ _ _ (raiseFileNotFound message) _ raised
  rw [raiseFileNotFound_uncaught uncaught] at inner
  exact answering_raises uncaught inner

theorem summary_raises {bucket path : Str} (uncaught : Uncaught exc)
    (raised : (bucketSummary env.unicode env.config env.pages env.role bucket path env.user).run
      conventions world = (.error exc, after)) :
    (bucketSummaryAnswer env.unicode env.config env.formats env.pages env.role bucket path
      env.user).run conventions world = (.error (ladder exc), after) := by
  have inner := @mapError_raises _ _ _ _ _ (raiseStoragePermission env.unicode) _ raised
  rw [raiseStoragePermission_uncaught uncaught] at inner
  refine mapError_raises ?_
  rw [run_bind, inner]

theorem read_raises {bucket path : Str} {forceText : Bool} (uncaught : Uncaught exc)
    (raised : (readFile env.unicode env.config env.rules env.token env.role bucket path env.user
      forceText).run conventions world = (.error exc, after)) :
    (readFileAnswer env.unicode env.config env.rules env.token env.role bucket path env.user
      forceText).run conventions world = (.error (ladder exc), after) := by
  refine mapError_raises ?_
  rw [readFile_eq] at raised
  cases capped : effectiveMax env.config env.token with
  | error other =>
      rw [capped] at raised
      exact raised
  | ok limit =>
  rw [capped, ofResult_ok_bind, run_bind] at raised
  rw [ofResult_ok_bind, run_bind]
  cases head : (headObjectForRole env.unicode env.config env.role bucket path env.user).run
      conventions world with
  | mk result left =>
      rw [head] at raised
      cases result with
      | error other =>
          obtain ⟨same, rfl⟩ := Prod.mk.inj raised
          obtain rfl := Except.error.inj same
          rw [mapError_raises head, raiseFileNotFound_uncaught uncaught,
            raiseStoragePermission_uncaught uncaught]
      | ok size =>
          rw [run_mapError, head]
          exact raised

theorem answer_raises {call : ToolCall} (uncaught : Uncaught exc)
    (raised : (call.operation env).run conventions world = (.error exc, after)) :
    (call.answer env).run conventions world = (.error (ladder exc), after) := by
  cases call with
  | bucketSummary bucket path =>
      exact outcome_raises (summary_raises uncaught (outcome_raised raised))
  | readFile bucket path forceText =>
      exact outcome_raises (read_raises uncaught (outcome_raised raised))
  | deleteFile | getObjectMetadata | copyObject => exact answeringMissing_raises uncaught raised
  | listBuckets | listFiles | uploadFile | presignedUrl => exact answering_raises uncaught raised

end Answers

section Classes

variable {env : ToolEnv} {conventions : Conventions} {world : World} {call : ToolCall}
  {error : PyError}

/-- The `error_code` that `execute_with_s3_retry` counts for the outcome it passes on. -/
def countedLabel (result : Result Unit) : Str :=
  match result with
  | .ok _ => lit "none"
  | .error exc => errorCodeLabel exc

/-- The failure goes back to this error of S3: raised by a call of the operation, or
found by the probe of its client. -/
inductive RaisedBy (error : PyError) : Option Failure → Prop where
  | call : RaisedBy error (some (.call error))
  | probe {shown : Json → Str} {message : PyError → Str} {config role : Dict}
      {listBuckets : Result Unit} {headBucket : Json → Result Unit} {exc : PyError} :
      Clients.probeClient shown message config role listBuckets headBucket = .error exc →
      Clients.TypedFrom error exc → RaisedBy error (some (.client exc))

/-- The client of the operation could not be built. -/
def ClientFailed (failure : Option Failure) : Prop :=
  ∃ exc, failure = some (.client exc)

/-- The answer of the tool and the metric of the operation keep the class of the error. -/
structure ClassKept (env : ToolEnv) (conventions : Conventions) (call : ToolCall) (world : World)
    (error : PyError) : Prop where
  answered : ∃ exc code, ((call.answer env).run conventions world).1 = .error exc ∧
    exc.kind = .mcpError code ∧
      (code = ladderCode (classifyBotoError error).errorClass ∨
        MissingObject error ∧ code = lit "FILE_NOT_FOUND")
  counted : countedLabel ((call.operation env).run conventions world).1 =
    metricLabel (classifyBotoError error).errorClass

theorem ladderCode_external (errorClass : S3ErrorClass) :
    ladderCode errorClass ≠ lit "INTERNAL_ERROR" := by
  cases errorClass <;> decide

theorem ladder_internal {exc : PyError} {code : Str}
    (other : (∃ code status, exc.kind = .clientError code status) ∨ exc.kind = .runtimeError)
    (answered : (ladder exc).kind = .mcpError code) : code = lit "INTERNAL_ERROR" := by
  unfold ladder at answered
  obtain ⟨errorCode, status, kind⟩ | kind := other
  · rw [kind] at answered
    exact (ErrorKind.mcpError.inj answered).symm
  · rw [kind] at answered
    exact (ErrorKind.mcpError.inj answered).symm

theorem internal_not_kept {exc : PyError} {after : World}
    (kept : ClassKept env conventions call world error)
    (raised : (call.operation env).run conventions world = (.error exc, after))
    (other : (∃ code status, exc.kind = .clientError code status) ∨ exc.kind = .runtimeError) :
    False := by
  have uncaught : Uncaught exc := by
    obtain ⟨code, status, kind⟩ | kind := other
    · simp [Uncaught, kind]
    · simp [Uncaught, kind]
  obtain ⟨answer, code, ran, kind, right⟩ := kept.answered
  rw [answer_raises uncaught raised] at ran
  obtain rfl := Except.error.inj ran
  have internal := ladder_internal other kind
  obtain same | ⟨_, same⟩ := right
  · exact ladderCode_external _ (same.symm.trans internal)
  · exact absurd (same.symm.trans internal) (by decide)

theorem call_not_kept {code : Str} {status : Nat} (client : error.kind = .clientError code status)
    (last : lastFailure conventions (call.operation env) world = some (.call error)) :
    ¬ ClassKept env conventions call world error := by
  intro kept
  have ended := Library.Program.ends_run (handle conventions) world (carries_operation env call)
  change Stems True (lastFailure conventions (call.operation env) world)
    ((call.operation env).run conventions world).1 at ended
  rw [last] at ended
  obtain ⟨exc, result, stems⟩ := ended
  have raised : (call.operation env).run conventions world =
      (.error exc, ((call.operation env).run conventions world).2) := Prod.ext result rfl
  obtain rfl | runtime | ⟨missing, notThere⟩ := stems
  · exact internal_not_kept kept raised (.inl ⟨code, status, client⟩)
  · exact internal_not_kept kept raised (.inr runtime)
  · have counted := kept.counted
    obtain ⟨errorCode, errorStatus, kind, absent⟩ := notThere
    rw [result, countedLabel, label_missing missing, classify_missing kind absent] at counted
    exact absurd counted (by decide)

theorem probe_kept {exc : PyError} (typed : Clients.TypedFrom error exc)
    (last : lastFailure conventions (call.operation env) world = some (.client exc)) :
    ClassKept env conventions call world error := by
  have ended := Library.Program.ends_run (handle conventions) world (carries_operation env call)
  change Stems True (lastFailure conventions (call.operation env) world)
    ((call.operation env).run conventions world).1 at ended
  rw [last] at ended
  have result : ((call.operation env).run conventions world).1 = .error exc := ended.2
  have uncaught : Uncaught exc := by simp [Uncaught, show exc.kind = _ from typed]
  have raised : (call.operation env).run conventions world =
      (.error exc, ((call.operation env).run conventions world).2) := Prod.ext result rfl
  refine ⟨⟨ladder exc, ladderCode (classifyBotoError error).errorClass, ?_, ?_, .inl rfl⟩, ?_⟩
  · rw [answer_raises uncaught raised]
  · unfold ladder
    rw [show exc.kind = _ from typed]
    rfl
  · rw [result, countedLabel, errorCodeLabel, classify_typed typed]

/-- An error of S3 keeps its class exactly when the probe of the client found it. -/
theorem classKept_iff (env : ToolEnv) (conventions : Conventions) (call : ToolCall) (world : World)
    (error : PyError) (code : Str) (status : Nat)
    (client : error.kind = .clientError code status)
    (raised : RaisedBy error (lastFailure conventions (call.operation env) world)) :
    ClassKept env conventions call world error ↔
      ClientFailed (lastFailure conventions (call.operation env) world) := by
  generalize last : lastFailure conventions (call.operation env) world = failure at raised
  cases raised with
  | call =>
      constructor
      · intro kept
        exact absurd kept (call_not_kept client last)
      · intro failed
        obtain ⟨exc, same⟩ := failed
        cases same
  | probe probed typed =>
      constructor
      · intro _
        exact ⟨_, rfl⟩
      · intro _
        exact probe_kept typed last

/-- An administrator of a server without roles. -/
def adminEnv : ToolEnv where
  unicode := Unicode.ascii
  config := []
  formats := ⟨fun left right => decide (left < right)⟩
  rules := ⟨fun _ => .extension, fun _ => true, fun _ => some [], fun _ => []⟩
  pages := 0
  token := ⟨false, 1000⟩
  role := none
  user := ⟨true, [], none⟩

def noSuchBucket : PyError := .new (.clientError (lit "NoSuchBucket") 404) []

/-- S3 answers every call but the one after the client is there. -/
def bucketGone : World where
  store := ⟨[], fun _ => Library.OrderedMap.empty, []⟩
  faults count := if count = 1 then some noSuchBucket else none

def listGone : ToolCall := .listFiles (lit "data") [] false none none

theorem classKept_listGone :
    ClassKept adminEnv Conventions.plain listGone bucketGone noSuchBucket ↔
      ClientFailed (lastFailure Conventions.plain (listGone.operation adminEnv) bucketGone) :=
  classKept_iff _ _ _ _ _ (lit "NoSuchBucket") 404 rfl RaisedBy.call

/-- A missing bucket is answered as an internal error. -/
theorem missing_bucket_loses_class :
    ¬ ∀ (env : ToolEnv) (conventions : Conventions) (call : ToolCall) (world : World)
        (error : PyError) (code : Str) (status : Nat),
        error.kind = .clientError code status →
        RaisedBy error (lastFailure conventions (call.operation env) world) →
        ClassKept env conventions call world error := by
  intro always
  have kept := always adminEnv Conventions.plain listGone bucketGone noSuchBucket
    (lit "NoSuchBucket") 404 rfl RaisedBy.call
  exact call_not_kept rfl rfl kept

end Classes

end S3Manager.Mcp
