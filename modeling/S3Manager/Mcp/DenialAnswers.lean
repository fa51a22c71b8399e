import S3Manager.Mcp.DenialCodes
import S3Manager.Mcp.FailureClass

/-! Denials on their way to the answer of a tool. -/

set_option autoImplicit false

namespace S3Manager.Mcp

open Python Access Clients Storage Library

section Environments

/-- The exceptions that `except (PermissionError, RoleNotFoundError)` catches. -/
def Caught (exc : PyError) : Prop :=
  exc.kind = .permissionError ∨ exc.kind = .roleNotFoundError

/-- The result is no exception that the handler of denials catches. -/
def Uninvolved {α : Type} (result : Result α) : Prop :=
  ∀ exc, result = .error exc → ¬ Caught exc

/-- S3 raises neither exception, and `get_s3_client` raises one where the lookup of the role
does. -/
def Configured (config : Dict) : (effect : Effect) → effect.Reply → Prop
  | .s3 _, reply => Uninvolved reply
  | .getClient name, reply =>
      ∀ exc, Caught exc → (reply = .error exc ↔ resolveClientRole config name = .error exc)
  | .invalidateClient _, _ => True

/-- However S3 answers, the program raises no exception that the handler of denials catches. -/
def Passes {α : Type} (config : Dict) (program : S3Program α) : Prop :=
  Program.wp (fun _ => True) (Configured config) Uninvolved program

end Environments

section Programs

variable {α β : Type} {config : Dict}

theorem uninvolved_ok (value : α) : Uninvolved (.ok value : Result α) :=
  fun _ fails => by cases fails

theorem uninvolved_error {exc : PyError} (other : ¬ Caught exc) :
    Uninvolved (.error exc : Result α) := fun _ fails => by
  obtain rfl := Except.error.inj fails
  exact other

theorem passes_bind {program : S3Program α} {next : α → S3Program β}
    (here : Passes config program) (later : ∀ value, Passes config (next value)) :
    Passes config (program >>= next) := by
  refine (Program.wp_bind _ _ _ program _).mpr (Program.wp_mono here fun result uninvolved => ?_)
  cases result with
  | error exc => exact uninvolved_error (uninvolved exc rfl)
  | ok value => exact later value

theorem passes_call (request : S3Request) : Passes config (S3Program.call request) :=
  ⟨trivial, fun _ uninvolved => uninvolved⟩

theorem passes_mapError {translate : PyError → PyError} {program : S3Program α}
    (sound : ∀ exc, ¬ Caught exc → ¬ Caught (translate exc)) (passes : Passes config program) :
    Passes config (program.mapError translate) := by
  refine (Program.wp_bind _ _ _ program _).mpr (Program.wp_mono passes fun result uninvolved => ?_)
  cases result with
  | error exc => exact uninvolved_error (sound exc (uninvolved exc rfl))
  | ok value => exact uninvolved_ok value

theorem missingAs_uncaught (message : Str) (exc : PyError) (other : ¬ Caught exc) :
    ¬ Caught (missingAs message exc) := by
  unfold missingAs
  split
  · split
    · simp [Caught, PyError.kind]
    · exact other
  · exact other

variable {unicode : Unicode} {roleName : Option Str} {callback : S3Program α}

theorem passes_secondAttempt (resolves : Uninvolved (resolveClientRole config roleName))
    (passes : Passes config callback) :
    Passes config (secondAttempt unicode roleName callback) := by
  refine ⟨trivial, fun reply configured => ?_⟩
  cases reply with
  | error exc =>
      exact uninvolved_error fun caught => resolves exc ((configured exc caught).mp rfl) caught
  | ok =>
      refine (Program.wp_bind _ _ _ callback _).mpr
        (Program.wp_mono passes fun result uninvolved => ?_)
      cases result with
      | ok value => exact uninvolved_ok value
      | error exc =>
          dsimp only
          split
          · exact uninvolved_error (uninvolved exc rfl)
          · split
            · exact uninvolved_error (by simp [Caught, PyError.kind])
            · exact uninvolved_error (uninvolved exc rfl)

theorem passes_retry (resolves : Uninvolved (resolveClientRole config roleName))
    (passes : Passes config callback) :
    Passes config (executeWithS3Retry unicode roleName callback) := by
  have again := @passes_secondAttempt _ _ unicode _ _ resolves passes
  refine ⟨trivial, fun reply configured => ?_⟩
  cases reply with
  | error exc =>
      dsimp only
      split
      · exact ⟨trivial, fun _ _ => again⟩
      · exact uninvolved_error fun caught => resolves exc ((configured exc caught).mp rfl) caught
  | ok =>
      refine (Program.wp_bind _ _ _ callback _).mpr
        (Program.wp_mono passes fun result uninvolved => ?_)
      cases result with
      | ok value => exact uninvolved_ok value
      | error exc =>
          dsimp only
          split
          · exact uninvolved_error (uninvolved exc rfl)
          · split
            · exact ⟨trivial, fun _ _ => again⟩
            · exact uninvolved_error (uninvolved exc rfl)

/-- Where the role is not in the config, no attempt gets a client. -/
theorem retry_refused {exc : PyError} (caught : Caught exc)
    (denied : resolveClientRole config roleName = .error exc) :
    Program.wp (fun _ => True) (Configured config) (fun result => result = .error exc)
      (executeWithS3Retry unicode roleName callback) := by
  refine ⟨trivial, fun reply configured => ?_⟩
  obtain rfl : reply = .error exc := (configured exc caught).mpr denied
  dsimp only
  split
  · refine ⟨trivial, fun _ _ => ⟨trivial, fun second configured => ?_⟩⟩
    obtain rfl : second = .error exc := (configured exc caught).mpr denied
    rfl
  · rfl

theorem passes_gatedCall {role validated : Option Str} {bucket path : Str} {user : UserDict}
    (gate : validateStorageAccess config role bucket user path = .ok validated)
    (resolves : Uninvolved (resolveClientRole config validated)) (passes : Passes config callback) :
    Passes config (gatedCall unicode config role bucket path user callback) := by
  unfold gatedCall
  rw [gate]
  exact passes_retry resolves passes

end Programs

section Read

variable {unicode : Unicode} {config : Dict} {rules : TextRules} {token : Token}
  {role validated : Option Str} {bucket path : Str} {user : UserDict} {forceText : Bool}
  {World : Type} {handler : (effect : Effect) → World → effect.Reply × World} {world after : World}

theorem passes_decodeContent (raw : Bytes) :
    Passes config (decodeContent rules forceText raw) := by
  unfold decodeContent
  split
  · exact uninvolved_ok _
  · split
    · exact uninvolved_ok _
    · exact uninvolved_error (by simp [Caught, PyError.kind, PyError.new])

/-- Behind the size, `read_file` meets the gate and the client that it has met before. -/
theorem passes_readSized
    (gate : validateStorageAccess config role bucket user path = .ok validated)
    (resolves : Uninvolved (resolveClientRole config validated)) (limit : Json) (size : Nat) :
    Passes config
      (readSized unicode config rules role bucket path user forceText limit size) := by
  have gated {α : Type} (request : S3Request) (next : request.Answer → α) :
      Passes config (gatedCall unicode config role bucket path user do
        let answer ← (S3Program.call request).mapError (missingAs (objectNotFound bucket path))
        pure (next answer)) := by
    refine passes_gatedCall gate resolves (passes_bind ?_ fun _ => uninvolved_ok _)
    exact passes_mapError (missingAs_uncaught _) (passes_call request)
  unfold readSized
  split
  · exact uninvolved_error (by simp [Caught, PyError.kind, PyError.new])
  · refine passes_bind ?_ fun _ => passes_bind (gated _ _) fun raw =>
      passes_bind (passes_decodeContent raw) fun _ => uninvolved_ok _
    unfold refuseBinary
    split
    · exact uninvolved_ok _
    · split
      · exact uninvolved_error (by simp [Caught, PyError.kind, PyError.new])
      · exact uninvolved_ok _
      · exact uninvolved_ok _
      · refine passes_bind (gated _ _) fun sample => ?_
        split
        · exact uninvolved_ok _
        · exact uninvolved_error (by simp [Caught, PyError.kind, PyError.new])

theorem effectiveMax_uninvolved : Uninvolved (effectiveMax config token) := by
  unfold effectiveMax
  dsimp only
  split <;> first | exact uninvolved_ok _ |
    exact uninvolved_error (by simp [Caught, PyError.kind, PyError.new])

end Read

section Runs

variable {α β : Type} {env : ToolEnv} {World : Type}
  {handler : (effect : Effect) → World → effect.Reply × World} {world after : World} {exc : PyError}

theorem run_bind_error {program : S3Program α} {next : α → S3Program β}
    (raised : Program.run handler program world = (.error exc, after)) :
    Program.run handler (program >>= next : S3Program β) world = (.error exc, after) := by
  refine (Program.run_bind program _ world).trans ?_
  rw [raised]
  rfl

theorem run_mapError_error (translate : PyError → PyError) {program : S3Program α}
    (raised : Program.run handler program world = (.error exc, after)) :
    Program.run handler (program.mapError translate) world = (.error (translate exc), after) := by
  refine (Program.run_bind program _ world).trans ?_
  rw [raised]
  rfl

theorem run_outcome_error {program : S3Program α}
    (raised : Program.run handler (outcome program) world = (.error exc, after)) :
    Program.run handler program world = (.error exc, after) := by
  have cut := (Program.run_bind program _ world).symm.trans raised
  rcases ran : Program.run handler program world with ⟨result, left⟩
  rw [ran] at cut
  cases result with
  | error other =>
      obtain ⟨same, rfl⟩ := Prod.mk.inj cut
      obtain rfl := Except.error.inj same
      rfl
  | ok value => cases (Prod.mk.inj cut).1

variable (configured : ∀ effect world, Configured env.config effect (handler effect world).1)

include configured

theorem configured_run {post : Result α → Prop} {program : S3Program α}
    (holds : Program.wp (fun _ => True) (Configured env.config) post program) (world : World) :
    post (Program.run handler program world).1 :=
  (@Program.run_of_wp _ _ _ _ handler _ _ (fun _ => True)
    (fun effect world _ _ => ⟨configured effect world, trivial⟩) _ _ holds world trivial).1

/-- `read_file` gets the size of the object only with the gate passed and the role found. -/
theorem head_passed {bucket path : Str} {size : Nat}
    (ran : Program.run handler
      (headObjectForRole env.unicode env.config env.role bucket path env.user) world =
        (.ok size, after)) :
    ∃ validated, validateStorageAccess env.config env.role bucket env.user path = .ok validated ∧
      Uninvolved (resolveClientRole env.config validated) := by
  unfold headObjectForRole gatedCall at ran
  cases gate : validateStorageAccess env.config env.role bucket env.user path with
  | error other =>
      rw [gate] at ran
      cases (Prod.mk.inj ran).1
  | ok validated =>
      refine ⟨validated, rfl, fun exc denied caught => ?_⟩
      rw [gate] at ran
      change Program.run handler (executeWithS3Retry env.unicode validated _) world = _ at ran
      have failed := (congrArg Prod.fst ran).symm.trans
        (configured_run configured (retry_refused caught denied) world)
      cases failed

theorem read_head_raised {bucket path : Str} {forceText : Bool} (caught : Caught exc)
    (raised : Program.run handler (readFile env.unicode env.config env.rules env.token env.role
      bucket path env.user forceText) world = (.error exc, after)) :
    (∃ limit, effectiveMax env.config env.token = .ok limit) ∧
      Program.run handler (headObjectForRole env.unicode env.config env.role bucket path env.user)
        world = (.error exc, after) := by
  rw [readFile_eq] at raised
  cases capped : effectiveMax env.config env.token with
  | error other =>
      rw [capped] at raised
      obtain ⟨same, -⟩ := Prod.mk.inj raised
      obtain rfl := Except.error.inj same
      exact absurd caught (effectiveMax_uninvolved other capped)
  | ok limit =>
  refine ⟨⟨limit, rfl⟩, ?_⟩
  rw [capped, ofResult_ok_bind] at raised
  have cut := (Program.run_bind _ _ world).symm.trans raised
  rcases ran : Program.run handler
    (headObjectForRole env.unicode env.config env.role bucket path env.user) world
    with ⟨result, left⟩
  rw [ran] at cut
  cases result with
  | error other =>
      obtain ⟨same, rfl⟩ := Prod.mk.inj cut
      obtain rfl := Except.error.inj same
      rfl
  | ok size =>
      obtain ⟨validated, gate, resolves⟩ := head_passed configured ran
      exact absurd caught
        (configured_run configured (passes_readSized gate resolves limit size) left exc
          (congrArg Prod.fst cut))

omit configured in
theorem answering_error {program : S3Program Unit}
    (raised : Program.run handler program world = (.error exc, after)) :
    Program.run handler (env.answering program) world =
      (.error (ladder (raiseStoragePermission env.unicode exc)), after) :=
  run_mapError_error ladder (run_mapError_error (raiseStoragePermission env.unicode) raised)

omit configured in
theorem raiseFileNotFound_caught (caught : Caught exc) (message : PyError → Str) :
    raiseFileNotFound message exc = exc := by
  unfold raiseFileNotFound
  split
  · next kind => simp [Caught, kind] at caught
  · rfl

omit configured in
theorem answeringMissing_error {program : S3Program Unit} {message : PyError → Str}
    (caught : Caught exc) (raised : Program.run handler program world = (.error exc, after)) :
    Program.run handler (env.answeringMissing message program) world =
      (.error (ladder (raiseStoragePermission env.unicode exc)), after) := by
  refine answering_error ?_
  rw [run_mapError_error (raiseFileNotFound message) raised, raiseFileNotFound_caught caught]

/-- Every tool answers a denial through the classifier. -/
theorem answer_error {call : ToolCall} (caught : Caught exc)
    (raised : Program.run handler (call.operation env) world = (.error exc, after)) :
    Program.run handler (call.answer env) world =
      (.error (ladder (raiseStoragePermission env.unicode exc)), after) := by
  cases call with
  | bucketSummary bucket path =>
      refine run_bind_error (run_mapError_error ladder (run_bind_error ?_))
      exact run_mapError_error _ (run_outcome_error raised)
  | readFile bucket path forceText =>
      obtain ⟨⟨limit, capped⟩, headed⟩ :=
        read_head_raised configured caught (run_outcome_error raised)
      refine run_bind_error (run_mapError_error ladder ?_)
      rw [capped, ofResult_ok_bind]
      refine run_bind_error ?_
      rw [run_mapError_error _ headed, raiseFileNotFound_caught caught]
  | deleteFile | getObjectMetadata | copyObject => exact answeringMissing_error caught raised
  | listBuckets | listFiles | uploadFile | presignedUrl => exact answering_error raised

end Runs

section Law

variable {World : Type} {env : ToolEnv}
  {handler : (effect : Effect) → World → effect.Reply × World} {call : ToolCall}
  {world after : World} {exc : PyError} {check : DenialCheck} {names : List Str}

/-- The call is answered with this code. -/
def AnswersWith (handler : (effect : Effect) → World → effect.Reply × World) (env : ToolEnv)
    (call : ToolCall) (world : World) (code : Str) : Prop :=
  ∃ answer, (Program.run handler (call.answer env) world).1 = .error answer ∧
    answer.kind = .mcpError code

theorem denied_caught {config : Dict} {user : UserDict}
    (denied : Denied config user check names exc) : Caught exc := by
  cases denied with
  | gate denial => exact .inl (gate_denial_iff.mpr ⟨check, names, denial⟩).2
  | lookup _ kind => exact .inr kind

theorem classified_kind (unicode : Unicode) (caught : Caught exc) :
    (ladder (raiseStoragePermission unicode exc)).kind =
      .mcpError (storagePermissionCode unicode exc.message) := by
  obtain ⟨kind, message, cause⟩ := exc
  obtain rfl | rfl : kind = .permissionError ∨ kind = .roleNotFoundError := caught
  · rfl
  · rfl

theorem answersWith_iff
    (configured : ∀ effect world, Configured env.config effect (handler effect world).1)
    (caught : Caught exc)
    (raised : Program.run handler (call.operation env) world = (.error exc, after)) {code : Str} :
    AnswersWith handler env call world code ↔
      storagePermissionCode env.unicode exc.message = code := by
  unfold AnswersWith
  rw [answer_error configured caught raised]
  simp only [Except.error.injEq, exists_eq_left', classified_kind _ caught,
    ErrorKind.mcpError.injEq]

/-- A call that a check of the gate or the lookup of its role denies is answered with the code
of that check exactly when no name in the denial has a word of the classifier. -/
theorem denial_named_iff (lawful : LowersByCharacter env.unicode)
    (configured : ∀ effect world, Configured env.config effect (handler effect world).1)
    (denied : Denied env.config env.user check names exc)
    (raised : Program.run handler (call.operation env) world = (.error exc, after)) :
    AnswersWith handler env call world check.code ↔ Unmistakable env.unicode check names := by
  rw [answersWith_iff configured (denied_caught denied) raised]
  exact denied_code_iff lawful denied

/-- A user with the role `reader`, and a call with a role. -/
def readerUser : UserDict := ⟨false, [lit "reader"], none⟩

def readerEnv (role : Str) : ToolEnv :=
  { adminEnv with role := some role, user := readerUser }

/-- Every S3 call is refused, and clients are there for the roles of the config. -/
def closedStore (config : Dict) : (effect : Effect) → Unit → effect.Reply × Unit
  | .s3 _, _ => (.error (.new (.clientError (lit "AccessDenied") 403) []), ())
  | .getClient name, _ => ((resolveClientRole config name).map fun _ => (), ())
  | .invalidateClient _, _ => ((), ())

theorem closedStore_configured (config : Dict) (effect : Effect) (world : Unit) :
    Configured config effect (closedStore config effect world).1 := by
  cases effect with
  | s3 request => exact uninvolved_error (by simp [Caught, PyError.kind, PyError.new])
  | getClient name =>
      intro exc _
      show (resolveClientRole config name).map (fun _ => ()) = .error exc ↔ _
      cases resolveClientRole config name <;> simp [Except.map]
  | invalidateClient name => trivial

/-- What `validate_role_access` says of the role. -/
def foreignRole (role : Str) : PyError :=
  .new .permissionError
    (lit "Access denied: You don't have permission to use role '" ++ role ++ ['\''])

theorem foreign_denied {role : Str} (foreign : readerUser.allowedRoles.contains role = false) :
    Denied [] readerUser .role [role] (foreignRole role) := by
  have denial : GateDenial [] (some role) [] readerUser [] .role [role] (foreignRole role) := by
    refine .role ?_
    simp only [validateRoleAccess, foreign]
    rfl
  exact .gate denial

theorem writer_named :
    AnswersWith (closedStore []) (readerEnv (lit "writer")) .listBuckets () DenialCheck.role.code ↔
      Unmistakable (readerEnv (lit "writer")).unicode .role [lit "writer"] :=
  denial_named_iff ascii_lowersByCharacter (closedStore_configured []) (foreign_denied (by decide))
    rfl

/-- A user asks for a role that is not theirs and has `bucket` in its name: the answer says that
the bucket is not allowed. -/
theorem bucket_admin_misnamed :
    ¬ ∀ (env : ToolEnv) (handler : (effect : Effect) → Unit → effect.Reply × Unit)
        (call : ToolCall) (exc : PyError) (check : DenialCheck) (names : List Str),
        LowersByCharacter env.unicode →
        (∀ effect world, Configured env.config effect (handler effect world).1) →
        Denied env.config env.user check names exc →
        Program.run handler (call.operation env) () = (.error exc, ()) →
        AnswersWith handler env call () check.code := by
  intro always
  have denied : Denied [] readerUser .role [lit "bucket-admin"] (foreignRole (lit "bucket-admin")) :=
    foreign_denied (by decide)
  have named := always (readerEnv (lit "bucket-admin")) (closedStore []) .listBuckets _ .role _
    ascii_lowersByCharacter (closedStore_configured []) denied rfl
  have code := (@answersWith_iff _ (readerEnv (lit "bucket-admin")) _ _ _ _ _
    (closedStore_configured []) (denied_caught denied) rfl _).mp named
  have unmistakable := (denied_code_iff ascii_lowersByCharacter denied).mp code
  exact unmistakable _ List.mem_cons_self (lit "bucket") List.mem_cons_self (by decide +kernel)

end Law

end S3Manager.Mcp
