import S3Manager.Mcp.Ladder

/-! Tool errors of one code, and where they cannot come from: the gate, the retry and the
calls of S3 raise none, and the handlers around a tool make none of a code of their own. -/

set_option autoImplicit false

namespace S3Manager.Mcp

open Python Access Storage Library

section Results

variable {α β : Type} {code : Str}

/-- The result is no tool error of this code. -/
def Avoids (code : Str) (result : Result α) : Prop :=
  ∀ exc, result = .error exc → exc.kind ≠ .mcpError code

theorem avoids_ok (value : α) : Avoids code (.ok value : Result α) :=
  fun _ fails => by cases fails

theorem avoids_error {exc : PyError} (other : exc.kind ≠ .mcpError code) :
    Avoids code (.error exc : Result α) := fun _ fails => by
  obtain rfl := Except.error.inj fails
  exact other

theorem avoids_raise {kind : ErrorKind} {message : Str} (other : kind ≠ .mcpError code) :
    Avoids code (raise kind message : Result α) :=
  avoids_error other

theorem avoids_bind {first : Result α} {next : α → Result β} (here : Avoids code first)
    (later : ∀ value, Avoids code (next value)) : Avoids code (first >>= next) := by
  cases first with
  | error exc => exact avoids_error (here exc rfl)
  | ok value => exact later value

theorem validateRoleAccess_avoids (role : Option Str) (user : UserDict) :
    Avoids code (validateRoleAccess role user) := by
  unfold validateRoleAccess
  split
  · exact avoids_ok _
  · dsimp only
    split
    · exact avoids_raise (by simp)
    · split
      · exact avoids_ok _
      · exact avoids_raise (by simp)

theorem nextRole_avoids (name : Option Str) (roles : List Json) :
    Avoids code (nextRole name roles) := by
  fun_induction nextRole name roles with
  | case1 => exact avoids_ok _
  | case2 => exact avoids_ok _
  | case3 _ _ _ ih => exact ih
  | case4 => exact avoids_raise (by simp)

theorem iterate_avoids (value : Json) : Avoids code (iterate value) := by
  cases value with
  | arr | obj | str => exact avoids_ok _
  | null | bool | int | float => exact avoids_raise (by simp)

theorem roleAllowedBuckets_avoids (entry config : Dict) :
    Avoids code (roleAllowedBuckets entry config) := by
  unfold roleAllowedBuckets
  split
  · exact avoids_ok _
  · exact avoids_ok _
  · exact avoids_ok _
  · exact avoids_raise (by simp)

theorem roleAllowedPrefixes_avoids (entry : Dict) : Avoids code (roleAllowedPrefixes entry) := by
  unfold roleAllowedPrefixes
  split
  · exact avoids_ok _
  · exact avoids_ok _
  · exact avoids_raise (by simp)

theorem checkBucket_avoids (allowed : Option (List Json)) (bucket : Str)
    (validated : Option Str) : Avoids code (checkBucket allowed bucket validated) := by
  unfold checkBucket
  split
  · exact avoids_ok _
  · split
    · exact avoids_ok _
    · exact avoids_raise (by simp)

theorem normalizeAccessKey_avoids (raw : Str) : Avoids code (normalizeAccessKey raw) := by
  unfold normalizeAccessKey
  split
  · exact avoids_ok _
  · split
    · exact avoids_raise (by simp)
    · split
      · exact avoids_ok _
      · exact avoids_error (by simp [PyError.kind])

theorem anyPrefixAllows_avoids (key : Str) (prefixes : List Json) :
    Avoids code (anyPrefixAllows key prefixes) := by
  induction prefixes with
  | nil => exact avoids_ok _
  | cons allowed rest ih =>
      refine avoids_bind ?_ fun within => ?_
      · unfold keyWithinAllowedPrefix
        split
        · exact avoids_ok _
        · split
          · exact avoids_raise (by simp)
          · exact avoids_ok _
      · split
        · exact avoids_ok _
        · exact ih

theorem checkPrefixes_avoids (prefixes : List Json) (key : Str) (validated : Option Str) :
    Avoids code (checkPrefixes prefixes key validated) := by
  refine avoids_bind (normalizeAccessKey_avoids key) fun normal => ?_
  refine avoids_bind (anyPrefixAllows_avoids normal prefixes) fun within => ?_
  split
  · exact avoids_ok _
  · exact avoids_raise (by simp)

theorem validateStorageAccess_avoids (config : Dict) (role : Option Str) (bucket : Str)
    (user : UserDict) (key : Str) :
    Avoids code (validateStorageAccess config role bucket user key) := by
  refine avoids_bind (validateRoleAccess_avoids role user) fun validated => ?_
  refine avoids_bind (avoids_bind (iterate_avoids _) fun roles => nextRole_avoids validated roles)
    fun entry => ?_
  split
  · exact avoids_ok _
  · refine avoids_bind (roleAllowedBuckets_avoids _ config) fun allowed => ?_
    refine avoids_bind (checkBucket_avoids allowed bucket validated) fun _ => ?_
    refine avoids_bind (roleAllowedPrefixes_avoids _) fun prefixes => ?_
    split
    · exact avoids_ok _
    · exact avoids_bind (checkPrefixes_avoids _ key validated) fun _ => avoids_ok _

end Results

section Programs

variable {α β : Type} {code : Str}

/-- S3 and the client cache raise no tool error of this code. -/
def Quiet (code : Str) : (effect : Effect) → effect.Reply → Prop
  | .s3 _, reply => Avoids code reply
  | .getClient _, reply => Avoids code reply
  | .invalidateClient _, _ => True

/-- The program ends with no tool error of this code, whatever S3 answers. -/
def Spares (code : Str) (program : S3Program α) : Prop :=
  Program.wp (fun _ => True) (Quiet code) (Avoids code) program

theorem spares_ofResult {result : Result α} (avoids : Avoids code result) :
    Spares code (S3Program.ofResult result) := avoids

theorem spares_bind {program : S3Program α} {next : α → S3Program β}
    (here : Spares code program) (later : ∀ value, Spares code (next value)) :
    Spares code (program >>= next) := by
  refine (Program.wp_bind _ _ _ program _).mpr (Program.wp_mono here fun result avoids => ?_)
  cases result with
  | error exc => exact avoids_error (avoids exc rfl)
  | ok value => exact later value

theorem spares_call (request : S3Request) : Spares code (S3Program.call request) :=
  ⟨trivial, fun _ quiet => quiet⟩

/-- Handlers may make other errors of an error, but none of this code. -/
theorem spares_mapError {translate : PyError → PyError} {program : S3Program α}
    (sound : ∀ exc, exc.kind ≠ .mcpError code → (translate exc).kind ≠ .mcpError code)
    (spares : Spares code program) : Spares code (program.mapError translate) := by
  refine (Program.wp_bind _ _ _ program _).mpr (Program.wp_mono spares fun result avoids => ?_)
  cases result with
  | error exc => exact avoids_error (sound exc (avoids exc rfl))
  | ok value => exact avoids_ok value

theorem spares_secondAttempt {unicode : Unicode} {role : Option Str} {callback : S3Program α}
    (spares : Spares code callback) : Spares code (secondAttempt unicode role callback) := by
  refine ⟨trivial, fun reply quiet => ?_⟩
  cases reply with
  | error exc => exact avoids_error (quiet exc rfl)
  | ok =>
      refine (Program.wp_bind _ _ _ callback _).mpr (Program.wp_mono spares fun result avoids => ?_)
      cases result with
      | ok value => exact avoids_ok value
      | error exc =>
          dsimp only
          split
          · exact avoids_error (avoids exc rfl)
          · split
            · exact avoids_error (by simp [PyError.kind])
            · exact avoids_error (avoids exc rfl)

theorem spares_retry {unicode : Unicode} {role : Option Str} {callback : S3Program α}
    (spares : Spares code callback) : Spares code (executeWithS3Retry unicode role callback) := by
  have again := @spares_secondAttempt _ _ unicode role _ spares
  refine ⟨trivial, fun reply quiet => ?_⟩
  cases reply with
  | error exc =>
      dsimp only
      split
      · exact ⟨trivial, fun _ _ => again⟩
      · exact avoids_error (quiet exc rfl)
  | ok =>
      refine (Program.wp_bind _ _ _ callback _).mpr (Program.wp_mono spares fun result avoids => ?_)
      cases result with
      | ok value => exact avoids_ok value
      | error exc =>
          dsimp only
          split
          · exact avoids_error (avoids exc rfl)
          · split
            · exact ⟨trivial, fun _ _ => again⟩
            · exact avoids_error (avoids exc rfl)

theorem spares_gatedCall {unicode : Unicode} {config : Dict} {role : Option Str}
    {bucket path : Str} {user : UserDict} {callback : S3Program α}
    (spares : Spares code callback) :
    Spares code (gatedCall unicode config role bucket path user callback) :=
  spares_bind (spares_ofResult (validateStorageAccess_avoids config role bucket user path))
    fun _ => spares_retry spares

theorem raiseStoragePermission_spares {unicode : Unicode}
    (other : ∀ message, storagePermissionCode unicode message ≠ code) (exc : PyError)
    (kind : exc.kind ≠ .mcpError code) :
    (raiseStoragePermission unicode exc).kind ≠ .mcpError code := by
  unfold raiseStoragePermission
  split
  · simpa [PyError.kind] using other exc.message
  · simpa [PyError.kind] using other exc.message
  · exact kind

theorem ladder_spares (ladders : ∀ errorClass, ladderCode errorClass ≠ code)
    (internal : lit "INTERNAL_ERROR" ≠ code) (exc : PyError) (kind : exc.kind ≠ .mcpError code) :
    (ladder exc).kind ≠ .mcpError code := by
  unfold ladder
  split
  · exact kind
  · next errorClass _ _ => simpa [PyError.kind] using ladders errorClass
  · simpa [PyError.kind] using internal

/-- Where S3 is quiet, no run ends with the error. -/
theorem spares_run {World : Type} {program : S3Program α}
    {handler : (effect : Effect) → World → effect.Reply × World}
    (quiet : ∀ effect world, Quiet code effect (handler effect world).1)
    (spares : Spares code program) (world : World) :
    Avoids code (Program.run handler program world).1 :=
  (@Program.run_of_wp _ _ _ _ _ (fun _ => True) (Quiet code) (fun _ => True)
    (fun effect world _ _ => ⟨quiet effect world, trivial⟩) _ _ spares world trivial).1

end Programs

end S3Manager.Mcp
