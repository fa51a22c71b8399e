import S3Manager.Doors.PrefixLaw
import S3Manager.Storage.ConfinedHelpers

/-! Clients of both doors side by side. Each client makes calls one after the other and picks
the next one by the answers so far; the S3 requests of all clients interleave in any order.
What the users are granted bounds what all of them together can change or find out. -/

set_option autoImplicit false

namespace S3Manager.Doors

open Python Utils Access Storage Library

section Operations

/-- No path that the gate is asked for has blanks around it. -/
def StorageOperation.Trimmed (operation : StorageOperation) : Prop :=
  ∀ text ∈ operation.texts, strip text.1 = text.1

instance (operation : StorageOperation) : Decidable operation.Trimmed :=
  inferInstanceAs (Decidable (∀ text ∈ operation.texts, strip text.1 = text.1))

variable {unicode : Unicode} {config : Dict} {user : UserDict} {role : Option Str}
  {bucket bucketName path : Str} {conventions : Conventions} {area : Area}

theorem trimmed_folder {search : Str}
    (trimmed : ∀ text ∈ StorageOperation.folderTexts path search, strip text.1 = text.1) :
    strip path = path := by
  unfold StorageOperation.folderTexts at trimmed
  split at trimmed
  · next empty =>
      rw [List.isEmpty_iff.mp empty]
      rfl
  · exact trimmed (path, path ++ '/' :: search) List.mem_cons_self

theorem confined_readFile {rules : Mcp.TextRules} {token : Mcp.Token} {forceText : Bool}
    (granted : ∀ bucket key, UserGrants config user bucket key → area bucket key)
    (trimmed : strip path = path) :
    ConfinedTo conventions area
      (Mcp.readFile unicode config rules token role bucket path user forceText) := by
  have one {α : Type} (request : S3Request) {message : Str} {part : request.Answer → α}
      (within : area bucket path → Within area request) : ConfinedTo conventions area
        (gatedCall unicode config role bucket path user do
          let answer ← (S3Program.call request).mapError (missingAs message)
          pure (part answer)) :=
    confined_gatedRequest granted trimmed fun inside =>
      confined_bind (confined_mapError (confined_call (within inside))) fun _ => trivial
  exact Mcp.readFile_of_parts (ConfinedTo conventions area) (fun _ => trivial) confined_bind
    (one (.headObject bucket path) id) (one (.getObject bucket path (some (0, 8191))) id)
    (one (.getObject bucket path none) id)

theorem confined_mcpListFiles {pages : Nat} {recursive : Bool} {maxKeys : Option Int}
    {token : Option Str}
    (granted : ∀ bucket key, UserGrants config user bucket key → area bucket key)
    (trimmed : strip (stripSlash path) = stripSlash path) :
    ConfinedTo conventions area
      (Mcp.listFiles unicode config pages role bucket path user recursive maxKeys token) := by
  refine confined_check fun limits _ => confined_check fun _ _ => ?_
  split
  · refine confined_bind (confined_listRecursive granted ?_ _ _ _ _) fun _ => trivial
    rw [rstripSlash_folderPrefix]
    exact trimmed
  · refine confined_bind (confined_listObjects granted trimmed _) fun files => ?_
    split <;> exact trivial

theorem confined_bucketSummary {pages : Nat}
    (granted : ∀ bucket key, UserGrants config user bucket key → area bucket key)
    (trimmed : strip (stripSlash path) = stripSlash path) :
    ConfinedTo conventions area (Mcp.bucketSummary unicode config pages role bucket path user) := by
  refine confined_check fun _ _ => confined_check fun _ _ => confined_check fun _ _ => ?_
  refine confined_summarize granted ?_ _ _ _
  rw [rstripSlash_folderPrefix]
  exact trimmed

theorem confined_mcpCopyObject {pages : Nat} {token : Mcp.Token} {destBucket destPath : Str}
    {deleteSource : Bool}
    (granted : ∀ bucket key, UserGrants config user bucket key → area bucket key)
    (trimmed : strip path = path) (destTrimmed : strip destPath = destPath) :
    ConfinedTo conventions area (Mcp.copyObject unicode config pages token role bucket path
      destBucket destPath user deleteSource) := by
  refine confined_check fun _ _ => confined_check fun _ _ => ?_
  refine confined_bind (confined_copyObject granted trimmed destTrimmed) fun _ => ?_
  unfold Mcp.deleteMoved
  split
  · exact confined_bind (confined_deleteObject granted trimmed pages) fun _ => trivial
  · exact trivial

theorem confined_webListFiles {pages : Nat} {query : Web.ListQuery}
    (granted : ∀ bucket key, UserGrants config user bucket key → area bucket key)
    (trimmed : (StorageOperation.webListFiles pages role bucketName path query).Trimmed) :
    ConfinedTo conventions area
      (Web.listFiles unicode config pages role bucketName path user query) := by
  refine confined_check fun target sanitized => confined_check fun search checked => ?_
  have bare : strip target.2 = target.2 := by
    simp only [StorageOperation.Trimmed, StorageOperation.texts, (checked_search checked).1,
      sanitizedTexts_ok sanitized] at trimmed
    exact trimmed_folder trimmed
  split
  · exact confined_check fun chunk _ =>
      confined_bind (confined_clientLoad granted bare _ _ _) fun _ => trivial
  · split
    · refine confined_check fun listing prepared => ?_
      split
      · exact trivial
      · next real =>
          exact confined_bind
            (confined_listObjects granted (effective_trimmed prepared real bare) _) fun _ => trivial
    · exact confined_bind (confined_listPaginated granted bare _ _) fun _ => trivial

theorem confined_webUploadFile {form : Web.UploadForm} {maxFileSize : Int}
    (granted : ∀ bucket key, UserGrants config user bucket key → area bucket key)
    (trimmed : (StorageOperation.webUploadFile role bucketName form maxFileSize).Trimmed) :
    ConfinedTo conventions area
      (Web.uploadFile unicode config role bucketName form user maxFileSize) := by
  refine confined_check fun target sanitized => ?_
  have bare : strip target.2 = target.2 := by
    simp only [StorageOperation.Trimmed, StorageOperation.texts,
      sanitizedTexts_ok sanitized] at trimmed
    exact trimmed _ List.mem_cons_self
  refine confined_check fun _ _ => confined_check fun disposition _ => ?_
  exact confined_bind (confined_gatedRequest granted bare fun inside => confined_call inside)
    fun _ => trivial

theorem confined_webGetPresignedUrl {name op : Str} {defaultTtl maxTtl : Int}
    {expiresIn : Option Int}
    (granted : ∀ bucket key, UserGrants config user bucket key → area bucket key)
    (trimmed : (StorageOperation.webGetPresignedUrl name bucketName path op defaultTtl maxTtl
      expiresIn).Trimmed) :
    ConfinedTo conventions area (Web.getPresignedUrl unicode config name bucketName path user op
      defaultTtl maxTtl expiresIn) := by
  unfold Web.getPresignedUrl
  split
  · exact trivial
  · refine confined_check fun ttl _ => confined_check fun target sanitized =>
      confined_check fun validated _ => ?_
    simp only [StorageOperation.Trimmed, StorageOperation.texts,
      sanitizedTexts_ok sanitized] at trimmed
    exact confined_gatedRequest granted (trimmed _ List.mem_cons_self)
      fun inside => confined_call inside

theorem confined_webDeleteFile {pages : Nat} {disableDeletionEnv : Bool}
    (granted : ∀ bucket key, UserGrants config user bucket key → area bucket key)
    (trimmed : (StorageOperation.webDeleteFile pages role bucketName path
      disableDeletionEnv).Trimmed) :
    ConfinedTo conventions area
      (Web.deleteFile unicode config pages role bucketName path user disableDeletionEnv) := by
  unfold Web.deleteFile
  split
  · exact trivial
  · refine confined_check fun target sanitized => ?_
    simp only [StorageOperation.Trimmed, StorageOperation.texts,
      sanitizedTexts_ok sanitized] at trimmed
    split
    · exact trivial
    · exact confined_deleteObject granted (trimmed _ List.mem_cons_self) pages

/-- Every operation of a user stays in the area that the user is granted. -/
theorem confined_operation (operation : StorageOperation)
    (granted : ∀ bucket key, UserGrants config user bucket key → area bucket key)
    (trimmed : operation.Trimmed) :
    ConfinedTo conventions area (operation.program unicode config user) := by
  cases operation with
  | mcpListFiles => exact confined_mcpListFiles granted (trimmed_folder trimmed)
  | mcpBucketSummary => exact confined_bucketSummary granted (trimmed_folder trimmed)
  | mcpUploadFile =>
      refine confined_check fun _ _ => ?_
      split
      · exact trivial
      · exact confined_gatedRequest granted (trimmed _ List.mem_cons_self)
          fun inside => confined_call inside
  | mcpDeleteFile =>
      exact confined_check fun _ _ =>
        confined_deleteObject granted (trimmed _ List.mem_cons_self) _
  | mcpReadFile => exact confined_readFile granted (trimmed _ List.mem_cons_self)
  | mcpCopyObject _ _ _ _ _ _ _ _ =>
      refine confined_mcpCopyObject granted (trimmed _ List.mem_cons_self) ?_
      exact trimmed _ (List.mem_append_left _ (List.mem_cons_of_mem _ List.mem_cons_self))
  | mcpGetObjectMetadata =>
      exact confined_gatedRequest granted (trimmed _ List.mem_cons_self) fun inside =>
        confined_bind (confined_mapError (confined_call inside)) fun _ => trivial
  | mcpPresignedUrl =>
      exact confined_check fun _ _ =>
        confined_gatedRequest granted (trimmed _ List.mem_cons_self)
          fun inside => confined_call inside
  | webListFiles => exact confined_webListFiles granted trimmed
  | webUploadFile => exact confined_webUploadFile granted trimmed
  | webDownloadFile =>
      refine confined_check fun target sanitized => ?_
      simp only [StorageOperation.Trimmed, StorageOperation.texts,
        sanitizedTexts_ok sanitized] at trimmed
      exact confined_bind (confined_gatedRequest granted (trimmed _ List.mem_cons_self)
        fun inside => confined_mapError (confined_call inside)) fun _ => trivial
  | webGetPresignedUrl => exact confined_webGetPresignedUrl granted trimmed
  | webDeleteFile => exact confined_webDeleteFile granted trimmed

end Operations

section Sessions

/-- One call, with the config it is made under and the user it is made for. -/
structure DoorCall where
  config : Dict
  user : UserDict
  operation : StorageOperation

/-- The calls of a client, each picked by the answers to those before. -/
inductive ClientSession where
  | done
  | call (made : DoorCall) (next : Result made.operation.Answer → ClientSession)

/-- An answer with the operation it belongs to. -/
structure Answered where
  operation : StorageOperation
  result : Result operation.Answer

def ClientSession.program (unicode : Unicode) : ClientSession → Program Effect.Reply (List Answered)
  | .done => .pure []
  | .call made next =>
      Program.bind (made.operation.program unicode made.config made.user) fun result =>
        Program.bind ((next result).program unicode) fun answers =>
          .pure (⟨made.operation, result⟩ :: answers)

/-- Whatever is answered, the calls are made for users who are granted nothing outside the area. -/
def ClientSession.Granted (area : Area) : ClientSession → Prop
  | .done => True
  | .call made next =>
      (∀ bucket key, UserGrants made.config made.user bucket key → area bucket key) ∧
        made.operation.Trimmed ∧ ∀ result, (next result).Granted area

/-- All clients at their beginning. -/
def sessionPool {Client : Type} (unicode : Unicode) (sessions : Client → ClientSession) (world : World) :
    Pool Effect.Reply World (fun _ : Client => List Answered) where
  world := world
  programs client := (sessions client).program unicode

variable {unicode : Unicode} {conventions : Conventions} {area : Area}

theorem confined_session {session : ClientSession} (granted : session.Granted area) :
    Program.Confined (handle conventions) (World.AlikeOn area) (World.KeepsOutside area)
      (session.program unicode) := by
  induction session with
  | done => exact trivial
  | call made next ih =>
      obtain ⟨allowed, trimmed, onward⟩ := granted
      refine Program.confined_bind (confined_operation made.operation allowed trimmed)
        fun result => ?_
      exact Program.confined_bind (ih result (onward result)) fun answers => trivial

variable {Client : Type} [DecidableEq Client]

/-- In whatever order the S3 requests of all clients interleave, and whatever calls fail, an
object that none of the users is granted stays as it is. -/
theorem sessions_keep_outside (sessions : Client → ClientSession)
    (granted : ∀ client, (sessions client).Granted area) (schedule : List Client) (world : World)
    {bucket key : Str} (outside : ¬ area bucket key) :
    ((sessionPool unicode sessions world).run (handle conventions) schedule).world.store.get?
      bucket key = world.store.get? bucket key :=
  Pool.run_confined keepsOutside_refl keepsOutside_trans schedule
    (fun client => confined_session (granted client)) bucket key outside

/-- Objects that none of the users is granted make no difference to any client: over stores
that differ outside the area only, all clients go on alike and leave the area alike. -/
theorem sessions_blind_outside (sessions : Client → ClientSession)
    (granted : ∀ client, (sessions client).Granted area) (schedule : List Client)
    {first second : World} (alike : first.AlikeOn area second) :
    ((sessionPool unicode sessions first).run (handle conventions) schedule).programs =
        ((sessionPool unicode sessions second).run (handle conventions) schedule).programs ∧
      ((sessionPool unicode sessions first).run (handle conventions) schedule).world.AlikeOn area
        ((sessionPool unicode sessions second).run (handle conventions) schedule).world := by
  have all : (sessionPool unicode sessions first).Confined (handle conventions)
      (World.AlikeOn area) (World.KeepsOutside area) :=
    fun client => confined_session (granted client)
  obtain ⟨left_alike, same⟩ := Pool.run_alike (sessionPool unicode sessions second)
    keepsOutside_refl schedule all alike rfl
  exact ⟨same, left_alike⟩

/-- The folder that the user of the stand is granted, in any bucket. -/
def standArea : Area := fun _ key => Covered [.str (lit "stand-a/")] key

theorem stand_granted {bucket key : Str} (granted : UserGrants standConfig standUser bucket key) :
    standArea bucket key := by
  obtain ⟨role, validated, checked, found, searched, grants⟩ := granted
  obtain ⟨name, rfl, member⟩ := validateRoleAccess_allowed checked rfl
  obtain rfl : name = lit "stand" := List.mem_singleton.mp member
  obtain ⟨entry, same⟩ : ∃ entry, found = some entry := ⟨_, (Except.ok.inj searched).symm⟩
  obtain ⟨prefixes, read, covered⟩ := (grants entry same).keyCovered
  obtain rfl := same
  obtain rfl := Option.some.inj (Except.ok.inj searched)
  exact covered _ (Except.ok.inj read).symm

/-- One upload below the folder. -/
def standSession : ClientSession :=
  .call ⟨standConfig, standUser, uploadTo (lit "stand-a/x")⟩ fun _ => .done

theorem standSession_granted : standSession.Granted standArea :=
  ⟨fun _ _ granted => stand_granted granted, by decide, fun _ => trivial⟩

def standStore (secret : Bytes) : Store :=
  (Store.mk [lit "data"] (fun _ => .empty) []).put (lit "data") (lit "secret") secret none

theorem secret_outside : ¬ standArea (lit "data") (lit "secret") := by
  rintro ⟨raw, member, -, under⟩
  obtain rfl : raw = lit "stand-a/" := by simpa using member
  obtain same | below := under
  · exact absurd same (by decide)
  · exact absurd below (by decide)

/-- Two clients that upload below their folder leave another object alone. -/
theorem stand_keeps_outside :
    ((sessionPool .ascii (fun _ : Bool => standSession) ⟨standStore [1], fun _ => none⟩).run
        (handle .plain) [true, false, true, false]).world.store.get? (lit "data")
      (lit "secret") = (standStore [1]).get? (lit "data") (lit "secret") :=
  sessions_keep_outside (fun _ : Bool => standSession) (fun _ => standSession_granted) _ _
    secret_outside

theorem stand_blind_outside :
    ((sessionPool .ascii (fun _ : Bool => standSession) ⟨standStore [1], fun _ => none⟩).run
        (handle .plain) [true, false, true, false]).programs =
      ((sessionPool .ascii (fun _ : Bool => standSession) ⟨standStore [2], fun _ => none⟩).run
        (handle .plain) [true, false, true, false]).programs := by
  refine (sessions_blind_outside (fun _ : Bool => standSession) (fun _ => standSession_granted) _
    ⟨rfl, rfl, fun bucket key inside => ?_⟩).1
  have different : ¬ (bucket = lit "data" ∧ key = lit "secret") := by
    rintro ⟨rfl, rfl⟩
    exact secret_outside inside
  simp only [standStore, get?_put, if_neg different]

end Sessions

end S3Manager.Doors
