import S3Manager.Doors.PrefixLaw

/-! Which key or prefix a web route takes to S3 for the path it is sent. -/

set_option autoImplicit false

namespace S3Manager.Doors

open Python Utils Access Storage Library

inductive KeyRoute where
  | list
  | download
  | presignedUrl
  | upload
  | delete
  deriving DecidableEq

/-- The key or prefix of the requests that a route makes, or its refusal. -/
def KeyRoute.handed : KeyRoute → Str → Result Str
  | .list, path => do
      let path ← Web.orBadRequest (sanitizePath path)
      .ok (folderPrefix path)
  | .download, path | .presignedUrl, path | .upload, path => Web.orBadRequest (sanitizePath path)
  | .delete, path => do
      let sanitized ← Web.orBadRequest (sanitizePath path)
      if sanitized.isEmpty then Web.raiseHttp 400 (lit "Cannot delete root path")
      else .ok (deleteText (Web.deletePath path sanitized))

section Handed

variable {path key : Str}

theorem handed_list_iff :
    KeyRoute.list.handed path = .ok key ↔
      ∃ sanitized, sanitizePath path = .ok sanitized ∧ folderPrefix sanitized = key := by
  simp only [KeyRoute.handed, bind_eq_ok_iff, orBadRequest_ok_iff, Except.ok.injEq]

theorem handed_key_iff {route : KeyRoute}
    (single : route = .download ∨ route = .presignedUrl ∨ route = .upload) :
    route.handed path = .ok key ↔ sanitizePath path = .ok key := by
  obtain rfl | rfl | rfl := single <;> exact orBadRequest_ok_iff

/-- What is deleted ends in one slash when the path as it was sent ends in a slash. -/
theorem deleteText_deletePath {sanitized : Str} (accepted : sanitizePath path = .ok sanitized) :
    deleteText (Web.deletePath path sanitized) =
      if endsWith (rstrip path) ['/'] then sanitized ++ ['/'] else sanitized := by
  have plain : endsWith sanitized ['/'] = false := by
    rw [← Bool.not_eq_true]
    intro slash
    obtain ⟨init, shape⟩ := endsWith_slash_iff.mp slash
    exact sanitizePath_last accepted init shape
  have added : endsWith (sanitized ++ ['/']) ['/'] = true :=
    endsWith_slash_iff.mpr ⟨sanitized, rfl⟩
  have removed : rstripSlash (sanitized ++ ['/']) = sanitized :=
    (rdropWhile_concat_blank isSlash sanitized (by simp)).trans (rstripSlash_eq_self plain)
  cases wants : endsWith (rstrip path) ['/'] with
  | true => simp only [Web.deletePath, wants, plain, Bool.not_false, Bool.and_self, if_true,
      deleteText, added, removed]
  | false => simp only [Web.deletePath, wants, Bool.false_and, Bool.false_eq_true, if_false,
      deleteText, plain]

theorem handed_delete_iff :
    KeyRoute.delete.handed path = .ok key ↔
      ∃ sanitized, sanitizePath path = .ok sanitized ∧ sanitized ≠ [] ∧
        key = if endsWith (rstrip path) ['/'] then sanitized ++ ['/'] else sanitized := by
  simp only [KeyRoute.handed, bind_eq_ok_iff, orBadRequest_ok_iff]
  constructor
  · intro handed
    obtain ⟨sanitized, accepted, rest⟩ := handed
    split at rest
    · simp [Web.raiseHttp, raise] at rest
    · next live =>
        refine ⟨sanitized, accepted, by simpa using live, ?_⟩
        rw [← deleteText_deletePath accepted]
        exact (Except.ok.inj rest).symm
  · intro handed
    obtain ⟨sanitized, accepted, live, rfl⟩ := handed
    refine ⟨sanitized, accepted, ?_⟩
    rw [if_neg (by simpa using live), deleteText_deletePath accepted]

end Handed

section Requests

/-- A request that is about one key, or about the keys below one prefix. -/
def OnKey (key : Str) (request : S3Request) : Prop :=
  ∀ text ∈ request.texts, text = key ∨ endsWith key ['/'] = true ∧ key <+: text

/-- The route that an operation is a call of, and the path it is sent. -/
def StorageOperation.routed : StorageOperation → Option (KeyRoute × Str)
  | .webListFiles _ _ _ path query => if query.search.isNone then some (.list, path) else none
  | .webUploadFile _ _ form _ => some (.upload, form.key)
  | .webDownloadFile _ _ path => some (.download, path)
  | .webGetPresignedUrl _ _ path _ _ _ _ => some (.presignedUrl, path)
  | .webDeleteFile _ _ _ path _ => some (.delete, path)
  | _ => none

variable {α β : Type} {unicode : Unicode} {config : Dict} {role : Option Str} {bucket path : Str}
  {user : UserDict} {permitted : S3Request → Prop} {key : Str}

theorem sends_ofResult_bind {result : Result α} {next : α → S3Program β} {post : β → Prop}
    {faithful : (request : S3Request) → request.Answer → Prop}
    (rest : ∀ value, result = .ok value → (next value).Sends permitted faithful post) :
    (S3Program.ofResult result >>= next).Sends permitted faithful post :=
  (sends_bind _ _ _).mpr rest

theorem sends_bind_pure {program : S3Program α} {result : α → β}
    (sends : program.Sends permitted ListsBelow fun _ => True) :
    (program >>= fun value => pure (result value)).Sends permitted ListsBelow fun _ => True := by
  refine (sends_bind _ _ _).mpr (sends_mono sends fun value _ => ?_)
  exact (sends_ok _ _).mpr trivial

theorem gatedCall_sends {callback : S3Program α}
    (sends : callback.Sends permitted ListsBelow fun _ => True) :
    (gatedCall unicode config role bucket path user callback).Sends permitted ListsBelow
      fun _ => True :=
  sends_ofResult_bind fun _ _ => executeWithS3Retry_sends_iff.mpr sends

theorem prepareListPath_named {listing : ListEntry} (named : path ≠ [])
    (prepared : prepareListPath unicode config role bucket user path = .ok listing) :
    listing.effectivePath = path ∧ listing.virtualDirectories = none := by
  have shown : path.isEmpty = false := by simpa using named
  obtain ⟨validated, -, rest⟩ := bind_eq_ok_iff.mp prepared
  obtain ⟨found, -, rest⟩ := bind_eq_ok_iff.mp rest
  cases found with
  | none =>
      obtain rfl := Except.ok.inj rest
      exact ⟨rfl, rfl⟩
  | some entry =>
      obtain ⟨allowed, -, rest⟩ := bind_eq_ok_iff.mp rest
      obtain ⟨_, -, rest⟩ := bind_eq_ok_iff.mp rest
      obtain ⟨prefixes, -, rest⟩ := bind_eq_ok_iff.mp rest
      cases prefixes with
      | none =>
          obtain rfl := Except.ok.inj rest
          exact ⟨rfl, rfl⟩
      | some list =>
          simp only [shown, Bool.false_eq_true, if_false] at rest
          obtain ⟨_, -, rest⟩ := bind_eq_ok_iff.mp rest
          obtain rfl := Except.ok.inj rest
          exact ⟨rfl, rfl⟩

theorem gatedListing_sends {onVirtual : ListEntry → List FileEntry → α}
    {fetch : ListEntry → S3Program α} (named : path ≠ [])
    (sends : ∀ listing, listing.effectivePath = path →
      (fetch listing).Sends permitted ListsBelow fun _ => True) :
    (gatedListing unicode config role bucket path user onVirtual fetch).Sends permitted ListsBelow
      fun _ => True := by
  refine sends_ofResult_bind fun listing prepared => ?_
  obtain ⟨same, real⟩ := prepareListPath_named named prepared
  rw [real]
  exact executeWithS3Retry_sends_iff.mpr (sends listing same)

theorem onKey_list {params : ListParams} (same : params.searchPrefix = key) :
    OnKey key (.listObjectsV2 params) := by
  intro text member
  exact .inl ((List.mem_singleton.mp member).trans same)

theorem onKey_same {request : S3Request} (same : request.texts = [key]) : OnKey key request := by
  intro text member
  rw [same] at member
  exact .inl (List.mem_singleton.mp member)

theorem listFiles_onKey {pages : Nat} {query : Web.ListQuery} (term : query.search = none)
    (handed : KeyRoute.list.handed path = .ok key) (live : key ≠ []) :
    (Web.listFiles unicode config pages role bucket path user query).Sends (OnKey key) ListsBelow
      fun _ => True := by
  obtain ⟨root, accepted, rfl⟩ := handed_list_iff.mp handed
  have named : root ≠ [] := by
    rintro rfl
    exact live rfl
  have listed (listing : ListEntry) (same : listing.effectivePath = root) {params : ListParams}
      (form : params.searchPrefix = folderPrefix listing.effectivePath) :
      OnKey (folderPrefix root) (.listObjectsV2 params) :=
    onKey_list (form.trans (by rw [same]))
  refine sends_ofResult_bind fun target sanitized => ?_
  obtain rfl : target.2 = root := by
    have again := (sanitizeTarget_path sanitized).symm.trans accepted
    exact Except.ok.inj again
  refine sends_ofResult_bind fun search checked => ?_
  obtain rfl : search = [] := by
    obtain ⟨found, -⟩ := checked_search checked
    rw [term] at found
    exact (Except.ok.inj found).symm
  cases load : query.clientLoad with
  | true =>
      refine sends_ofResult_bind fun chunk _ => sends_bind_pure (gatedListing_sends named ?_)
      intro listing same
      refine sends_bind_pure ?_
      have sends := @clientLoadPages_sends (OnKey (folderPrefix target.2)) ListsBelow
        (fun _ => True) (fun _ => True) target.1 (folderPrefix listing.effectivePath)
        (folderPrefix listing.effectivePath ++ []) (max 1 (min chunk 200000)).toNat
        (fun _ _ => listed listing same (List.append_nil _)) (by simp)
        ((max 1 (min chunk 200000)).toNat / 1000 + 8) query.continuationToken [] [] (by simp)
      exact sends_mono sends fun _ _ => trivial
  | false =>
      simp only [Bool.false_eq_true, if_false]
      cases size : query.maxKeys with
      | none =>
          refine sends_ofResult_bind fun listing prepared => ?_
          obtain ⟨same, real⟩ := prepareListPath_named named prepared
          rw [real]
          refine sends_bind_pure (gatedListing_sends (same.symm ▸ named) fun again same' => ?_)
          refine sends_bind_pure (sends_mono (paginate_sends ?_ pages) fun _ _ => trivial)
          exact fun _ => listed again (same'.trans same) rfl
      | some maxKeys =>
          refine sends_bind_pure (gatedListing_sends named fun listing same => ?_)
          have called {params : ListParams}
              (form : params.searchPrefix = folderPrefix listing.effectivePath) :
              (S3Program.call (.listObjectsV2 params)).Sends (OnKey (folderPrefix target.2))
                ListsBelow fun _ => True :=
            (sends_call _ _).mpr ⟨listed listing same form, fun _ _ => trivial⟩
          refine (sends_bind _ _ _).mpr (@sends_mono _ _ _ (fun _ => True) _ _ ?_
            fun _ _ => sends_bind_pure (called rfl))
          cases query.continuationToken with
          | none => exact sends_bind_pure (called rfl)
          | some token => exact (sends_ok _ _).mpr trivial

theorem deleteObjectForRole_onKey {pages : Nat} :
    (deleteObjectForRole unicode config pages role bucket path user).Sends
      (OnKey (deleteText path)) ListsBelow fun _ => True := by
  refine gatedCall_sends (sends_bind_pure ?_)
  cases slash : endsWith path ['/'] with
  | true =>
      have form : deleteText path = rstripSlash path ++ ['/'] := by rw [deleteText, if_pos slash]
      have ends : endsWith (deleteText path) ['/'] = true :=
        endsWith_slash_iff.mpr ⟨_, form⟩
      simp only [deletePathKeys, slash, if_true]
      refine deleteDirectory_sends (fun _ => onKey_list form.symm) fun keys below key member => ?_
      exact .inr ⟨ends, form.symm ▸ below key member⟩
  | false =>
      have form : deleteText path = path := by simp [deleteText, slash]
      have same : rstripSlash path = path := rstripSlash_eq_self slash
      simp only [deletePathKeys, slash, Bool.false_eq_true, if_false, form, deleteSingle, same,
        sends_bind, sends_call]
      refine ⟨onKey_list rfl, fun page _ => ?_⟩
      cases page.contents with
      | nil => simp
      | cons object rest =>
          dsimp only
          split
          · refine sends_bind_pure ((sends_call _ _).mpr ⟨onKey_same ?_, fun _ _ => trivial⟩)
            exact congrArg (fun text => [text]) same
          · simp

/-- A web route that takes a key from its path makes all its requests for that key. -/
theorem requests_onKey (operation : StorageOperation) {route : KeyRoute}
    (sent : operation.routed = some (route, path)) (handed : route.handed path = .ok key)
    (live : key ≠ []) :
    (operation.program unicode config user).Sends (OnKey key) ListsBelow fun _ => True := by
  have same {target : Str × Str} {name : Str} {text : Str}
      (accepted : sanitizePath text = .ok key)
      (sanitized : Web.sanitizeTarget unicode name text = .ok target) : target.2 = key :=
    Except.ok.inj ((sanitizeTarget_path sanitized).symm.trans accepted)
  cases operation with
  | webListFiles pages role bucketName text query =>
      cases term : query.search with
      | some term' => simp [StorageOperation.routed, term] at sent
      | none =>
          obtain ⟨rfl, rfl⟩ : KeyRoute.list = route ∧ text = path := by
            simpa [StorageOperation.routed, term] using sent
          exact listFiles_onKey term handed live
  | webUploadFile role bucketName form maxFileSize =>
      obtain ⟨rfl, rfl⟩ : KeyRoute.upload = route ∧ form.key = path := by
        simpa [StorageOperation.routed] using sent
      have accepted := (handed_key_iff (.inr (.inr rfl))).mp handed
      refine sends_ofResult_bind fun target sanitized => ?_
      obtain rfl := same accepted sanitized
      refine sends_ofResult_bind fun _ _ => sends_ofResult_bind fun disposition _ => ?_
      refine sends_bind_pure (gatedCall_sends ?_)
      exact (sends_call _ _).mpr ⟨onKey_same rfl, fun _ _ => trivial⟩
  | webDownloadFile role bucketName text =>
      obtain ⟨rfl, rfl⟩ : KeyRoute.download = route ∧ text = path := by
        simpa [StorageOperation.routed] using sent
      have accepted := (handed_key_iff (.inl rfl)).mp handed
      refine sends_ofResult_bind fun target sanitized => ?_
      obtain rfl := same accepted sanitized
      refine sends_bind_pure (gatedCall_sends ((sends_mapError _ _ _).mpr ?_))
      exact (sends_call _ _).mpr ⟨onKey_same rfl, fun _ _ => trivial⟩
  | webGetPresignedUrl role bucketName text op defaultTtl maxTtl expiresIn =>
      obtain ⟨rfl, rfl⟩ : KeyRoute.presignedUrl = route ∧ text = path := by
        simpa [StorageOperation.routed] using sent
      have accepted := (handed_key_iff (.inr (.inl rfl))).mp handed
      simp only [StorageOperation.program, Web.getPresignedUrl]
      split
      · exact fun _ claim => by simp [Web.raiseHttp, raise] at claim
      · refine sends_ofResult_bind fun ttl _ => sends_ofResult_bind fun target sanitized => ?_
        obtain rfl := same accepted sanitized
        refine sends_ofResult_bind fun validated _ => gatedCall_sends ?_
        exact (sends_call _ _).mpr ⟨onKey_same rfl, fun _ _ => trivial⟩
  | webDeleteFile pages role bucketName text disableDeletionEnv =>
      obtain ⟨rfl, rfl⟩ : KeyRoute.delete = route ∧ text = path := by
        simpa [StorageOperation.routed] using sent
      obtain ⟨sanitized, accepted, -, form⟩ := handed_delete_iff.mp handed
      simp only [StorageOperation.program, Web.deleteFile]
      split
      · exact fun _ claim => by simp [Web.raiseHttp, raise] at claim
      · refine sends_ofResult_bind fun target clean => ?_
        obtain rfl : target.2 = sanitized :=
          Except.ok.inj ((sanitizeTarget_path clean).symm.trans accepted)
        split
        · exact fun _ claim => by simp [Web.raiseHttp, raise] at claim
        · rw [form, ← deleteText_deletePath accepted]
          exact deleteObjectForRole_onKey
  | _ => simp [StorageOperation.routed] at sent

end Requests

end S3Manager.Doors
