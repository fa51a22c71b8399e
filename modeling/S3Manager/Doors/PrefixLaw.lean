import S3Manager.Mcp.Tools
import S3Manager.Storage.PrefixLaw
import S3Manager.Web.Routes

/-! The prefix law at the two doors: every MCP tool and every web route that
touches keys, with the text each of them sends for the path it checks. -/

set_option autoImplicit false

namespace S3Manager.Doors

open Python Utils Access Storage Library

inductive StorageOperation where
  | mcpListFiles (pages : Nat) (role : Option Str) (bucket path : Str) (recursive : Bool)
      (maxKeys : Option Int) (continuationToken : Option Str)
  | mcpBucketSummary (pages : Nat) (role : Option Str) (bucket path : Str)
  | mcpUploadFile (token : Mcp.Token) (role : Option Str) (bucket path : Str)
      (maxFileSize estimatedSize : Int) (content : Bytes)
  | mcpDeleteFile (pages : Nat) (token : Mcp.Token) (role : Option Str) (bucket path : Str)
  | mcpReadFile (rules : Mcp.TextRules) (token : Mcp.Token) (role : Option Str)
      (bucket path : Str) (forceText : Bool)
  | mcpCopyObject (pages : Nat) (token : Mcp.Token) (role : Option Str)
      (sourceBucket sourcePath destBucket destPath : Str) (deleteSource : Bool)
  | mcpGetObjectMetadata (role : Option Str) (bucket path : Str)
  | mcpPresignedUrl (role : Option Str) (bucket path : Str) (expiresIn : Int)
  | webListFiles (pages : Nat) (role : Option Str) (bucketName path : Str) (query : Web.ListQuery)
  | webUploadFile (role : Option Str) (bucketName : Str) (form : Web.UploadForm)
      (maxFileSize : Int)
  | webDownloadFile (role : Option Str) (bucketName path : Str)
  | webGetPresignedUrl (role bucketName path op : Str) (defaultTtl maxTtl : Int)
      (expiresIn : Option Int)
  | webDeleteFile (pages : Nat) (role : Option Str) (bucketName path : Str)
      (disableDeletionEnv : Bool)

namespace StorageOperation

def role : StorageOperation → Option Str
  | .mcpListFiles _ role _ _ _ _ _ | .mcpBucketSummary _ role _ _ => role
  | .mcpUploadFile _ role _ _ _ _ _ | .mcpDeleteFile _ _ role _ _ => role
  | .mcpReadFile _ _ role _ _ _ | .mcpCopyObject _ _ role _ _ _ _ _ => role
  | .mcpGetObjectMetadata role _ _ | .mcpPresignedUrl role _ _ _ => role
  | .webListFiles _ role _ _ _ | .webUploadFile role _ _ _ | .webDownloadFile role _ _ => role
  | .webGetPresignedUrl role _ _ _ _ _ _ => some role
  | .webDeleteFile _ role _ _ _ => role

def Answer : StorageOperation → Type
  | .mcpListFiles _ _ _ _ _ _ _ => Mcp.ListFilesAnswer
  | .mcpBucketSummary _ _ _ _ => BucketSummary
  | .mcpDeleteFile _ _ _ _ _ | .webDeleteFile _ _ _ _ _ => DeleteResult
  | .mcpGetObjectMetadata _ _ _ => ObjectHead
  | .mcpUploadFile _ _ _ _ _ _ _ | .mcpCopyObject _ _ _ _ _ _ _ _ => Unit
  | .webListFiles _ _ _ _ _ => Web.ListAnswer
  | .webDownloadFile _ _ _ => Str × ObjectBody
  | .mcpReadFile _ _ _ _ _ _ => Mcp.FileText
  | .mcpPresignedUrl _ _ _ _ => Str
  | .webUploadFile _ _ _ _ | .webGetPresignedUrl _ _ _ _ _ _ _ => Str

def program (unicode : Unicode) (config : Dict) (user : UserDict) :
    (operation : StorageOperation) → S3Program operation.Answer
  | .mcpListFiles pages role bucket path recursive maxKeys continuationToken =>
      Mcp.listFiles unicode config pages role bucket path user recursive maxKeys continuationToken
  | .mcpBucketSummary pages role bucket path =>
      Mcp.bucketSummary unicode config pages role bucket path user
  | .mcpUploadFile token role bucket path maxFileSize estimatedSize content =>
      Mcp.uploadFile unicode config token role bucket path user maxFileSize estimatedSize content
  | .mcpDeleteFile pages token role bucket path =>
      Mcp.deleteFile unicode config pages token role bucket path user
  | .mcpReadFile rules token role bucket path forceText =>
      Mcp.readFile unicode config rules token role bucket path user forceText
  | .mcpCopyObject pages token role sourceBucket sourcePath destBucket destPath deleteSource =>
      Mcp.copyObject unicode config pages token role sourceBucket sourcePath destBucket destPath
        user deleteSource
  | .mcpGetObjectMetadata role bucket path =>
      Mcp.getObjectMetadata unicode config role bucket path user
  | .mcpPresignedUrl role bucket path expiresIn =>
      Mcp.presignedUrl unicode config role bucket path user expiresIn
  | .webListFiles pages role bucketName path query =>
      Web.listFiles unicode config pages role bucketName path user query
  | .webUploadFile role bucketName form maxFileSize =>
      Web.uploadFile unicode config role bucketName form user maxFileSize
  | .webDownloadFile role bucketName path =>
      Web.downloadFile unicode config role bucketName path user
  | .webGetPresignedUrl role bucketName path op defaultTtl maxTtl expiresIn =>
      Web.getPresignedUrl unicode config role bucketName path user op defaultTtl maxTtl expiresIn
  | .webDeleteFile pages role bucketName path disableDeletionEnv =>
      Web.deleteFile unicode config pages role bucketName path user disableDeletionEnv

/-- A listed path, and the prefix that is listed for it. For an empty path the
prefix is not made from the path. -/
def folderTexts (path search : Str) : List (Str × Str) :=
  if path.isEmpty then [] else [(path, path ++ '/' :: search)]

/-- The texts of a route for the path it sanitized. -/
def sanitizedTexts (path : Str) (texts : Str → List (Str × Str)) : List (Str × Str) :=
  match sanitizePath path with
  | .ok sanitized => texts sanitized
  | .error _ => []

/-- Each path an operation hands to the gate, with the text it sends for it. -/
def texts : StorageOperation → List (Str × Str)
  | .mcpListFiles _ _ _ path _ _ _ | .mcpBucketSummary _ _ _ path =>
      folderTexts (stripSlash path) []
  | .mcpUploadFile _ _ _ path _ _ _ | .mcpReadFile _ _ _ _ path _ => [(path, path)]
  | .mcpGetObjectMetadata _ _ path | .mcpPresignedUrl _ _ path _ => [(path, path)]
  | .mcpDeleteFile _ _ _ _ path => [(path, deleteText path)]
  | .mcpCopyObject _ _ _ _ sourcePath _ destPath deleteSource =>
      [(sourcePath, sourcePath), (destPath, destPath)] ++
        if deleteSource then [(sourcePath, deleteText sourcePath)] else []
  | .webListFiles _ _ _ path query =>
      match sanitizeSearchPrefix (query.search.getD []) with
      | .ok search => sanitizedTexts path fun path => folderTexts path search
      | .error _ => []
  | .webUploadFile _ _ form _ => sanitizedTexts form.key fun key => [(key, key)]
  | .webDownloadFile _ _ path | .webGetPresignedUrl _ _ path _ _ _ _ =>
      sanitizedTexts path fun path => [(path, path)]
  | .webDeleteFile _ _ _ path _ =>
      sanitizedTexts path fun sanitized =>
        [(Web.deletePath path sanitized, deleteText (Web.deletePath path sanitized))]

end StorageOperation

open StorageOperation

section Listings

variable {unicode : Unicode} {config : Dict} {user : UserDict} {role : Option Str}
  {prefixes : List Json} {bucket path : Str} {listing : ListEntry}

/-- The listed prefix is covered exactly when blanks do no harm to a path that was
asked for; the prefix listed for an empty path always is. -/
theorem folder_iff (restricted : RestrictedTo config user role prefixes)
    (prepared : prepareListPath unicode config role bucket user path = .ok listing)
    (real : listing.virtualDirectories = none) (search : Str) :
    Covered prefixes (folderPrefix listing.effectivePath ++ search) ↔
      ∀ text ∈ folderTexts path search, BlanksHarmless prefixes text.1 text.2 := by
  obtain ⟨accepted, cases⟩ := prepareListPath_restricted restricted prepared real
  have live : listing.effectivePath.isEmpty = false := by simpa using accepted.shape.1
  have listed : folderPrefix listing.effectivePath ++ search =
      listing.effectivePath ++ '/' :: search := by
    simp [folderPrefix, live]
  rw [listed]
  rcases cases with ⟨same, nonempty⟩ | ⟨rfl, single⟩
  · rw [same] at accepted ⊢
    have shown : path.isEmpty = false := by simpa using nonempty
    simp only [folderTexts, shown, Bool.false_eq_true, if_false, List.mem_singleton, forall_eq]
    exact covered_iff_blanksHarmless accepted (.below search)
  · simp only [folderTexts, List.isEmpty_nil, if_true, List.not_mem_nil, false_implies,
      implies_true, iff_true]
    exact covered_substituted single accepted search

end Listings

section Mcp

variable {unicode : Unicode} {config : Dict} {user : UserDict} {role : Option Str}
  {prefixes : List Json} {bucket path : Str}

theorem mcpListFiles_iff {pages : Nat} {recursive : Bool} {maxKeys : Option Int}
    {continuationToken : Option Str} (restricted : RestrictedTo config user role prefixes)
    (reaches : ¬ Silent (Mcp.listFiles unicode config pages role bucket path user recursive
      maxKeys continuationToken)) :
    LawAbiding prefixes (Mcp.listFiles unicode config pages role bucket path user recursive
        maxKeys continuationToken) ↔
      ∀ text ∈ folderTexts (stripSlash path) [], BlanksHarmless prefixes text.1 text.2 := by
  obtain ⟨limits, limited, reaches⟩ := passed_of_reaches reaches
  obtain ⟨_, checked, reaches⟩ := passed_of_reaches reaches
  simp only [Mcp.listFiles, limited, checked, ofResult_ok_bind]
  cases recursive with
  | true =>
      simp only [if_true] at reaches ⊢
      obtain ⟨listing, prepared, real⟩ :=
        gatedListing_prepared (reaches_of_bind reaches fun _ => silent_pure _)
      refine (lawAbiding_bind_pure _).trans
        ((listObjectsRecursiveForRole_fetch prepared real).trans ?_)
      rw [rstripSlash_folderPrefix] at prepared
      simpa using folder_iff restricted prepared real []
  | false =>
      simp only [Bool.false_eq_true, if_false] at reaches ⊢
      have quiet (files : List FileEntry) : Silent
          (if max 1 (min (maxKeys.getD limits.1) limits.2) < files.length then
            pure (Mcp.ListFilesAnswer.level
              (files.take (max 1 (min (maxKeys.getD limits.1) limits.2)).toNat)
              (some (max 1 (min (maxKeys.getD limits.1) limits.2)).toNat))
          else pure (.level files none)) := by
        split <;> exact silent_pure _
      obtain ⟨listing, prepared, real⟩ := gatedListing_prepared (reaches_of_bind reaches quiet)
      refine (lawAbiding_bind_silent quiet).trans
        ((listObjectsForRole_fetch prepared real).trans ?_)
      simpa using folder_iff restricted prepared real []

theorem mcpBucketSummary_iff {pages : Nat} (restricted : RestrictedTo config user role prefixes)
    (reaches : ¬ Silent (Mcp.bucketSummary unicode config pages role bucket path user)) :
    LawAbiding prefixes (Mcp.bucketSummary unicode config pages role bucket path user) ↔
      ∀ text ∈ folderTexts (stripSlash path) [], BlanksHarmless prefixes text.1 text.2 := by
  obtain ⟨maxKeys, limited, reaches⟩ := passed_of_reaches reaches
  obtain ⟨scanPages, scanned, reaches⟩ := passed_of_reaches reaches
  obtain ⟨_, checked, reaches⟩ := passed_of_reaches reaches
  simp only [Mcp.bucketSummary, limited, scanned, checked, ofResult_ok_bind]
  obtain ⟨listing, prepared, real⟩ := gatedListing_prepared reaches
  refine (summarizeBucketForRole_fetch prepared real).trans ?_
  rw [rstripSlash_folderPrefix] at prepared
  simpa using folder_iff restricted prepared real []

theorem same_iff (accepted : GateAccepts prefixes path) :
    Covered prefixes path ↔
      ∀ text ∈ [(path, path)], BlanksHarmless prefixes text.1 text.2 := by
  simpa using covered_iff_blanksHarmless accepted .same

theorem delete_iff (accepted : GateAccepts prefixes path) :
    Covered prefixes (deleteText path) ↔
      ∀ text ∈ [(path, deleteText path)], BlanksHarmless prefixes text.1 text.2 := by
  simpa using covered_iff_blanksHarmless accepted (deleteText_sentFor path)

theorem gatedCall_same_iff {α : Type} {callback : S3Program α}
    (restricted : RestrictedTo config user role prefixes)
    (sent : LawAbiding prefixes callback ↔ Covered prefixes path)
    (reaches : ¬ Silent (gatedCall unicode config role bucket path user callback)) :
    LawAbiding prefixes (gatedCall unicode config role bucket path user callback) ↔
      ∀ text ∈ [(path, path)], BlanksHarmless prefixes text.1 text.2 := by
  obtain ⟨validated, accepted⟩ := gate_of_reaches reaches
  exact (gatedCall_iff accepted).trans
    (sent.trans (same_iff (gateAccepts_of_validated restricted accepted)))

theorem deleteObjectForRole_texts {pages : Nat}
    (restricted : RestrictedTo config user role prefixes)
    (reaches : ¬ Silent (deleteObjectForRole unicode config pages role bucket path user)) :
    LawAbiding prefixes (deleteObjectForRole unicode config pages role bucket path user) ↔
      ∀ text ∈ [(path, deleteText path)], BlanksHarmless prefixes text.1 text.2 := by
  obtain ⟨validated, accepted⟩ := gate_of_reaches reaches
  exact (deleteObjectForRole_iff restricted accepted).trans
    (delete_iff (gateAccepts_of_validated restricted accepted))

theorem call_sent {request : S3Request} (single : request.texts = [path]) :
    LawAbiding prefixes (S3Program.call request) ↔ Covered prefixes path :=
  call_iff.trans (by simp [Lawful, single])

theorem readCalls_sent (accepted : ∃ validated,
      validateStorageAccess config role bucket user path = .ok validated)
    (covered : Covered prefixes path) :
    LawAbiding prefixes (headObjectForRole unicode config role bucket path user) ∧
      (∀ first last, LawAbiding prefixes
        (readObjectRangeForRole unicode config role bucket path first last user)) ∧
      LawAbiding prefixes (readObjectForRole unicode config role bucket path user) := by
  obtain ⟨validated, passed⟩ := accepted
  refine ⟨?_, fun first last => ?_, ?_⟩
  · exact (gatedCall_iff passed).mpr
      ((lawAbiding_bind_pure _).mpr (mapError_iff.mpr ((call_sent rfl).mpr covered)))
  · exact (gatedCall_iff passed).mpr
      ((lawAbiding_bind_pure _).mpr (mapError_iff.mpr ((call_sent rfl).mpr covered)))
  · exact (gatedCall_iff passed).mpr
      ((lawAbiding_bind_pure _).mpr (mapError_iff.mpr ((call_sent rfl).mpr covered)))

theorem mcpReadFile_iff {rules : Mcp.TextRules} {token : Mcp.Token} {forceText : Bool}
    (restricted : RestrictedTo config user role prefixes)
    (reaches : ¬ Silent (Mcp.readFile unicode config rules token role bucket path user
      forceText)) :
    LawAbiding prefixes (Mcp.readFile unicode config rules token role bucket path user
        forceText) ↔
      ∀ text ∈ [(path, path)], BlanksHarmless prefixes text.1 text.2 := by
  cases capped : Mcp.effectiveMax config token with
  | error exc =>
      unfold Mcp.readFile at reaches
      rw [capped] at reaches
      exact absurd ⟨.error exc, rfl⟩ reaches
  | ok limit =>
  unfold Mcp.readFile at reaches
  rw [capped, ofResult_ok_bind] at reaches
  obtain ⟨validated, accepted⟩ := gate_of_bind_reaches reaches
  refine Iff.trans ⟨fun abides => ?_, fun covered => ?_⟩
    (same_iff (gateAccepts_of_validated restricted accepted))
  · unfold Mcp.readFile at abides
    rw [capped, ofResult_ok_bind] at abides
    have called := (gatedCall_iff accepted).mp (lawAbiding_of_bind abides)
    exact (call_sent rfl).mp (mapError_iff.mp (lawAbiding_of_bind called))
  · obtain ⟨head, range, body⟩ := @readCalls_sent unicode _ _ _ _ _ _ ⟨validated, accepted⟩ covered
    exact Mcp.readFile_of_parts (LawAbiding prefixes) lawAbiding_ofResult lawAbiding_bind head
      (range 0 8191) body

theorem mcpUploadFile_iff {token : Mcp.Token} {maxFileSize estimatedSize : Int} {content : Bytes}
    (restricted : RestrictedTo config user role prefixes)
    (reaches : ¬ Silent (Mcp.uploadFile unicode config token role bucket path user maxFileSize
      estimatedSize content)) :
    LawAbiding prefixes (Mcp.uploadFile unicode config token role bucket path user maxFileSize
        estimatedSize content) ↔
      ∀ text ∈ [(path, path)], BlanksHarmless prefixes text.1 text.2 := by
  obtain ⟨_, allowed, reaches⟩ := passed_of_reaches reaches
  simp only [Mcp.uploadFile, allowed, ofResult_ok_bind]
  split at reaches
  · exact absurd ⟨_, rfl⟩ reaches
  · next fits =>
      rw [if_neg fits]
      exact gatedCall_same_iff restricted (call_sent rfl) reaches

theorem mcpDeleteFile_iff {pages : Nat} {token : Mcp.Token}
    (restricted : RestrictedTo config user role prefixes)
    (reaches : ¬ Silent (Mcp.deleteFile unicode config pages token role bucket path user)) :
    LawAbiding prefixes (Mcp.deleteFile unicode config pages token role bucket path user) ↔
      ∀ text ∈ [(path, deleteText path)], BlanksHarmless prefixes text.1 text.2 := by
  obtain ⟨_, allowed, reaches⟩ := passed_of_reaches reaches
  simp only [Mcp.deleteFile, allowed, ofResult_ok_bind]
  exact deleteObjectForRole_texts restricted reaches

theorem mcpPresignedUrl_iff {expiresIn : Int} (restricted : RestrictedTo config user role prefixes)
    (reaches : ¬ Silent (Mcp.presignedUrl unicode config role bucket path user expiresIn)) :
    LawAbiding prefixes (Mcp.presignedUrl unicode config role bucket path user expiresIn) ↔
      ∀ text ∈ [(path, path)], BlanksHarmless prefixes text.1 text.2 := by
  obtain ⟨maxTtl, limited, reaches⟩ := passed_of_reaches reaches
  simp only [Mcp.presignedUrl, limited, ofResult_ok_bind]
  exact gatedCall_same_iff restricted (call_sent rfl) reaches

theorem copyThen_iff {β : Type} {sourceBucket sourcePath destBucket destPath : Str}
    {source dest : Option Str} {next : Unit → S3Program β}
    (sourceAccepted : validateStorageAccess config role sourceBucket user sourcePath = .ok source)
    (destAccepted : validateStorageAccess config role destBucket user destPath = .ok dest) :
    LawAbiding prefixes (copyObjectForRole unicode config role sourceBucket sourcePath destBucket
        destPath user >>= next) ↔
      (Covered prefixes sourcePath ∧ Covered prefixes destPath) ∧ LawAbiding prefixes (next ()) := by
  have copied : LawAbiding prefixes (copyObjectForRole unicode config role sourceBucket sourcePath
      destBucket destPath user) ↔ Covered prefixes sourcePath ∧ Covered prefixes destPath :=
    copyObjectForRole_iff sourceAccepted destAccepted
  constructor
  · intro abides
    refine ⟨copied.mp (lawAbiding_of_bind abides), ?_⟩
    have checked := (validateStorageAccess_ok_iff.mp sourceAccepted).1
    have sends := (sends_bind _ _ _).mp abides
    simp only [copyObjectForRole, sourceAccepted, destAccepted, checked, ofResult_ok_bind,
      executeWithS3Retry_sends_iff] at sends
    have called := (sends_mapError _ _ _).mp sends
    exact ((sends_call (.copyObject destBucket destPath sourceBucket sourcePath) _).mp called).2
      () trivial
  · rintro ⟨covered, rest⟩
    exact lawAbiding_bind (copied.mpr covered) fun _ => rest

theorem mcpCopyObject_iff {pages : Nat} {token : Mcp.Token}
    {sourceBucket sourcePath destBucket destPath : Str} {deleteSource : Bool}
    (restricted : RestrictedTo config user role prefixes)
    (reaches : ¬ Silent (Mcp.copyObject unicode config pages token role sourceBucket sourcePath
      destBucket destPath user deleteSource)) :
    LawAbiding prefixes (Mcp.copyObject unicode config pages token role sourceBucket sourcePath
        destBucket destPath user deleteSource) ↔
      ∀ text ∈ [(sourcePath, sourcePath), (destPath, destPath)] ++
          if deleteSource then [(sourcePath, deleteText sourcePath)] else [],
        BlanksHarmless prefixes text.1 text.2 := by
  obtain ⟨_, writable, reaches⟩ := passed_of_reaches reaches
  obtain ⟨_, movable, reaches⟩ := passed_of_reaches reaches
  simp only [Mcp.copyObject, writable, movable, ofResult_ok_bind]
  have passed : ∃ source dest,
      validateStorageAccess config role sourceBucket user sourcePath = .ok source ∧
        validateStorageAccess config role destBucket user destPath = .ok dest := by
    cases source : validateStorageAccess config role sourceBucket user sourcePath with
    | error exc =>
        refine absurd ⟨.error exc, ?_⟩ reaches
        rw [copyObjectForRole, source]
        rfl
    | ok first =>
        cases dest : validateStorageAccess config role destBucket user destPath with
        | error exc =>
            refine absurd ⟨.error exc, ?_⟩ reaches
            rw [copyObjectForRole, source, dest]
            rfl
        | ok second => exact ⟨first, second, rfl, rfl⟩
  obtain ⟨source, dest, sourceAccepted, destAccepted⟩ := passed
  have sourceGate := gateAccepts_of_validated restricted sourceAccepted
  have destGate := gateAccepts_of_validated restricted destAccepted
  refine (copyThen_iff sourceAccepted destAccepted).trans ?_
  rw [List.forall_mem_append]
  refine and_congr ?_ ?_
  · simpa using and_congr (covered_iff_blanksHarmless sourceGate .same)
      (covered_iff_blanksHarmless destGate .same)
  · cases deleteSource with
    | false => simpa [Mcp.deleteMoved] using lawAbiding_pure _
    | true =>
        simp only [Mcp.deleteMoved, if_true]
        exact (lawAbiding_bind_pure _).trans
          ((deleteObjectForRole_iff restricted sourceAccepted).trans (delete_iff sourceGate))

end Mcp

section Web

variable {unicode : Unicode} {config : Dict} {user : UserDict} {role : Option Str}
  {prefixes : List Json} {bucketName path : Str}

theorem orBadRequest_ok_iff {α : Type} {result : Result α} {value : α} :
    Web.orBadRequest result = .ok value ↔ result = .ok value := by
  cases result with
  | ok found => rfl
  | error exc =>
      simp only [Web.orBadRequest]
      split <;> simp [Web.raiseHttp, raise]

theorem sanitizeTarget_path {target : Str × Str}
    (sanitized : Web.sanitizeTarget unicode bucketName path = .ok target) :
    sanitizePath path = .ok target.2 := by
  obtain ⟨bucket, -, rest⟩ := bind_eq_ok_iff.mp (orBadRequest_ok_iff.mp sanitized)
  obtain ⟨clean, accepted, rest⟩ := bind_eq_ok_iff.mp rest
  obtain rfl := Except.ok.inj rest
  exact accepted

theorem sanitizedTexts_ok {target : Str × Str} {texts : Str → List (Str × Str)}
    (sanitized : Web.sanitizeTarget unicode bucketName path = .ok target) :
    sanitizedTexts path texts = texts target.2 := by
  simp only [sanitizedTexts, sanitizeTarget_path sanitized]

theorem checked_search {query : Web.ListQuery} {search : Str} (checked : query.checked = .ok search) :
    sanitizeSearchPrefix (query.search.getD []) = .ok search ∧
      (query.clientLoad = false → search = []) := by
  obtain ⟨term, accepted, rest⟩ := bind_eq_ok_iff.mp checked
  split at rest
  · simp [Web.raiseHttp, raise] at rest
  · split at rest
    · simp [Web.raiseHttp, raise] at rest
    · next allowed =>
        obtain rfl := Except.ok.inj rest
        refine ⟨orBadRequest_ok_iff.mp accepted, fun plain => ?_⟩
        simpa [plain] using allowed

theorem webListFiles_iff {pages : Nat} {query : Web.ListQuery}
    (restricted : RestrictedTo config user role prefixes)
    (reaches : ¬ Silent (Web.listFiles unicode config pages role bucketName path user query)) :
    LawAbiding prefixes (Web.listFiles unicode config pages role bucketName path user query) ↔
      ∀ text ∈ (StorageOperation.webListFiles pages role bucketName path query).texts,
        BlanksHarmless prefixes text.1 text.2 := by
  obtain ⟨target, sanitized, reaches⟩ := passed_of_reaches reaches
  obtain ⟨search, checked, reaches⟩ := passed_of_reaches reaches
  obtain ⟨term, plain⟩ := checked_search checked
  simp only [Web.listFiles, sanitized, checked, ofResult_ok_bind, StorageOperation.texts, term,
    sanitizedTexts_ok sanitized]
  cases load : query.clientLoad with
  | true =>
      simp only [load, if_true] at reaches ⊢
      obtain ⟨chunk, sized, reaches⟩ := passed_of_reaches reaches
      simp only [sized, ofResult_ok_bind]
      obtain ⟨listing, prepared, real⟩ :=
        gatedListing_prepared (reaches_of_bind reaches fun _ => silent_pure _)
      exact (lawAbiding_bind_pure _).trans ((listObjectsClientLoadForRole_fetch prepared real).trans
        (folder_iff restricted prepared real search))
  | false =>
      obtain rfl := plain load
      simp only [load, Bool.false_eq_true, if_false] at reaches ⊢
      cases size : query.maxKeys with
      | some maxKeys =>
          simp only [size] at reaches ⊢
          obtain ⟨listing, prepared, real⟩ :=
            gatedListing_prepared (reaches_of_bind reaches fun _ => silent_pure _)
          refine (lawAbiding_bind_pure _).trans
            ((listObjectsPaginatedForRole_fetch prepared real).trans ?_)
          simpa using folder_iff restricted prepared real []
      | none =>
          simp only [size] at reaches ⊢
          obtain ⟨listing, prepared, reaches⟩ := passed_of_reaches reaches
          simp only [prepared, ofResult_ok_bind]
          cases real : listing.virtualDirectories with
          | some directories =>
              simp only [real] at reaches
              exact absurd (silent_pure _) reaches
          | none =>
              simp only [real] at reaches ⊢
              obtain ⟨again, prepared', real'⟩ :=
                gatedListing_prepared (reaches_of_bind reaches fun _ => silent_pure _)
              -- The effective path is resolved a second time, to itself.
              have live := (prepareListPath_restricted restricted prepared real).1.shape.1
              have same : again.effectivePath = listing.effectivePath := by
                obtain ⟨-, ⟨same, -⟩ | ⟨empty, -⟩⟩ :=
                  prepareListPath_restricted restricted prepared' real'
                · exact same
                · exact absurd empty live
              refine (lawAbiding_bind_pure _).trans
                ((listObjectsForRole_fetch prepared' real').trans ?_)
              rw [same]
              simpa using folder_iff restricted prepared real []

theorem webUploadFile_iff {form : Web.UploadForm} {maxFileSize : Int}
    (restricted : RestrictedTo config user role prefixes)
    (reaches : ¬ Silent (Web.uploadFile unicode config role bucketName form user maxFileSize)) :
    LawAbiding prefixes (Web.uploadFile unicode config role bucketName form user maxFileSize) ↔
      ∀ text ∈ sanitizedTexts form.key fun key => [(key, key)],
        BlanksHarmless prefixes text.1 text.2 := by
  obtain ⟨target, sanitized, reaches⟩ := passed_of_reaches reaches
  obtain ⟨_, fits, reaches⟩ := passed_of_reaches reaches
  obtain ⟨disposition, decided, reaches⟩ := passed_of_reaches reaches
  simp only [Web.uploadFile, sanitized, fits, decided, ofResult_ok_bind,
    sanitizedTexts_ok sanitized]
  exact (lawAbiding_bind_pure _).trans (gatedCall_same_iff restricted (call_sent rfl)
    (reaches_of_bind reaches fun _ => silent_pure _))

theorem webDownloadFile_iff (restricted : RestrictedTo config user role prefixes)
    (reaches : ¬ Silent (Web.downloadFile unicode config role bucketName path user)) :
    LawAbiding prefixes (Web.downloadFile unicode config role bucketName path user) ↔
      ∀ text ∈ sanitizedTexts path fun path => [(path, path)],
        BlanksHarmless prefixes text.1 text.2 := by
  obtain ⟨target, sanitized, reaches⟩ := passed_of_reaches reaches
  simp only [Web.downloadFile, sanitized, ofResult_ok_bind, sanitizedTexts_ok sanitized]
  exact (lawAbiding_bind_pure _).trans (gatedCall_same_iff restricted
    (mapError_iff.trans (call_sent rfl)) (reaches_of_bind reaches fun _ => silent_pure _))

theorem webGetPresignedUrl_iff {name op : Str} {defaultTtl maxTtl : Int} {expiresIn : Option Int}
    (restricted : RestrictedTo config user (some name) prefixes)
    (reaches : ¬ Silent (Web.getPresignedUrl unicode config name bucketName path user op
      defaultTtl maxTtl expiresIn)) :
    LawAbiding prefixes (Web.getPresignedUrl unicode config name bucketName path user op
        defaultTtl maxTtl expiresIn) ↔
      ∀ text ∈ sanitizedTexts path fun path => [(path, path)],
        BlanksHarmless prefixes text.1 text.2 := by
  unfold Web.getPresignedUrl at reaches ⊢
  split at reaches
  · exact absurd ⟨_, rfl⟩ reaches
  · next supported =>
      rw [if_neg supported]
      obtain ⟨ttl, granted, reaches⟩ := passed_of_reaches reaches
      obtain ⟨target, sanitized, reaches⟩ := passed_of_reaches reaches
      obtain ⟨validated, checked, reaches⟩ := passed_of_reaches reaches
      obtain rfl := Web.validateRoleAccessHttp_ok checked
      simp only [granted, sanitized, checked, ofResult_ok_bind, sanitizedTexts_ok sanitized,
        ite_self] at reaches ⊢
      exact gatedCall_same_iff restricted (call_sent rfl) reaches

theorem webDeleteFile_iff {pages : Nat} {disableDeletionEnv : Bool}
    (restricted : RestrictedTo config user role prefixes)
    (reaches : ¬ Silent (Web.deleteFile unicode config pages role bucketName path user
      disableDeletionEnv)) :
    LawAbiding prefixes (Web.deleteFile unicode config pages role bucketName path user
        disableDeletionEnv) ↔
      ∀ text ∈ sanitizedTexts path fun sanitized =>
          [(Web.deletePath path sanitized, deleteText (Web.deletePath path sanitized))],
        BlanksHarmless prefixes text.1 text.2 := by
  unfold Web.deleteFile at reaches ⊢
  split at reaches
  · exact absurd ⟨_, rfl⟩ reaches
  · next enabled =>
      rw [if_neg enabled]
      obtain ⟨target, sanitized, reaches⟩ := passed_of_reaches reaches
      simp only [sanitized, ofResult_ok_bind, sanitizedTexts_ok sanitized]
      split at reaches
      · exact absurd ⟨_, rfl⟩ reaches
      · next nonempty =>
          rw [if_neg nonempty]
          exact deleteObjectForRole_texts restricted reaches

end Web

section Soundness

variable {unicode : Unicode} {config : Dict} {user : UserDict} {prefixes : List Json}

/-- An operation of a restricted role keeps the prefix law exactly when the blanks
around the paths it checks make no difference to what it sends. -/
theorem lawAbiding_iff (operation : StorageOperation)
    (restricted : RestrictedTo config user operation.role prefixes)
    (reaches : ¬ Silent (operation.program unicode config user)) :
    LawAbiding prefixes (operation.program unicode config user) ↔
      ∀ text ∈ operation.texts, BlanksHarmless prefixes text.1 text.2 := by
  cases operation with
  | mcpListFiles => exact mcpListFiles_iff restricted reaches
  | mcpBucketSummary => exact mcpBucketSummary_iff restricted reaches
  | mcpUploadFile => exact mcpUploadFile_iff restricted reaches
  | mcpDeleteFile => exact mcpDeleteFile_iff restricted reaches
  | mcpReadFile => exact mcpReadFile_iff restricted reaches
  | mcpCopyObject => exact mcpCopyObject_iff restricted reaches
  | mcpGetObjectMetadata =>
      exact gatedCall_same_iff restricted
        ((lawAbiding_bind_pure _).trans (mapError_iff.trans (call_sent rfl))) reaches
  | mcpPresignedUrl => exact mcpPresignedUrl_iff restricted reaches
  | webListFiles => exact webListFiles_iff restricted reaches
  | webUploadFile => exact webUploadFile_iff restricted reaches
  | webDownloadFile => exact webDownloadFile_iff restricted reaches
  | webGetPresignedUrl => exact webGetPresignedUrl_iff restricted reaches
  | webDeleteFile => exact webDeleteFile_iff restricted reaches

/-- A role that is restricted to one folder. -/
def standConfig : Dict :=
  [(lit "roles", .arr [.obj
    [(lit "name", .str (lit "stand")), (lit "type", .str (lit "default")),
      (lit "allowed_prefixes", .arr [.str (lit "stand-a/")])]])]

def standUser : UserDict where
  isAdmin := false
  allowedRoles := [lit "stand"]
  defaultRole := none

def uploadTo (path : Str) : StorageOperation :=
  .mcpUploadFile ⟨false, 0⟩ (some (lit "stand")) (lit "data") path 10 1 [0]

theorem standConfig_restricted :
    RestrictedTo standConfig standUser (some (lit "stand")) [.str (lit "stand-a/")] :=
  ⟨_, _, rfl, rfl, rfl⟩

theorem uploadTo_reaches {path : Str} {validated : Option Str}
    (accepted : validateStorageAccess standConfig (some (lit "stand")) (lit "data") standUser
      path = .ok validated) :
    ¬ Silent ((uploadTo path).program Unicode.ascii standConfig standUser) := by
  rintro ⟨result, silent⟩
  have sent : (uploadTo path).program Unicode.ascii standConfig standUser =
      gatedCall Unicode.ascii standConfig (some (lit "stand")) (lit "data") path standUser
        (S3Program.call (.putObject (lit "data") path [0] (lit "application/octet-stream") none)) :=
    rfl
  rw [sent, gatedCall, accepted] at silent
  change Program.perform (Effect.getClient validated) _ = Program.pure result at silent
  cases silent

/-- An upload below the folder, with its hypotheses met. -/
theorem lawAbiding_upload :
    LawAbiding [.str (lit "stand-a/")]
        ((uploadTo (lit "stand-a/x")).program Unicode.ascii standConfig standUser) ↔
      ∀ text ∈ (uploadTo (lit "stand-a/x")).texts,
        BlanksHarmless [.str (lit "stand-a/")] text.1 text.2 :=
  lawAbiding_iff (uploadTo (lit "stand-a/x")) standConfig_restricted
    (@uploadTo_reaches _ (some (lit "stand")) rfl)

/-- A blank in front of the path is trimmed for the gate, and sent. -/
theorem blank_upload_outside :
    ¬ ∀ (unicode : Unicode) (config : Dict) (user : UserDict) (prefixes : List Json)
        (operation : StorageOperation),
        RestrictedTo config user operation.role prefixes →
        ¬ Silent (operation.program unicode config user) →
        LawAbiding prefixes (operation.program unicode config user) := by
  intro sound
  have accepted : validateStorageAccess standConfig (some (lit "stand")) (lit "data") standUser
      (lit " stand-a/x") = .ok (some (lit "stand")) := rfl
  have abides := sound Unicode.ascii standConfig standUser [.str (lit "stand-a/")]
    (uploadTo (lit " stand-a/x")) standConfig_restricted (uploadTo_reaches accepted)
  have sends := (@gatedCall_iff _ Unicode.ascii _ _ _ _ _ _ _ _ accepted).mp abides
  obtain ⟨raw, member, -, under⟩ := (call_sent rfl).mp sends
  obtain rfl : raw = lit "stand-a/" := by simpa using member
  rcases under with same | below
  · exact absurd same (by decide)
  · exact absurd below (by decide)

end Soundness

end S3Manager.Doors
