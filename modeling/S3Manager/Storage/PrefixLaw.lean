import S3Manager.Access.PrefixCover
import S3Manager.Storage.Objects

/-! The prefix law of the storage helpers: which keys and prefixes they send to S3
for a role that is restricted to prefixes. -/

set_option autoImplicit false

namespace S3Manager.Storage

open Python Access Library

/-- Every key a request reads, writes, deletes or signs, and every listed prefix. -/
def S3Request.texts : S3Request → List Str
  | .listObjectsV2 params => [params.searchPrefix]
  | .headObject _ key | .getObject _ key _ | .putObject _ key _ _ _ => [key]
  | .uploadFileobj _ key _ _ _ | .deleteObject _ key => [key]
  | .generatePresignedUrl _ key _ _ => [key]
  | .copyObject _ key _ sourceKey => [key, sourceKey]
  | .deleteObjects _ keys => keys
  | .listBuckets => []

def Lawful (prefixes : List Json) (request : S3Request) : Prop :=
  ∀ text ∈ request.texts, Covered prefixes text

/-- S3 lists keys below the prefix it was asked for. -/
def ListsBelow : (request : S3Request) → request.Answer → Prop
  | .listObjectsV2 params, page => ∀ object ∈ page.contents, params.searchPrefix <+: object.key
  | _, _ => True

/-- All requests of the program keep the law, whatever keys S3 lists. -/
def LawAbiding {α : Type} (prefixes : List Json) (program : S3Program α) : Prop :=
  program.Sends (Lawful prefixes) ListsBelow fun _ => True

/-- A program that ends without any request. -/
def Silent {α : Type} (program : S3Program α) : Prop :=
  ∃ result, program = S3Program.ofResult result

section Programs

variable {α β : Type} {prefixes : List Json}

theorem passed_of_reaches {check : Result α} {next : α → S3Program β}
    (reaches : ¬ Silent (S3Program.ofResult check >>= next)) :
    ∃ value, check = .ok value ∧ ¬ Silent (next value) := by
  cases check with
  | ok value => exact ⟨value, rfl, reaches⟩
  | error exc => exact absurd ⟨.error exc, rfl⟩ reaches

theorem reaches_of_bind {program : S3Program α} {next : α → S3Program β}
    (reaches : ¬ Silent (program >>= next)) (quiet : ∀ value, Silent (next value)) :
    ¬ Silent program := by
  rintro ⟨result, rfl⟩
  obtain ⟨value, -, loud⟩ := passed_of_reaches reaches
  exact loud (quiet value)

theorem silent_pure (value : α) : Silent (pure value : S3Program α) := ⟨.ok value, rfl⟩

theorem lawAbiding_bind_pure {program : S3Program α} (result : α → β) :
    LawAbiding prefixes (program >>= fun value => pure (result value)) ↔
      LawAbiding prefixes program := by
  simp only [LawAbiding, sends_bind, sends_ok]

theorem lawful_list {params : ListParams} :
    Lawful prefixes (.listObjectsV2 params) ↔ Covered prefixes params.searchPrefix := by
  simp [Lawful, S3Request.texts]

end Programs

section Pages

variable {prefixes : List Json}

/-- A listing that goes on differs in its token only, so the first request decides. -/
theorem paginate_sends {permitted : S3Request → Prop} {params : ListParams}
    (allowed : ∀ token,
      permitted (.listObjectsV2 { params with continuationToken := token })) (pages : Nat) :
    (paginate pages params).Sends permitted ListsBelow fun replies =>
      ∀ page ∈ replies, ∀ object ∈ page.contents, params.searchPrefix <+: object.key := by
  induction pages generalizing params with
  | zero =>
      simp only [paginate, sends_bind, sends_call]
      refine ⟨allowed params.continuationToken, fun page below => ?_⟩
      cases more : page.morePages with
      | none =>
          simp only [sends_ok]
          intro reply member
          obtain rfl := List.mem_singleton.mp member
          exact below
      | some token => simp
  | succ pages ih =>
      simp only [paginate, sends_bind, sends_call]
      refine ⟨allowed params.continuationToken, fun page below => ?_⟩
      cases more : page.morePages with
      | none =>
          simp only [sends_ok]
          intro reply member
          obtain rfl := List.mem_singleton.mp member
          exact below
      | some token =>
          simp only [sends_bind, sends_ok]
          refine sends_mono (@ih (params.continueWith token) allowed) fun rest laterBelow => ?_
          intro reply member
          rcases List.mem_cons.mp member with rfl | later
          · exact below
          · exact laterBelow reply later

theorem paginate_first {params : ListParams} {pages : Nat} {post : List ListPage → Prop}
    (sends : (paginate pages params).Sends (Lawful prefixes) ListsBelow post) :
    Covered prefixes params.searchPrefix := by
  cases pages <;>
    · simp only [paginate, sends_bind, sends_call] at sends
      exact lawful_list.mp sends.1

theorem paginate_iff {params : ListParams} (pages : Nat) :
    LawAbiding prefixes (paginate pages params) ↔ Covered prefixes params.searchPrefix :=
  ⟨paginate_first, fun covered =>
    sends_mono (paginate_sends (fun _ => lawful_list.mpr covered) pages) fun _ _ => trivial⟩

theorem afterRecursivePage_params {maxKeys : Nat} {params next : ListParams}
    {files : List KeyEntry} {page : ListPage}
    (goesOn : afterRecursivePage maxKeys params files page = .inr (.ok next)) :
    next.searchPrefix = params.searchPrefix := by
  unfold afterRecursivePage at goesOn
  split at goesOn
  · simp at goesOn
  · split at goesOn
    · cases token : page.requireToken with
      | error exc => simp [token, Except.map] at goesOn
      | ok value =>
          obtain rfl : params.continueWith value = next := by
            simpa [token, Except.map] using goesOn
          rfl
    · simp at goesOn

theorem recursivePages_iff {maxKeys pages : Nat} {params : ListParams} {files : List KeyEntry} :
    LawAbiding prefixes (recursivePages maxKeys pages params files) ↔
      Covered prefixes params.searchPrefix := by
  constructor
  · intro sends
    cases pages <;>
      · simp only [recursivePages, LawAbiding, sends_bind, sends_call] at sends
        exact lawful_list.mp sends.1
  · intro covered
    induction pages generalizing params files with
    | zero =>
        simp only [recursivePages, LawAbiding, sends_bind, sends_call]
        refine ⟨lawful_list.mpr covered, fun page _ => ?_⟩
        split <;> simp
    | succ pages ih =>
        simp only [recursivePages, LawAbiding, sends_bind, sends_call]
        refine ⟨lawful_list.mpr covered, fun page _ => ?_⟩
        split
        · simp
        · next next goesOn =>
            simp only [sends_bind, sends_ofResult]
            rintro following rfl
            exact ih (afterRecursivePage_params goesOn ▸ covered)

theorem scanChildren_sends {params : ListParams} (covered : Covered prefixes params.searchPrefix)
    (budget : Nat) (found : List Str) :
    LawAbiding prefixes (scanChildren budget params found) := by
  induction budget generalizing params found with
  | zero =>
      simp only [scanChildren, LawAbiding, sends_bind, sends_call]
      exact ⟨lawful_list.mpr covered, fun page _ => by simp⟩
  | succ budget ih =>
      simp only [scanChildren, LawAbiding, sends_bind, sends_call]
      refine ⟨lawful_list.mpr covered, fun page _ => ?_⟩
      split
      · simp only [sends_bind, sends_ofResult]
        intro token _
        have same : (params.continueWith token).searchPrefix = params.searchPrefix := rfl
        exact ih (same ▸ covered) _
      · simp

theorem scanChildren_first {params : ListParams} {budget : Nat} {found : List Str}
    {post : List Str × Bool → Prop}
    (sends : (scanChildren budget params found).Sends (Lawful prefixes) ListsBelow post) :
    Covered prefixes params.searchPrefix := by
  cases budget <;>
    · simp only [scanChildren, sends_bind, sends_call] at sends
      exact lawful_list.mp sends.1

theorem afterScanPage_params {maxKeys : Nat} {params next : ListParams}
    {scan : List S3Object × Bool} {page : ListPage}
    (goesOn : afterScanPage maxKeys params scan page = .inr (.ok next)) :
    next.searchPrefix = params.searchPrefix := by
  unfold afterScanPage at goesOn
  split at goesOn
  · simp at goesOn
  · split at goesOn
    · split at goesOn
      · simp at goesOn
      · cases token : page.requireToken with
        | error exc => simp [token, Except.map] at goesOn
        | ok value =>
            obtain rfl : params.continueWith value = next := by
              simpa [token, Except.map] using goesOn
            rfl
    · simp at goesOn

theorem scanPages_sends {maxKeys : Nat} {params : ListParams}
    (covered : Covered prefixes params.searchPrefix) (pages : Nat) (scanned : List S3Object) :
    LawAbiding prefixes (scanPages maxKeys pages params scanned) := by
  induction pages generalizing params scanned with
  | zero =>
      simp only [scanPages, LawAbiding, sends_bind, sends_call]
      refine ⟨lawful_list.mpr covered, fun page _ => ?_⟩
      split <;> simp
  | succ pages ih =>
      simp only [scanPages, LawAbiding, sends_bind, sends_call]
      refine ⟨lawful_list.mpr covered, fun page _ => ?_⟩
      split
      · simp
      · next next goesOn =>
          simp only [sends_bind, sends_ofResult]
          rintro following rfl
          exact ih (afterScanPage_params goesOn ▸ covered) _

/-- Every page of a chunk is asked for alike, and the chunk holds the entries of all
pages. -/
theorem clientLoadPages_sends {permitted : S3Request → Prop}
    {faithful : (request : S3Request) → request.Answer → Prop}
    {directory file : FileEntry → Prop} {bucket base s3Prefix : Str} {maxClientLoad : Nat}
    (allowed : ∀ size token, permitted (.listObjectsV2
      { firstPage bucket s3Prefix (some ['/']) (some size) with continuationToken := token }))
    (seen : ∀ size token (page : ListPage), faithful (.listObjectsV2
        { firstPage bucket s3Prefix (some ['/']) (some size) with continuationToken := token })
        page →
      (∀ entry ∈ pageDirectories base page, directory entry) ∧
        ∀ entry ∈ pageFiles base page, file entry)
    (pages : Nat) {token : Option Str} {directories files : List FileEntry}
    (before : (∀ entry ∈ directories, directory entry) ∧ ∀ entry ∈ files, file entry) :
    (clientLoadPages bucket base s3Prefix maxClientLoad pages token directories files).Sends
      permitted faithful fun chunk =>
        (∀ entry ∈ chunk.1, directory entry) ∧ ∀ entry ∈ chunk.2.1, file entry := by
  induction pages generalizing token directories files with
  | zero =>
      simp only [clientLoadPages, sends_ok]
      exact before
  | succ pages ih =>
      simp only [clientLoadPages, sends_bind, sends_call]
      refine ⟨allowed _ _, fun page valid => ?_⟩
      have here := seen _ _ page valid
      have after : (∀ entry ∈ directories ++ pageDirectories base page, directory entry) ∧
          ∀ entry ∈ files ++ pageFiles base page, file entry :=
        ⟨List.forall_mem_append.mpr ⟨before.1, here.1⟩,
          List.forall_mem_append.mpr ⟨before.2, here.2⟩⟩
      split
      · split
        · exact (sends_ok _ _).mpr after
        · exact ih after
      · exact (sends_ok _ _).mpr after

theorem clientLoadPages_iff {bucket base s3Prefix : Str} {maxClientLoad pages : Nat}
    {token : Option Str} {directories files : List FileEntry} :
    LawAbiding prefixes
        (clientLoadPages bucket base s3Prefix maxClientLoad (pages + 1) token directories files) ↔
      Covered prefixes s3Prefix := by
  constructor
  · intro sends
    simp only [clientLoadPages, LawAbiding, sends_bind, sends_call] at sends
    exact lawful_list.mp sends.1
  · intro covered
    have sends := @clientLoadPages_sends (Lawful prefixes) ListsBelow (fun _ => True) (fun _ => True)
      bucket base s3Prefix maxClientLoad (fun _ _ => lawful_list.mpr covered)
      (by simp) (pages + 1) token directories files (by simp)
    exact sends_mono sends fun _ _ => trivial

end Pages

section Helpers

variable {α β : Type} {unicode : Unicode} {config : Dict} {role : Option Str}
  {bucket path : Str} {user : UserDict} {prefixes : List Json} {validated : Option Str}

theorem lawAbiding_of_bind {program : S3Program α} {next : α → S3Program β}
    (abides : LawAbiding prefixes (program >>= next)) : LawAbiding prefixes program :=
  sends_mono ((sends_bind _ _ _).mp abides) fun _ _ => trivial

theorem lawAbiding_bind {program : S3Program α} {next : α → S3Program β}
    (first : LawAbiding prefixes program) (rest : ∀ value, LawAbiding prefixes (next value)) :
    LawAbiding prefixes (program >>= next) :=
  (sends_bind _ _ _).mpr (sends_mono first fun value _ => rest value)

theorem lawAbiding_of_silent {program : S3Program α} (silent : Silent program) :
    LawAbiding prefixes program := by
  obtain ⟨result, rfl⟩ := silent
  simp [LawAbiding]

theorem lawAbiding_bind_silent {program : S3Program α} {next : α → S3Program β}
    (quiet : ∀ value, Silent (next value)) :
    LawAbiding prefixes (program >>= next) ↔ LawAbiding prefixes program :=
  ⟨lawAbiding_of_bind, fun abides =>
    lawAbiding_bind abides fun value => lawAbiding_of_silent (quiet value)⟩

theorem gatedCall_iff {callback : S3Program α}
    (accepted : validateStorageAccess config role bucket user path = .ok validated) :
    LawAbiding prefixes (gatedCall unicode config role bucket path user callback) ↔
      LawAbiding prefixes callback := by
  simp only [gatedCall, accepted, ofResult_ok_bind, LawAbiding, executeWithS3Retry_sends_iff]

theorem gate_of_reaches {callback : S3Program α}
    (reaches : ¬ Silent (gatedCall unicode config role bucket path user callback)) :
    ∃ validated, validateStorageAccess config role bucket user path = .ok validated := by
  obtain ⟨validated, accepted, -⟩ := passed_of_reaches reaches
  exact ⟨validated, accepted⟩

theorem gate_of_bind_reaches {callback : S3Program α} {next : α → S3Program β}
    (reaches : ¬ Silent (gatedCall unicode config role bucket path user callback >>= next)) :
    ∃ validated, validateStorageAccess config role bucket user path = .ok validated := by
  cases accepted : validateStorageAccess config role bucket user path with
  | ok validated => exact ⟨validated, rfl⟩
  | error exc =>
      refine absurd ⟨.error exc, ?_⟩ reaches
      rw [gatedCall, accepted]
      rfl

theorem lawAbiding_ofResult (result : Result α) :
    LawAbiding prefixes (S3Program.ofResult result) :=
  lawAbiding_of_silent ⟨result, rfl⟩

theorem lawAbiding_pure (value : α) : LawAbiding prefixes (pure value : S3Program α) :=
  lawAbiding_of_silent (silent_pure value)

theorem call_iff {request : S3Request} :
    LawAbiding prefixes (S3Program.call request) ↔ Lawful prefixes request := by
  simp [LawAbiding]

theorem mapError_iff {translate : PyError → PyError} {program : S3Program α} :
    LawAbiding prefixes (program.mapError translate) ↔ LawAbiding prefixes program := by
  simp only [LawAbiding, sends_mapError]

theorem deleteBatches_subset {keys batch : List Str} (member : batch ∈ deleteBatches keys)
    {key : Str} (inside : key ∈ batch) : key ∈ keys := by
  obtain ⟨i, -, rfl⟩ := List.mem_map.mp member
  exact List.mem_of_mem_drop (List.mem_of_mem_take inside)

theorem deleteEach_sends {permitted : S3Request → Prop} {batches : List (List Str)}
    {deleted : Nat} (allowed : ∀ batch ∈ batches, permitted (.deleteObjects bucket batch)) :
    (deleteEach bucket batches deleted).Sends permitted ListsBelow fun _ => True := by
  induction batches generalizing deleted with
  | nil => simp [deleteEach]
  | cons batch rest ih =>
      simp only [deleteEach, sends_bind, sends_call]
      refine ⟨allowed batch (by simp), fun _ _ => ih fun later member => ?_⟩
      exact allowed later (List.mem_cons_of_mem _ member)

theorem deleteDirectory_sends {permitted : S3Request → Prop} {pages : Nat} {path : Str}
    (listed : ∀ token, permitted (.listObjectsV2
      { firstPage bucket (rstripSlash path ++ ['/']) none none with continuationToken := token }))
    (deleted : ∀ keys : List Str, (∀ key ∈ keys, rstripSlash path ++ ['/'] <+: key) →
      permitted (.deleteObjects bucket keys)) :
    (deleteDirectory pages bucket path).Sends permitted ListsBelow fun _ => True := by
  refine (sends_bind _ _ _).mpr (sends_mono (paginate_sends listed pages) fun replies below => ?_)
  split
  · simp
  · refine deleteEach_sends fun batch member => deleted batch fun key inside => ?_
    obtain ⟨page, replied, found⟩ := List.mem_flatMap.mp (deleteBatches_subset member inside)
    obtain ⟨object, contained, rfl⟩ := List.mem_map.mp found
    exact below page replied object contained

theorem deleteDirectory_iff {pages : Nat} (accepted : GateAccepts prefixes path)
    (slash : endsWith path ['/'] = true) :
    LawAbiding prefixes (deleteDirectory pages bucket path) ↔
      Covered prefixes (rstripSlash path ++ ['/']) := by
  constructor
  · exact fun abides => paginate_first (lawAbiding_of_bind abides)
  · intro covered
    obtain ⟨left, -⟩ := (covered_iff_blanksHarmless accepted (.folder slash)).mp covered
    obtain ⟨init, shape⟩ := endsWith_slash_iff.mp slash
    have right : rstrip path = path := by
      rw [shape]
      exact rstrip_slash init
    have trimmed : strip path = path := (trimBy_eq_self_iff isSpace).mpr ⟨left, right⟩
    obtain ⟨-, -, -, under⟩ := accepted.shape
    rw [trimmed] at under
    refine deleteDirectory_sends (fun _ => lawful_list.mpr covered) fun keys below => ?_
    intro key member
    obtain ⟨rest, found⟩ := below key member
    rw [← found]
    simpa using covered_of_descend rest under

theorem deleteSingle_iff (plain : endsWith path ['/'] = false) :
    LawAbiding prefixes (deleteSingle bucket path) ↔ Covered prefixes path := by
  have same : rstripSlash path = path := rstripSlash_eq_self plain
  constructor
  · intro abides
    have first := lawful_list.mp (call_iff.mp (lawAbiding_of_bind abides))
    simpa [firstPage, same] using first
  · intro covered
    refine lawAbiding_bind (call_iff.mpr (lawful_list.mpr ?_)) fun page => ?_
    · simpa [firstPage, same] using covered
    · cases page.contents with
      | nil => simp [LawAbiding]
      | cons object rest =>
          dsimp only
          split
          · refine lawAbiding_bind (call_iff.mpr ?_) fun _ => by simp [LawAbiding]
            simpa [Lawful, S3Request.texts, same] using covered
          · simp [LawAbiding]

/-- The text that a delete of `path` lists, and that all its keys come from. -/
def deleteText (path : Str) : Str :=
  if endsWith path ['/'] then rstripSlash path ++ ['/'] else path

theorem deleteText_sentFor (path : Str) : SentFor path (deleteText path) := by
  unfold deleteText
  split
  · next slash => exact .folder slash
  · exact .same

theorem deleteObjectForRole_iff {pages : Nat}
    (restricted : RestrictedTo config user role prefixes)
    (accepted : validateStorageAccess config role bucket user path = .ok validated) :
    LawAbiding prefixes (deleteObjectForRole unicode config pages role bucket path user) ↔
      Covered prefixes (deleteText path) := by
  refine (gatedCall_iff accepted).trans ((lawAbiding_bind_pure _).trans ?_)
  cases slash : endsWith path ['/'] with
  | true =>
      simp only [deletePathKeys, deleteText, slash, if_true]
      exact deleteDirectory_iff (gateAccepts_of_validated restricted accepted) slash
  | false =>
      simp only [deletePathKeys, deleteText, slash, Bool.false_eq_true, if_false]
      exact deleteSingle_iff slash

section Listings

variable {onVirtual : ListEntry → List FileEntry → α} {fetch : ListEntry → S3Program α}

theorem gatedListing_prepared
    (reaches : ¬ Silent (gatedListing unicode config role bucket path user onVirtual fetch)) :
    ∃ listing, prepareListPath unicode config role bucket user path = .ok listing ∧
      listing.virtualDirectories = none := by
  obtain ⟨listing, prepared, loud⟩ := passed_of_reaches reaches
  cases directories : listing.virtualDirectories with
  | none => exact ⟨listing, prepared, directories⟩
  | some entries =>
      simp only [directories] at loud
      exact absurd (silent_pure _) loud

theorem gatedListing_iff {listing : ListEntry}
    (prepared : prepareListPath unicode config role bucket user path = .ok listing)
    (real : listing.virtualDirectories = none) :
    LawAbiding prefixes
        (gatedListing unicode config role bucket path user onVirtual fetch) ↔
      LawAbiding prefixes (fetch listing) := by
  simp only [gatedListing, prepared, ofResult_ok_bind, real]
  exact executeWithS3Retry_sends_iff

theorem listObjectsForRole_fetch {pages : Nat} {listing : ListEntry}
    (prepared : prepareListPath unicode config role bucket user path = .ok listing)
    (real : listing.virtualDirectories = none) :
    LawAbiding prefixes (listObjectsForRole unicode config pages role bucket path user) ↔
      Covered prefixes (folderPrefix listing.effectivePath) :=
  (gatedListing_iff prepared real).trans ((lawAbiding_bind_pure _).trans (paginate_iff pages))

theorem listObjectsRecursiveForRole_fetch {pages : Nat} {listing : ListEntry} {searchPrefix : Str}
    {maxKeys maxPageSize : Int} {continuationToken : Option Str}
    (prepared : prepareListPath unicode config role bucket user (rstripSlash searchPrefix) =
      .ok listing)
    (real : listing.virtualDirectories = none) :
    LawAbiding prefixes (listObjectsRecursiveForRole unicode config pages role bucket searchPrefix
        user maxKeys continuationToken maxPageSize) ↔
      Covered prefixes (folderPrefix listing.effectivePath) :=
  (gatedListing_iff prepared real).trans recursivePages_iff

theorem summarizeBucketForRole_fetch {pages : Nat} {listing : ListEntry} {searchPrefix : Str}
    {maxKeys prefixScanPages : Int}
    (prepared : prepareListPath unicode config role bucket user (rstripSlash searchPrefix) =
      .ok listing)
    (real : listing.virtualDirectories = none) :
    LawAbiding prefixes (summarizeBucketForRole unicode config pages role bucket searchPrefix
        user maxKeys prefixScanPages) ↔
      Covered prefixes (folderPrefix listing.effectivePath) := by
  refine (gatedListing_iff prepared real).trans ⟨fun abides => ?_, fun covered => ?_⟩
  · exact scanChildren_first (lawAbiding_of_bind abides)
  · refine lawAbiding_bind (scanChildren_sends covered _ _) fun children => ?_
    exact (lawAbiding_bind_pure _).mpr (scanPages_sends covered _ _)

theorem listObjectsPaginatedForRole_fetch {listing : ListEntry} {maxKeys : Int}
    {continuationToken : Option Str}
    (prepared : prepareListPath unicode config role bucket user path = .ok listing)
    (real : listing.virtualDirectories = none) :
    LawAbiding prefixes (listObjectsPaginatedForRole unicode config role bucket path user maxKeys
        continuationToken) ↔
      Covered prefixes (folderPrefix listing.effectivePath) := by
  refine (gatedListing_iff prepared real).trans ⟨fun abides => ?_, fun covered => ?_⟩
  · cases continuationToken with
    | none => exact lawful_list.mp (call_iff.mp (lawAbiding_of_bind (lawAbiding_of_bind abides)))
    | some token =>
        have rest := (sends_bind _ _ _).mp abides
        simp only [firstPageDirectories, sends_ok] at rest
        exact lawful_list.mp (call_iff.mp (lawAbiding_of_bind rest))
  · have listed {params : ListParams}
        (same : params.searchPrefix = folderPrefix listing.effectivePath) :
        LawAbiding prefixes (S3Program.call (.listObjectsV2 params)) :=
      call_iff.mpr (lawful_list.mpr (same ▸ covered))
    refine lawAbiding_bind ?_ fun directories => (lawAbiding_bind_pure _).mpr (listed rfl)
    cases continuationToken with
    | none => exact (lawAbiding_bind_pure _).mpr (listed rfl)
    | some token => simp [firstPageDirectories, LawAbiding]

theorem listObjectsClientLoadForRole_fetch {listing : ListEntry} {maxClientLoad : Int}
    {continuationToken : Option Str} {namePrefix : Str}
    (prepared : prepareListPath unicode config role bucket user path = .ok listing)
    (real : listing.virtualDirectories = none) :
    LawAbiding prefixes (listObjectsClientLoadForRole unicode config role bucket path user
        maxClientLoad continuationToken namePrefix) ↔
      Covered prefixes (folderPrefix listing.effectivePath ++ namePrefix) :=
  (gatedListing_iff prepared real).trans ((lawAbiding_bind_pure _).trans clientLoadPages_iff)

end Listings

theorem copyObjectForRole_iff {sourceBucket sourcePath destBucket destPath : Str}
    {source dest : Option Str}
    (sourceAccepted : validateStorageAccess config role sourceBucket user sourcePath = .ok source)
    (destAccepted : validateStorageAccess config role destBucket user destPath = .ok dest) :
    LawAbiding prefixes (copyObjectForRole unicode config role sourceBucket sourcePath destBucket
        destPath user) ↔
      Covered prefixes sourcePath ∧ Covered prefixes destPath := by
  have checked := (validateStorageAccess_ok_iff.mp sourceAccepted).1
  simp only [copyObjectForRole, sourceAccepted, destAccepted, checked, ofResult_ok_bind]
  refine executeWithS3Retry_sends_iff.trans (mapError_iff.trans (call_iff.trans ?_))
  simp [Lawful, S3Request.texts, and_comm]

end Helpers

end S3Manager.Storage
