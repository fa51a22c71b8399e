import S3Manager.Storage.Objects

/-! Which bucket the storage helpers send to S3: the one they are given. -/

set_option autoImplicit false

namespace S3Manager.Storage

open Python Access Library

/-- Every bucket that a request names. -/
def S3Request.buckets : S3Request → List Str
  | .listObjectsV2 params => [params.bucket]
  | .headObject bucket _ | .getObject bucket _ _ | .putObject bucket _ _ _ _ => [bucket]
  | .uploadFileobj bucket _ _ _ _ | .deleteObject bucket _ => [bucket]
  | .deleteObjects bucket _ | .generatePresignedUrl bucket _ _ _ => [bucket]
  | .copyObject bucket _ sourceBucket _ => [bucket, sourceBucket]
  | .listBuckets => []

def OnBucket (bucket : Str) (request : S3Request) : Prop :=
  ∀ named ∈ request.buckets, named = bucket

/-- Whatever S3 answers, the program sends requests for this bucket only. -/
def Addresses {α : Type} (bucket : Str) (program : S3Program α) : Prop :=
  program.Sends (OnBucket bucket) (fun _ _ => True) fun _ => True

section Rules

variable {α β : Type} {bucket : Str}

theorem addresses_ofResult (result : Result α) :
    Addresses bucket (S3Program.ofResult result) := fun _ _ => trivial

theorem addresses_pure (value : α) : Addresses bucket (pure value : S3Program α) :=
  addresses_ofResult (.ok value)

theorem addresses_raise (kind : ErrorKind) (message : Str) :
    Addresses bucket (S3Program.raise kind message : S3Program α) :=
  addresses_ofResult (raise kind message)

theorem addresses_bind {program : S3Program α} {next : α → S3Program β}
    (first : Addresses bucket program) (later : ∀ value, Addresses bucket (next value)) :
    Addresses bucket (program >>= next) :=
  (sends_bind _ _ _).mpr (sends_mono first fun value _ => later value)

/-- After a check, only what passes it matters. -/
theorem addresses_check {check : Result α} {next : α → S3Program β}
    (later : ∀ value, check = .ok value → Addresses bucket (next value)) :
    Addresses bucket (S3Program.ofResult check >>= next) :=
  (sends_bind _ _ _).mpr later

theorem addresses_call {request : S3Request} (named : OnBucket bucket request) :
    Addresses bucket (S3Program.call request) :=
  (sends_call _ _).mpr ⟨named, fun _ _ => trivial⟩

theorem addresses_mapError {translate : PyError → PyError} {program : S3Program α}
    (addresses : Addresses bucket program) : Addresses bucket (program.mapError translate) :=
  (sends_mapError _ _ _).mpr addresses

theorem addresses_retry {unicode : Unicode} {role : Option Str} {callback : S3Program α}
    (addresses : Addresses bucket callback) :
    Addresses bucket (executeWithS3Retry unicode role callback) :=
  executeWithS3Retry_sends_iff.mpr addresses

theorem onBucket_one {request : S3Request} (one : request.buckets = [bucket]) :
    OnBucket bucket request := fun named member => by
  rw [one] at member
  exact List.mem_singleton.mp member

end Rules

section Pages

variable {bucket : Str} {params : ListParams}

theorem addresses_page (same : params.bucket = bucket) :
    Addresses bucket (S3Program.call (.listObjectsV2 params)) :=
  addresses_call (onBucket_one (congrArg (fun name => [name]) same))

theorem addresses_paginate (same : params.bucket = bucket) (pages : Nat) :
    Addresses bucket (paginate pages params) := by
  induction pages generalizing params with
  | zero =>
      refine addresses_bind (addresses_page same) fun page => ?_
      split
      · exact addresses_pure _
      · exact addresses_raise _ _
  | succ pages ih =>
      refine addresses_bind (addresses_page same) fun page => ?_
      split
      · exact addresses_pure _
      · next token _ =>
          have kept : (params.continueWith token).bucket = bucket := same
          exact addresses_bind (ih kept) fun rest => addresses_pure _

theorem continued_bucket {page : ListPage} {next : ListParams}
    (goesOn : page.requireToken.map params.continueWith = .ok next) :
    next.bucket = params.bucket := by
  cases token : page.requireToken with
  | error exc => simp [token, Except.map] at goesOn
  | ok value =>
      obtain rfl : params.continueWith value = next := by simpa [token, Except.map] using goesOn
      rfl

theorem afterRecursivePage_bucket {maxKeys : Nat} {files : List KeyEntry} {page : ListPage}
    {next : ListParams}
    (goesOn : afterRecursivePage maxKeys params files page = .inr (.ok next)) :
    next.bucket = params.bucket := by
  unfold afterRecursivePage at goesOn
  split at goesOn
  · cases goesOn
  · split at goesOn
    · exact continued_bucket (Sum.inr.inj goesOn)
    · cases goesOn

theorem addresses_recursivePages {maxKeys : Nat} (same : params.bucket = bucket) (pages : Nat)
    (files : List KeyEntry) : Addresses bucket (recursivePages maxKeys pages params files) := by
  induction pages generalizing params files with
  | zero =>
      refine addresses_bind (addresses_page same) fun page => ?_
      split
      · exact addresses_pure _
      · exact addresses_raise _ _
  | succ pages ih =>
      refine addresses_bind (addresses_page same) fun page => ?_
      dsimp only
      split
      · exact addresses_pure _
      · next goesOn =>
          refine addresses_check ?_
          rintro next rfl
          exact ih ((afterRecursivePage_bucket goesOn).trans same) _

theorem addresses_scanChildren (same : params.bucket = bucket) (budget : Nat) (found : List Str) :
    Addresses bucket (scanChildren budget params found) := by
  induction budget generalizing params found with
  | zero => exact addresses_bind (addresses_page same) fun page => addresses_pure _
  | succ budget ih =>
      refine addresses_bind (addresses_page same) fun page => ?_
      dsimp only
      split
      · refine addresses_check fun token _ => ?_
        have kept : (params.continueWith token).bucket = bucket := same
        exact ih kept _
      · exact addresses_pure _

theorem afterScanPage_bucket {maxKeys : Nat} {scan : List S3Object × Bool} {page : ListPage}
    {next : ListParams} (goesOn : afterScanPage maxKeys params scan page = .inr (.ok next)) :
    next.bucket = params.bucket := by
  unfold afterScanPage at goesOn
  split at goesOn
  · cases goesOn
  · split at goesOn
    · split at goesOn
      · cases goesOn
      · exact continued_bucket (Sum.inr.inj goesOn)
    · cases goesOn

theorem addresses_scanPages {maxKeys : Nat} (same : params.bucket = bucket) (pages : Nat)
    (scanned : List S3Object) : Addresses bucket (scanPages maxKeys pages params scanned) := by
  induction pages generalizing params scanned with
  | zero =>
      refine addresses_bind (addresses_page same) fun page => ?_
      split
      · exact addresses_pure _
      · exact addresses_raise _ _
  | succ pages ih =>
      refine addresses_bind (addresses_page same) fun page => ?_
      dsimp only
      split
      · exact addresses_pure _
      · next goesOn =>
          refine addresses_check ?_
          rintro next rfl
          exact ih ((afterScanPage_bucket goesOn).trans same) _

theorem addresses_clientLoadPages {base s3Prefix : Str} {maxClientLoad : Nat} (pages : Nat)
    (token : Option Str) (directories files : List FileEntry) :
    Addresses bucket
      (clientLoadPages bucket base s3Prefix maxClientLoad pages token directories files) := by
  induction pages generalizing token directories files with
  | zero => exact addresses_pure _
  | succ pages ih =>
      refine addresses_bind (addresses_page rfl) fun page => ?_
      dsimp only
      split
      · split
        · exact addresses_pure _
        · exact ih _ _ _
      · exact addresses_pure _

end Pages

section Helpers

variable {α : Type} {unicode : Unicode} {config : Dict} {role : Option Str} {bucket path : Str}
  {user : UserDict}

theorem addresses_gatedCall {callback : S3Program α} (addresses : Addresses bucket callback) :
    Addresses bucket (gatedCall unicode config role bucket path user callback) :=
  addresses_check fun _ _ => addresses_retry addresses

theorem addresses_gatedListing {onVirtual : ListEntry → List FileEntry → α}
    {fetch : ListEntry → S3Program α} (addresses : ∀ listing, Addresses bucket (fetch listing)) :
    Addresses bucket (gatedListing unicode config role bucket path user onVirtual fetch) := by
  refine addresses_check fun listing _ => ?_
  split
  · exact addresses_pure _
  · exact addresses_retry (addresses listing)

theorem addresses_listObjects (pages : Nat) :
    Addresses bucket (listObjectsForRole unicode config pages role bucket path user) :=
  addresses_gatedListing fun _ =>
    addresses_bind (addresses_paginate (by rfl) pages) fun _ => addresses_pure _

theorem addresses_listRecursive (pages : Nat) (maxKeys maxPageSize : Int) (token : Option Str) :
    Addresses bucket (listObjectsRecursiveForRole unicode config pages role bucket path user maxKeys
      token maxPageSize) :=
  addresses_gatedListing fun _ => by
    dsimp only
    exact addresses_recursivePages (by rfl) pages []

theorem addresses_summarize (pages : Nat) (maxKeys prefixScanPages : Int) :
    Addresses bucket (summarizeBucketForRole unicode config pages role bucket path user maxKeys
      prefixScanPages) :=
  addresses_gatedListing fun _ =>
    addresses_bind (addresses_scanChildren (by rfl) _ []) fun _ =>
      addresses_bind (addresses_scanPages (by rfl) pages []) fun _ => addresses_pure _

theorem addresses_listPaginated (maxKeys : Int) (token : Option Str) :
    Addresses bucket
      (listObjectsPaginatedForRole unicode config role bucket path user maxKeys token) := by
  refine addresses_gatedListing fun listing => addresses_bind ?_ fun directories =>
    addresses_bind (addresses_page rfl) fun page => addresses_pure _
  unfold firstPageDirectories
  split
  · exact addresses_bind (addresses_page rfl) fun page => addresses_pure _
  · exact addresses_pure _

theorem addresses_clientLoad (maxClientLoad : Int) (token : Option Str) (namePrefix : Str) :
    Addresses bucket (listObjectsClientLoadForRole unicode config role bucket path user
      maxClientLoad token namePrefix) :=
  addresses_gatedListing fun _ =>
    addresses_bind (addresses_clientLoadPages _ token [] []) fun _ => addresses_pure _

theorem addresses_deleteEach (batches : List (List Str)) (deleted : Nat) :
    Addresses bucket (deleteEach bucket batches deleted) := by
  induction batches generalizing deleted with
  | nil => exact addresses_pure _
  | cons batch rest ih =>
      exact addresses_bind (addresses_call (onBucket_one rfl)) fun _ => ih _

theorem addresses_deletePathKeys (pages : Nat) :
    Addresses bucket (deletePathKeys pages bucket path) := by
  unfold deletePathKeys
  split
  · refine addresses_bind (addresses_paginate (by rfl) pages) fun replies => ?_
    split
    · exact addresses_raise _ _
    · exact addresses_deleteEach _ _
  · refine addresses_bind (addresses_page rfl) fun page => ?_
    split
    · exact addresses_raise _ _
    · split
      · exact addresses_bind (addresses_call (onBucket_one rfl)) fun _ => addresses_pure _
      · exact addresses_raise _ _

theorem addresses_deleteObject (pages : Nat) :
    Addresses bucket (deleteObjectForRole unicode config pages role bucket path user) :=
  addresses_gatedCall (addresses_bind (addresses_deletePathKeys pages) fun _ => addresses_pure _)

/-- A single request under the gate, whose missing object is an error of its own. -/
theorem addresses_gatedRequest {request : S3Request} {message : Str}
    (one : request.buckets = [bucket]) :
    Addresses bucket (gatedCall unicode config role bucket path user
      ((S3Program.call request).mapError (missingAs message))) :=
  addresses_gatedCall (addresses_mapError (addresses_call (onBucket_one one)))

/-- The same where a part of the answer is returned. -/
theorem addresses_gatedPart {request : S3Request} {message : Str} {part : request.Answer → α}
    (one : request.buckets = [bucket]) :
    Addresses bucket (gatedCall unicode config role bucket path user do
      let answer ← (S3Program.call request).mapError (missingAs message)
      pure (part answer)) :=
  addresses_gatedCall (addresses_bind (addresses_mapError (addresses_call (onBucket_one one)))
    fun _ => addresses_pure _)

theorem addresses_copyObject {destPath : Str} :
    Addresses bucket (copyObjectForRole unicode config role bucket path bucket destPath user) := by
  refine addresses_check fun _ _ => addresses_check fun _ _ => addresses_check fun _ _ => ?_
  refine addresses_retry (addresses_mapError (addresses_call ?_))
  intro named member
  obtain rfl | last := List.mem_cons.mp member
  · rfl
  · exact List.mem_singleton.mp last

end Helpers

end S3Manager.Storage
