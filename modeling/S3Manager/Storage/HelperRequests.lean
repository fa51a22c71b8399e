import S3Manager.Storage.BucketLaw
import S3Manager.Storage.PrefixLaw

/-! The requests that the helpers of `s3_client.py` make. A listing helper only lists the
folder it was resolved to, and a delete lists what it is about to delete. -/

set_option autoImplicit false

namespace S3Manager.Storage

open Python Access Library

/-- Every request of the program is permitted, whatever keys S3 lists below the prefixes it
is asked for. -/
def Makes {α : Type} (permitted : S3Request → Prop) (program : S3Program α) : Prop :=
  program.Sends permitted ListsBelow fun _ => True

section Rules

variable {α β : Type} {permitted : S3Request → Prop}

theorem makes_ofResult (result : Result α) : Makes permitted (S3Program.ofResult result) :=
  fun _ _ => trivial

theorem makes_pure (value : α) : Makes permitted (pure value : S3Program α) :=
  makes_ofResult (.ok value)

theorem makes_raise (kind : ErrorKind) (message : Str) :
    Makes permitted (S3Program.raise kind message : S3Program α) :=
  makes_ofResult (raise kind message)

theorem makes_bind {program : S3Program α} {next : α → S3Program β}
    (first : Makes permitted program) (later : ∀ value, Makes permitted (next value)) :
    Makes permitted (program >>= next) :=
  (sends_bind _ _ _).mpr (sends_mono first fun value _ => later value)

/-- After a check, only what passes it matters. -/
theorem makes_check {check : Result α} {next : α → S3Program β}
    (later : ∀ value, check = .ok value → Makes permitted (next value)) :
    Makes permitted (S3Program.ofResult check >>= next) :=
  (sends_bind _ _ _).mpr later

theorem makes_call {request : S3Request} (allowed : permitted request) :
    Makes permitted (S3Program.call request) :=
  (sends_call _ _).mpr ⟨allowed, fun _ _ => trivial⟩

theorem makes_mapError {translate : PyError → PyError} {program : S3Program α}
    (makes : Makes permitted program) : Makes permitted (program.mapError translate) :=
  (sends_mapError _ _ _).mpr makes

theorem makes_retry {unicode : Unicode} {role : Option Str} {callback : S3Program α}
    (makes : Makes permitted callback) :
    Makes permitted (executeWithS3Retry unicode role callback) :=
  executeWithS3Retry_sends_iff.mpr makes

end Rules

section Pages

variable {permitted : S3Request → Prop} {bucket listed : Str} {params : ListParams}

/-- Listings of the bucket below this prefix are permitted. -/
def MayList (permitted : S3Request → Prop) (bucket listed : Str) : Prop :=
  ∀ params : ListParams, params.bucket = bucket → params.searchPrefix = listed →
    permitted (.listObjectsV2 params)

theorem makes_paginate (may : MayList permitted bucket listed) (here : params.bucket = bucket)
    (below : params.searchPrefix = listed) (pages : Nat) :
    Makes permitted (paginate pages params) :=
  sends_mono (paginate_sends (fun _ => may _ here below) pages) fun _ _ => trivial

theorem makes_recursivePages {maxKeys : Nat} (may : MayList permitted bucket listed)
    (here : params.bucket = bucket) (below : params.searchPrefix = listed) (pages : Nat)
    (files : List KeyEntry) : Makes permitted (recursivePages maxKeys pages params files) := by
  induction pages generalizing params files with
  | zero =>
      refine makes_bind (makes_call (may _ here below)) fun page => ?_
      split
      · exact makes_pure _
      · exact makes_raise _ _
  | succ pages ih =>
      refine makes_bind (makes_call (may _ here below)) fun page => ?_
      dsimp only
      split
      · exact makes_pure _
      · next goesOn =>
          refine makes_check ?_
          rintro next rfl
          exact ih ((afterRecursivePage_bucket goesOn).trans here)
            ((afterRecursivePage_params goesOn).trans below) _

theorem makes_scanChildren (may : MayList permitted bucket listed)
    (here : params.bucket = bucket) (below : params.searchPrefix = listed) (budget : Nat)
    (found : List Str) : Makes permitted (scanChildren budget params found) := by
  induction budget generalizing params found with
  | zero => exact makes_bind (makes_call (may _ here below)) fun page => makes_pure _
  | succ budget ih =>
      refine makes_bind (makes_call (may _ here below)) fun page => ?_
      dsimp only
      split
      · refine makes_check fun token _ => ?_
        have still : (params.continueWith token).bucket = bucket := here
        exact ih still below _
      · exact makes_pure _

theorem makes_scanPages {maxKeys : Nat} (may : MayList permitted bucket listed)
    (here : params.bucket = bucket) (below : params.searchPrefix = listed) (pages : Nat)
    (scanned : List S3Object) : Makes permitted (scanPages maxKeys pages params scanned) := by
  induction pages generalizing params scanned with
  | zero =>
      refine makes_bind (makes_call (may _ here below)) fun page => ?_
      split
      · exact makes_pure _
      · exact makes_raise _ _
  | succ pages ih =>
      refine makes_bind (makes_call (may _ here below)) fun page => ?_
      dsimp only
      split
      · exact makes_pure _
      · next goesOn =>
          refine makes_check ?_
          rintro next rfl
          exact ih ((afterScanPage_bucket goesOn).trans here)
            ((afterScanPage_params goesOn).trans below) _

theorem makes_clientLoadPages {base : Str} {maxClientLoad : Nat}
    (may : MayList permitted bucket listed) (pages : Nat) (token : Option Str)
    (directories files : List FileEntry) :
    Makes permitted
      (clientLoadPages bucket base listed maxClientLoad pages token directories files) := by
  induction pages generalizing token directories files with
  | zero => exact makes_pure _
  | succ pages ih =>
      refine makes_bind (makes_call (may _ rfl rfl)) fun page => ?_
      dsimp only
      split
      · split
        · exact makes_pure _
        · exact ih _ _ _
      · exact makes_pure _

theorem makes_firstPageDirectories {unicode : Unicode} {token : Option Str}
    (may : MayList permitted bucket listed) :
    Makes permitted (firstPageDirectories unicode bucket listed token) := by
  cases token with
  | none => exact makes_bind (makes_call (may _ rfl rfl)) fun page => makes_pure _
  | some token => exact makes_pure _

end Pages

section Deletes

variable {permitted : S3Request → Prop} {bucket path : Str}

theorem makes_deleteDirectory (pages : Nat)
    (may : MayList permitted bucket (rstripSlash path ++ ['/']))
    (erases : ∀ keys : List Str, (∀ key ∈ keys, rstripSlash path ++ ['/'] <+: key) →
      permitted (.deleteObjects bucket keys)) :
    Makes permitted (deleteDirectory pages bucket path) :=
  deleteDirectory_sends (fun _ => may _ rfl rfl) erases

theorem makes_deleteSingle (may : MayList permitted bucket (rstripSlash path))
    (erases : permitted (.deleteObject bucket (rstripSlash path))) :
    Makes permitted (deleteSingle bucket path) := by
  refine makes_bind (makes_call (may _ rfl rfl)) fun page => ?_
  split
  · exact makes_raise _ _
  · split
    · exact makes_bind (makes_call erases) fun _ => makes_pure _
    · exact makes_raise _ _

end Deletes

section Helpers

variable {α : Type} {permitted : S3Request → Prop} {unicode : Unicode} {config : Dict}
  {role : Option Str} {bucket path : Str} {user : UserDict}

theorem makes_gatedCall {callback : S3Program α} (makes : Makes permitted callback) :
    Makes permitted (gatedCall unicode config role bucket path user callback) :=
  makes_check fun _ _ => makes_retry makes

theorem makes_gatedListing {onVirtual : ListEntry → List FileEntry → α}
    {fetch : ListEntry → S3Program α} (makes : ∀ listing, Makes permitted (fetch listing)) :
    Makes permitted (gatedListing unicode config role bucket path user onVirtual fetch) := by
  refine makes_check fun listing _ => ?_
  split
  · exact makes_pure _
  · exact makes_retry (makes listing)

/-- A single request under the gate, of whose answer a part is returned. -/
theorem makes_gatedPart {request : S3Request} {message : Str} {part : request.Answer → α}
    (allowed : permitted request) :
    Makes permitted (gatedCall unicode config role bucket path user do
      let answer ← (S3Program.call request).mapError (missingAs message)
      pure (part answer)) :=
  makes_gatedCall (makes_bind (makes_mapError (makes_call allowed)) fun _ => makes_pure _)

end Helpers

end S3Manager.Storage
