import S3Manager.Storage.Objects
import S3Manager.Storage.Store

/-! Where the exception of a storage operation comes from: the failing call that its
run ends with reaches the result, perhaps as another exception. -/

set_option autoImplicit false

namespace S3Manager.Storage

open Python Access Library

section Phases

/-- A call that failed, with what it raised. -/
inductive Failure where
  | call (exc : PyError)
  | client (exc : PyError)

/-- The failure that an effect leaves behind, whatever came before. -/
def failureOf : (effect : Effect) → effect.Reply → Option Failure → Option Failure
  | .s3 _, .error exc, _ => some (.call exc)
  | .getClient _, .error exc, _ => some (.client exc)
  | _, _, _ => none

/-- The failure that a run ends with: the last thing it did. -/
def lastFailure {α : Type} (conventions : Conventions) (program : S3Program α) (world : World) :
    Option Failure :=
  Program.phaseAfter failureOf (handle conventions) program world none

/-- `404` and `NoSuchKey`, for which operations raise `FileNotFoundError`. -/
def MissingObject (exc : PyError) : Prop :=
  ∃ code status, exc.kind = .clientError code status ∧ (code = lit "404" ∨ code = lit "NoSuchKey")

/-- What the operations make of an exception that S3 raised. -/
def StemsFrom (raised exc : PyError) : Prop :=
  exc = raised ∨ exc.kind = .runtimeError ∨
    exc.kind = .fileNotFoundError ∧ MissingObject raised

/-- The result goes back to the failure that came last. Failing clients are told
apart, for a callback asks for none. -/
def Stems {α : Type} (clients : Prop) : Option Failure → Result α → Prop
  | none, _ => True
  | some (.call raised), result => ∃ exc, result = .error exc ∧ StemsFrom raised exc
  | some (.client raised), result => clients ∧ result = .error raised

/-- However its run ends, the program passes the last failure on. -/
def Carries {α : Type} (clients : Prop) (program : S3Program α) : Prop :=
  Program.ends failureOf (Stems clients) none program

end Phases

section Rules

variable {α β : Type} {clients : Prop}

theorem stems_ok {failure : Option Failure} {value : α}
    (stems : Stems clients failure (.ok value : Result α)) : failure = none := by
  match failure with
  | none => rfl
  | some (.call raised) =>
      obtain ⟨exc, same, _⟩ := stems
      cases same
  | some (.client raised) => cases stems.2

theorem stems_error {failure : Option Failure} {exc : PyError}
    (stems : Stems clients failure (.error exc : Result α)) :
    Stems clients failure (.error exc : Result β) := by
  match failure with
  | none => trivial
  | some (.call raised) =>
      obtain ⟨other, same, from_⟩ := stems
      obtain rfl := Except.error.inj same
      exact ⟨exc, rfl, from_⟩
  | some (.client raised) =>
      obtain ⟨asked, same⟩ := stems
      obtain rfl := Except.error.inj same
      exact ⟨asked, rfl⟩

theorem carries_ofResult (result : Result α) : Carries clients (S3Program.ofResult result) :=
  trivial

theorem carries_pure (value : α) : Carries clients (pure value : S3Program α) :=
  trivial

theorem carries_bind {program : S3Program α} {next : α → S3Program β}
    (first : Carries clients program) (rest : ∀ value, Carries clients (next value)) :
    Carries clients (program >>= next) := by
  refine Program.ends_bind first fun failure result stems => ?_
  cases result with
  | ok value =>
      obtain rfl := stems_ok stems
      exact rest value
  | error exc => exact stems_error stems

theorem carries_call (request : S3Request) : Carries clients (S3Program.call request) := by
  intro reply
  cases reply with
  | ok answer => trivial
  | error exc => exact ⟨exc, rfl, .inl rfl⟩

theorem missingAs_stems (message : Str) (raised : PyError) :
    StemsFrom raised (missingAs message raised) := by
  unfold missingAs
  split
  · next code status kind =>
      split
      · next missing => exact .inr (.inr ⟨rfl, code, status, kind, missing⟩)
      · exact .inl rfl
  · exact .inl rfl

theorem carries_call_missing (request : S3Request) (message : Str) :
    Carries clients ((S3Program.call request).mapError (missingAs message)) := by
  intro reply
  cases reply with
  | ok answer => trivial
  | error exc => exact ⟨_, rfl, missingAs_stems message exc⟩

theorem Stems.widen {failure : Option Failure} {result : Result α}
    (stems : Stems False failure result) : Stems clients failure result := by
  match failure with
  | none => trivial
  | some (.call raised) => exact stems
  | some (.client raised) => exact stems.1.elim

theorem carries_secondAttempt {unicode : Unicode} {roleName : Option Str}
    {callback : S3Program α} (holds : Carries False callback) :
    Carries True (secondAttempt unicode roleName callback) := by
  intro reply
  cases reply with
  | error exc => exact ⟨trivial, rfl⟩
  | ok _ =>
      refine Program.ends_bind holds fun failure result stems => ?_
      cases result with
      | ok value =>
          obtain rfl := stems_ok stems
          trivial
      | error exc =>
          have passed : Stems True failure (.error exc : Result α) := stems.widen
          dsimp only
          split_ifs with http expired
          · exact passed
          · match failure with
            | none => trivial
            | some (.call raised) => exact ⟨_, rfl, .inr (.inl rfl)⟩
            | some (.client raised) => exact stems.1.elim
          · exact passed

theorem carries_retry {unicode : Unicode} {roleName : Option Str} {callback : S3Program α}
    (holds : Carries False callback) :
    Carries True (executeWithS3Retry unicode roleName callback) := by
  have second := @carries_secondAttempt _ unicode roleName _ holds
  intro reply
  cases reply with
  | error exc =>
      dsimp only
      split_ifs with expired
      · exact fun _ => second
      · exact ⟨trivial, rfl⟩
  | ok _ =>
      refine Program.ends_bind holds fun failure result stems => ?_
      cases result with
      | ok value =>
          obtain rfl := stems_ok stems
          trivial
      | error exc =>
          have passed : Stems True failure (.error exc : Result α) := stems.widen
          dsimp only
          split_ifs with http expired
          · exact passed
          · exact fun _ => second
          · exact passed

end Rules

section Loops

theorem carries_paginate (pages : Nat) (params : ListParams) :
    Carries False (paginate pages params) := by
  induction pages generalizing params with
  | zero =>
      refine carries_bind (carries_call _) fun page => ?_
      split
      · exact carries_pure _
      · exact carries_ofResult _
  | succ pages ih =>
      refine carries_bind (carries_call _) fun page => ?_
      split
      · exact carries_pure _
      · exact carries_bind (ih _) fun rest => carries_pure _

theorem carries_recursivePages (maxKeys pages : Nat) (params : ListParams)
    (files : List KeyEntry) : Carries False (recursivePages maxKeys pages params files) := by
  induction pages generalizing params files with
  | zero =>
      refine carries_bind (carries_call _) fun page => ?_
      split
      · exact carries_pure _
      · exact carries_ofResult _
  | succ pages ih =>
      refine carries_bind (carries_call _) fun page => ?_
      dsimp only
      split
      · exact carries_pure _
      · exact carries_bind (carries_ofResult _) fun following => ih _ _

theorem carries_scanChildren (budget : Nat) (params : ListParams) (found : List Str) :
    Carries False (scanChildren budget params found) := by
  induction budget generalizing params found with
  | zero => exact carries_bind (carries_call _) fun page => carries_pure _
  | succ budget ih =>
      refine carries_bind (carries_call _) fun page => ?_
      dsimp only
      split
      · exact carries_bind (carries_ofResult _) fun token => ih _ _
      · exact carries_pure _

theorem carries_scanPages (maxKeys pages : Nat) (params : ListParams)
    (scanned : List S3Object) : Carries False (scanPages maxKeys pages params scanned) := by
  induction pages generalizing params scanned with
  | zero =>
      refine carries_bind (carries_call _) fun page => ?_
      split
      · exact carries_pure _
      · exact carries_ofResult _
  | succ pages ih =>
      refine carries_bind (carries_call _) fun page => ?_
      dsimp only
      split
      · exact carries_pure _
      · exact carries_bind (carries_ofResult _) fun following => ih _ _

theorem carries_deleteEach (bucket : Str) (batches : List (List Str)) (deleted : Nat) :
    Carries False (deleteEach bucket batches deleted) := by
  induction batches generalizing deleted with
  | nil => exact carries_pure _
  | cons batch rest ih => exact carries_bind (carries_call _) fun _ => ih _

theorem carries_deletePathKeys (pages : Nat) (bucket path : Str) :
    Carries False (deletePathKeys pages bucket path) := by
  unfold deletePathKeys
  split
  · refine carries_bind (carries_paginate _ _) fun replies => ?_
    split
    · exact carries_ofResult _
    · exact carries_deleteEach _ _ _
  · refine carries_bind (carries_call _) fun page => ?_
    split
    · exact carries_ofResult _
    · split
      · exact carries_bind (carries_call _) fun _ => carries_pure _
      · exact carries_ofResult _

end Loops

section Operations

variable {α : Type} (unicode : Unicode) (config : Dict) (role : Option Str)
  (bucket path : Str) (user : UserDict)

theorem carries_gatedCall {callback : S3Program α} (holds : Carries False callback) :
    Carries True (gatedCall unicode config role bucket path user callback) :=
  carries_bind (carries_ofResult _) fun _ => carries_retry holds

theorem carries_gatedListing {onVirtual : ListEntry → List FileEntry → α}
    {fetch : ListEntry → S3Program α} (holds : ∀ listing, Carries False (fetch listing)) :
    Carries True (gatedListing unicode config role bucket path user onVirtual fetch) := by
  refine carries_bind (carries_ofResult _) fun listing => ?_
  split
  · exact carries_pure _
  · exact carries_retry (holds listing)

theorem carries_object {request : S3Request} {message : Str} {value : request.Answer → α} :
    Carries False (((S3Program.call request).mapError (missingAs message)) >>= fun answer =>
      pure (value answer)) :=
  carries_bind (carries_call_missing _ _) fun _ => carries_pure _

theorem carries_listObjects (pages : Nat) :
    Carries True (listObjectsForRole unicode config pages role bucket path user) :=
  carries_gatedListing _ _ _ _ _ _ fun _ =>
    carries_bind (carries_paginate _ _) fun _ => carries_pure _

theorem carries_listObjectsRecursive (pages : Nat) (maxKeys maxPageSize : Int)
    (continuationToken : Option Str) :
    Carries True (listObjectsRecursiveForRole unicode config pages role bucket path user maxKeys
      continuationToken maxPageSize) :=
  carries_gatedListing _ _ _ _ _ _ fun _ => carries_recursivePages _ _ _ _

theorem carries_summarizeBucket (pages : Nat) (maxKeys prefixScanPages : Int) :
    Carries True (summarizeBucketForRole unicode config pages role bucket path user maxKeys
      prefixScanPages) := by
  refine carries_gatedListing _ _ _ _ _ _ fun _ => ?_
  refine carries_bind (carries_scanChildren _ _ _) fun _ => ?_
  exact carries_bind (carries_scanPages _ _ _ _) fun _ => carries_pure _

theorem carries_listBuckets : Carries True (listBucketsForRole unicode config role user) := by
  refine carries_bind (carries_ofResult _) fun validated => ?_
  refine carries_bind (carries_ofResult _) fun entry => ?_
  refine carries_bind (carries_ofResult _) fun allowed => ?_
  split
  · exact carries_pure _
  · exact carries_retry (carries_bind (carries_call _) fun _ => carries_pure _)

theorem carries_deleteObject (pages : Nat) :
    Carries True (deleteObjectForRole unicode config pages role bucket path user) :=
  carries_gatedCall _ _ _ _ _ _ <|
    carries_bind (carries_deletePathKeys _ _ _) fun _ => carries_pure _

theorem carries_copyObject (destBucket destPath : Str) :
    Carries True (copyObjectForRole unicode config role bucket path destBucket destPath user) := by
  refine carries_bind (carries_ofResult _) fun _ => ?_
  refine carries_bind (carries_ofResult _) fun _ => ?_
  refine carries_bind (carries_ofResult _) fun validated => ?_
  exact carries_retry (carries_call_missing _ _)

end Operations

end S3Manager.Storage
