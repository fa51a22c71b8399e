import S3Manager.Library.Program
import S3Manager.Python.Error

/-! The requests that storage operations make: the S3 API calls of a client, and
the client cache they get it from. An operation is a program over these. -/

set_option autoImplicit false

namespace S3Manager.Storage

open Python Library

abbrev Bytes := List UInt8

structure S3Object where
  key : Str
  size : Nat
  lastModified : Str
  deriving DecidableEq

structure ListParams where
  bucket : Str
  searchPrefix : Str
  delimiter : Option Str
  maxKeys : Option Nat
  continuationToken : Option Str
  deriving DecidableEq

structure ListPage where
  contents : List S3Object
  commonPrefixes : List Str
  isTruncated : Bool
  nextContinuationToken : Option Str
  deriving DecidableEq

structure ObjectHead where
  contentLength : Nat
  lastModified : Option Str
  contentType : Option Str
  etag : Option Str
  deriving DecidableEq

structure ObjectBody where
  content : Bytes
  contentLength : Nat
  contentType : Option Str
  deriving DecidableEq

inductive S3Request where
  | listObjectsV2 (params : ListParams)
  | headObject (bucket key : Str)
  | getObject (bucket key : Str) (range : Option (Nat × Nat))
  | putObject (bucket key : Str) (body : Bytes) (contentType : Str)
      (contentDisposition : Option Str)
  | uploadFileobj (bucket key : Str) (body : Bytes) (contentType : Str)
      (contentDisposition : Option Str)
  | copyObject (bucket key sourceBucket sourceKey : Str)
  | deleteObject (bucket key : Str)
  | deleteObjects (bucket : Str) (keys : List Str)
  | generatePresignedUrl (bucket key : Str) (responseContentType : Option Str) (expiresIn : Int)
  | listBuckets

/-- The part of an answer that is modelled; for `deleteObjects` it is the keys
that its `Errors` name. -/
def S3Request.Answer : S3Request → Type
  | .listObjectsV2 _ => ListPage
  | .headObject _ _ => ObjectHead
  | .getObject _ _ _ => ObjectBody
  | .generatePresignedUrl _ _ _ _ => Str
  | .deleteObjects _ _ => List Str
  | .listBuckets => List Str
  | _ => Unit

/-- What an operation asks its surroundings for. -/
inductive Effect where
  /-- `get_s3_client` -/
  | getClient (roleName : Option Str)
  /-- `invalidate_s3_client` and `_clear_boto3_cached_credentials` -/
  | invalidateClient (roleName : Option Str)
  | s3 (request : S3Request)

def Effect.Reply : Effect → Type
  | .getClient _ => Result Unit
  | .invalidateClient _ => Unit
  | .s3 request => Result request.Answer

/-- A storage operation that returns a value or raises. -/
def S3Program (α : Type) : Type :=
  Program Effect.Reply (Result α)

namespace S3Program

variable {α β : Type}

def bind (program : S3Program α) (next : α → S3Program β) : S3Program β :=
  Program.bind program fun
    | .ok value => next value
    | .error exc => .pure (.error exc)

instance : Monad S3Program where
  pure value := .pure (.ok value)
  bind := bind

/-- A computation without requests. -/
def ofResult (result : Result α) : S3Program α :=
  .pure result

def raise (kind : ErrorKind) (message : Str) : S3Program α :=
  ofResult (Python.raise kind message)

/-- One S3 API call. -/
def call (request : S3Request) : S3Program request.Answer :=
  .perform (.s3 request) .pure

/-- `except` clauses that raise again, possibly another exception. -/
def mapError (translate : PyError → PyError) (program : S3Program α) : S3Program α :=
  Program.bind program fun
    | .ok value => .pure (.ok value)
    | .error exc => .pure (.error (translate exc))

end S3Program

theorem ofResult_ok_bind {α β : Type} (value : α) (next : α → S3Program β) :
    S3Program.ofResult (.ok value) >>= next = next value := rfl

section Laws

variable {α β : Type} (permitted : S3Request → Prop)
  (faithful : (request : S3Request) → request.Answer → Prop)

/-- Only S3 requests are restricted. -/
def onlyS3 : Effect → Prop
  | .s3 request => permitted request
  | _ => True

/-- Only successful answers of S3 are. -/
def faithfulReply : (effect : Effect) → effect.Reply → Prop
  | .s3 request, reply => ∀ answer, reply = .ok answer → faithful request answer
  | .getClient _, _ => True
  | .invalidateClient _, _ => True

/-- Every S3 request of the program is permitted, and every value it returns
satisfies `post`, as long as S3 answers faithfully. -/
def S3Program.Sends (program : S3Program α) (post : α → Prop) : Prop :=
  Program.wp (onlyS3 permitted) (faithfulReply faithful)
    (fun result => ∀ value, result = .ok value → post value) program

variable {permitted faithful}

@[simp] theorem sends_ok (post : α → Prop) (value : α) :
    S3Program.Sends permitted faithful (pure value : S3Program α) post ↔ post value := by
  show (∀ v, (Except.ok value : Result α) = .ok v → post v) ↔ post value
  simp

@[simp] theorem sends_ofResult (post : α → Prop) (result : Result α) :
    (S3Program.ofResult result).Sends permitted faithful post ↔
      ∀ value, result = .ok value → post value := Iff.rfl

@[simp] theorem sends_raise (post : α → Prop) (kind : ErrorKind) (message : Str) :
    (S3Program.raise kind message : S3Program α).Sends permitted faithful post := by
  intro value claim
  simp [Python.raise] at claim

theorem sends_bind (post : β → Prop) (program : S3Program α) (next : α → S3Program β) :
    (program >>= next).Sends permitted faithful post ↔
      program.Sends permitted faithful fun value =>
        (next value).Sends permitted faithful post := by
  refine (Program.wp_bind _ _ _ program _).trans ⟨fun holds => ?_, fun holds => ?_⟩
  · refine Program.wp_mono holds fun result => ?_
    rintro first _ rfl
    exact first
  · refine Program.wp_mono holds fun result => ?_
    cases result with
    | ok value => exact fun first => first value rfl
    | error exc => exact fun _ value claim => absurd claim (by simp)

@[simp] theorem sends_call (request : S3Request) (post : request.Answer → Prop) :
    (S3Program.call request).Sends permitted faithful post ↔
      permitted request ∧ ∀ answer, faithful request answer → post answer := by
  constructor
  · rintro ⟨allowed, rest⟩
    refine ⟨allowed, fun answer valid => rest (.ok answer) ?_ answer rfl⟩
    intro other same
    exact Except.ok.inj same ▸ valid
  · rintro ⟨allowed, rest⟩
    exact ⟨allowed, fun reply valid answer same => rest answer (valid answer same)⟩

theorem sends_mono {first second : α → Prop} {program : S3Program α}
    (holds : program.Sends permitted faithful first)
    (weaker : ∀ value, first value → second value) :
    program.Sends permitted faithful second :=
  Program.wp_mono holds fun _ claim value same => weaker value (claim value same)

@[simp] theorem sends_mapError (translate : PyError → PyError) (program : S3Program α)
    (post : α → Prop) :
    (program.mapError translate).Sends permitted faithful post ↔
      program.Sends permitted faithful post := by
  refine (Program.wp_bind _ _ _ program _).trans ⟨fun holds => ?_, fun holds => ?_⟩
  · refine Program.wp_mono holds fun result => ?_
    rintro first value rfl
    exact first value rfl
  · refine Program.wp_mono holds fun result => ?_
    cases result with
    | ok value => exact id
    | error exc => exact fun _ value claim => absurd claim (by simp)

end Laws

end S3Manager.Storage
