import S3Manager.Library.OrderedMap
import S3Manager.Library.Paging
import S3Manager.Storage.Requests
import Mathlib.Data.Char
import Mathlib.Data.List.Lex

/-! S3 itself, as the operations see it: what a store answers to each request and
how the request changes it. Keys are listed in ascending order of code points,
which is their order in UTF-8. -/

set_option autoImplicit false

namespace S3Manager.Storage

open Python Library

structure Stored where
  body : Bytes
  contentType : Option Str
  lastModified : Str
  deriving DecidableEq

/-- What S3 leaves open: its tokens, the links it signs, and its digests. -/
structure Conventions where
  token : Str → Str
  mark : Str → Option Str
  link : Str → Str → Int → Str
  digest : Bytes → Str
  mark_token : ∀ name, mark (token name) = some name
  token_nonempty : ∀ name, token name ≠ []

/-- Tokens that are the name itself behind a mark. -/
def Conventions.plain : Conventions where
  token name := '>' :: name
  mark text := text.tail?
  link bucket key _ := bucket ++ '/' :: key
  digest body := lit (toString body.length)
  mark_token _ := rfl
  token_nonempty _ := List.cons_ne_nil _ _

structure Store where
  bucketNames : List Str
  objects : Str → OrderedMap Str Stored
  now : Str

section Listing

/-- A line of a listing: a key, or the common prefix of several keys. -/
inductive Listed where
  | object (object : S3Object)
  | group (commonPrefix : Str)
  deriving DecidableEq

def Listed.name : Listed → Str
  | .object shown => shown.key
  | .group commonPrefix => commonPrefix

def Listed.object? : Listed → Option S3Object
  | .object shown => some shown
  | .group _ => none

def Listed.group? : Listed → Option Str
  | .object _ => none
  | .group commonPrefix => some commonPrefix

/-- The text up to and including its first delimiter. -/
def uptoDelimiter (delimiter : Str) : Str → Option Str
  | [] => none
  | c :: rest =>
      if delimiter <+: c :: rest then some delimiter
      else (uptoDelimiter delimiter rest).map (c :: ·)

def storedObject (entry : Str × Stored) : S3Object where
  key := entry.1
  size := entry.2.body.length
  lastModified := entry.2.lastModified

def listed (params : ListParams) (entry : Str × Stored) : Listed :=
  match params.delimiter with
  | none => .object (storedObject entry)
  | some delimiter =>
      match uptoDelimiter delimiter (entry.1.drop params.searchPrefix.length) with
      | none => .object (storedObject entry)
      | some segment => .group (params.searchPrefix ++ segment)

/-- Keys with one common prefix stand next to each other and make one line. -/
def rollUp : List Listed → List Listed
  | [] => []
  | item :: rest =>
      if item.group?.isSome ∧ (rollUp rest).head? = some item then rollUp rest
      else item :: rollUp rest

/-- All lines that a listing with this prefix and delimiter has. -/
def Store.listing (store : Store) (params : ListParams) : List Listed :=
  rollUp (((store.objects params.bucket).entries.filter fun entry =>
    params.searchPrefix.isPrefixOf entry.1).map (listed params))

def pageSize (params : ListParams) : Nat :=
  min (params.maxKeys.getD 1000) 1000

/-- One page of the lines that remain. -/
def listPage (conventions : Conventions) (size : Nat) (lines : List Listed) : ListPage where
  contents := (lines.take size).filterMap Listed.object?
  commonPrefixes := (lines.take size).filterMap Listed.group?
  isTruncated := decide (size < lines.length)
  nextContinuationToken := (Paging.nextMark Listed.name size lines).map conventions.token

def s3Error {α : Type} (code : String) (status : Nat) : Result α :=
  raise (.clientError (lit code) status) []

/-- The lines that a request has not seen yet. -/
def Store.remaining (store : Store) (conventions : Conventions) (params : ListParams) :
    Result (List Listed) :=
  match params.continuationToken with
  | none => .ok (store.listing params)
  | some token =>
      match conventions.mark token with
      | none => s3Error "InvalidArgument" 400
      | some mark => .ok (Paging.after Listed.name (store.listing params) (some mark))

def Store.listObjectsV2 (store : Store) (conventions : Conventions) (params : ListParams) :
    Result ListPage :=
  (store.remaining conventions params).map (listPage conventions (pageSize params))

end Listing

section Answers

variable (store : Store) (conventions : Conventions)

def Store.get? (bucket key : Str) : Option Stored :=
  (store.objects bucket).get? key

/-- The store with other objects in one bucket. -/
def Store.setBucket (bucket : Str) (objects : OrderedMap Str Stored) : Store :=
  { store with objects := fun name => if name = bucket then objects else store.objects name }

def Store.put (bucket key : Str) (body : Bytes) (contentType : Option Str) : Store :=
  store.setBucket bucket
    ((store.objects bucket).insert key ⟨body, contentType, store.now⟩)

def Store.eraseAll (bucket : Str) (keys : List Str) : Store :=
  store.setBucket bucket ((store.objects bucket).eraseAll keys)

def Store.getObject (bucket key : Str) (range : Option (Nat × Nat)) : Result ObjectBody :=
  match store.get? bucket key with
  | none => s3Error "NoSuchKey" 404
  | some stored =>
      match range with
      | none => .ok ⟨stored.body, stored.body.length, stored.contentType⟩
      | some (first, last) =>
          let part := (stored.body.take (last + 1)).drop first
          if part.isEmpty then s3Error "InvalidRange" 416
          else .ok ⟨part, part.length, stored.contentType⟩

/-- The answer of S3 to a request, and the store it leaves. A `DeleteObjects` that is answered
takes all its keys; the S3 of `LossyStore` may refuse some of them. -/
def Store.answer : (request : S3Request) → Result request.Answer × Store
  | .listObjectsV2 params => (store.listObjectsV2 conventions params, store)
  | .headObject bucket key =>
      match store.get? bucket key with
      | none => (s3Error "404" 404, store)
      | some stored =>
          (.ok ⟨stored.body.length, some stored.lastModified, stored.contentType,
            some (conventions.digest stored.body)⟩, store)
  | .getObject bucket key range => (store.getObject bucket key range, store)
  | .putObject bucket key body contentType _
  | .uploadFileobj bucket key body contentType _ =>
      (.ok (), store.put bucket key body (some contentType))
  | .copyObject bucket key sourceBucket sourceKey =>
      match store.get? sourceBucket sourceKey with
      | none => (s3Error "NoSuchKey" 404, store)
      | some stored => (.ok (), store.put bucket key stored.body stored.contentType)
  | .deleteObject bucket key => (.ok (), store.eraseAll bucket [key])
  | .deleteObjects bucket keys => (.ok [], store.eraseAll bucket keys)
  | .generatePresignedUrl bucket key _ expiresIn =>
      (.ok (conventions.link bucket key expiresIn), store)
  | .listBuckets => (.ok store.bucketNames, store)

/-- What an operation runs in: the store, and a schedule of the calls that fail. A
call that fails leaves the store as it is. -/
structure World where
  store : Store
  faults : Nat → Option PyError

def World.later (world : World) (store : Store) : World where
  store := store
  faults := fun count => world.faults (count + 1)

/-- One S3 for all roles: a role whose endpoint leads to another S3 has a world of its own. -/
def handle : (effect : Effect) → World → effect.Reply × World
  | .getClient _, world =>
      match world.faults 0 with
      | some exc => (.error exc, world.later world.store)
      | none => (.ok (), world.later world.store)
  | .invalidateClient _, world => ((), world.later world.store)
  | .s3 request, world =>
      match world.faults 0 with
      | some exc => (.error exc, world.later world.store)
      | none =>
          let answered := world.store.answer conventions request
          (answered.1, world.later answered.2)

def S3Program.run {α : Type} (program : S3Program α) (world : World) : Result α × World :=
  Program.run (handle conventions) program world

end Answers

end S3Manager.Storage
