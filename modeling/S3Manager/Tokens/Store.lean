import Mathlib.Data.List.Basic
import Mathlib.Data.List.Nodup
import S3Manager.Python.Error

/-! The API-token store of `api_tokens.py`: the table of `models.py` with its
constraints, the session around each call, and the five calls that the server makes. -/

set_option autoImplicit false

namespace S3Manager.Tokens

open Python

section Table

/-- A row of `api_tokens`; times are in microseconds. -/
structure ApiToken where
  id : Int
  userId : Int
  tokenHash : Str
  name : Str
  createdAt : Int
  lastUsedAt : Option Int
  revokedAt : Option Int
  isReadOnly : Bool
  maxReadBytes : Int
  deriving DecidableEq

abbrev Rows := List ApiToken

def perUserTokenLimit : Nat := 10

def maxReadBytesCeiling : Int := 10 * 1024 * 1024

/-- What the index `uq_api_token_user_name_active` holds of a row. -/
def activeName (row : ApiToken) : Option (Int × Str) :=
  if row.revokedAt.isNone then some (row.userId, row.name) else none

/-- The constraints of the table; `users` are the ids in the table of users. -/
def Schema (users : List Int) (rows : Rows) : Prop :=
  (rows.map ApiToken.id).Nodup ∧ (∀ row ∈ rows, row.userId ∈ users) ∧
    (rows.map ApiToken.tokenHash).Nodup ∧ (rows.filterMap activeName).Nodup ∧
    ∀ row ∈ rows, 0 < row.maxReadBytes ∧ row.maxReadBytes ≤ 10485760

instance (users : List Int) (rows : Rows) : Decidable (Schema users rows) := by
  unfold Schema
  infer_instance

/-- The `rowid` that SQLite gives the next row. -/
def nextId (rows : Rows) : Int :=
  (rows.map ApiToken.id).foldr max 0 + 1

/-- `session.get(ApiToken, token_id)` -/
def getToken (rows : Rows) (tokenId : Int) : Option ApiToken :=
  rows.find? fun row => row.id == tokenId

/-- The row with this id as it is in the session now. -/
def putToken (rows : Rows) (token : ApiToken) : Rows :=
  rows.map fun row => if row.id = token.id then token else row

end Table

section Session

variable (users : List Int) {α : Type}

/-- `session.flush()`: the changes of the session go to the database, which refuses what
its constraints do not allow. -/
def flush (session : Rows) : Result Unit :=
  if Schema users session then .ok ()
  else raise (.sqlAlchemyError (lit "IntegrityError")) (lit "constraint failed")

/-- `session_scope`: the changes of a body that raises are rolled back, and so are those
that the commit cannot write. -/
def sessionScope (body : Rows → Result α × Rows) (rows : Rows) : Result α × Rows :=
  match body rows with
  | (.error exc, _) => (.error exc, rows)
  | (.ok value, session) =>
      match flush users session with
      | .error exc => (.error exc, rows)
      | .ok () => (.ok value, session)

end Session

section Calls

variable (users : List Int)

/-- `select(func.count(ApiToken.id))` of the active tokens of a user. -/
def countActive (rows : Rows) (userId : Int) : Nat :=
  rows.countP fun row => row.userId == userId && row.revokedAt.isNone

/-- `create_token`; `digest` is the hash of the token that was generated. -/
def createToken (userId : Int) (name : Str) (isReadOnly : Bool) (maxReadBytes : Int)
    (digest : Str) (now : Int) : Rows → Result ApiToken × Rows :=
  sessionScope users fun session =>
    if perUserTokenLimit ≤ countActive session userId then
      (raise .valueError
        (lit s!"Token limit reached ({perUserTokenLimit}). Revoke unused tokens first."), session)
    else
      let token : ApiToken := ⟨nextId session, userId, digest, name, now, none, none, isReadOnly,
        maxReadBytes⟩
      let session := session ++ [token]
      match flush users session with
      | .error exc => (.error exc, session)
      | .ok () => (.ok token, session)

/-- `not by_is_admin and token.user_id != by_user_id` -/
def ApiToken.foreign (token : ApiToken) (byUserId : Int) (byIsAdmin : Bool) : Bool :=
  !byIsAdmin && token.userId != byUserId

/-- `revoke_token` -/
def revokeToken (tokenId byUserId : Int) (byIsAdmin : Bool) (now : Int) :
    Rows → Result Unit × Rows :=
  sessionScope users fun session =>
    match getToken session tokenId with
    | none => (raise .valueError (lit s!"Token {tokenId} not found"), session)
    | some token =>
        if token.foreign byUserId byIsAdmin then
          (raise .permissionError (lit "Only the token owner or an admin can revoke"), session)
        else if token.revokedAt.isNone then
          (.ok (), putToken session { token with revokedAt := some now })
        else (.ok (), session)

def outOfRange : Option Int → Bool
  | none => false
  | some maxReadBytes => !(1 ≤ maxReadBytes && maxReadBytes ≤ maxReadBytesCeiling)

/-- The fields that are given replace those of the token. -/
def ApiToken.edit (token : ApiToken) (name : Option Str) (isReadOnly : Option Bool)
    (maxReadBytes : Option Int) : ApiToken :=
  { token with
    name := name.getD token.name
    isReadOnly := isReadOnly.getD token.isReadOnly
    maxReadBytes := maxReadBytes.getD token.maxReadBytes }

/-- `update_token` -/
def updateToken (tokenId byUserId : Int) (byIsAdmin : Bool) (name : Option Str)
    (isReadOnly : Option Bool) (maxReadBytes : Option Int) (rows : Rows) :
    Result ApiToken × Rows :=
  if name.isNone && isReadOnly.isNone && maxReadBytes.isNone then
    (raise .valueError (lit "no fields to update"), rows)
  else if outOfRange maxReadBytes then
    (raise .valueError (lit "max_read_bytes out of range"), rows)
  else
    sessionScope users (fun session =>
      match getToken session tokenId with
      | none => (raise .valueError (lit s!"Token {tokenId} not found"), session)
      | some token =>
          if token.foreign byUserId byIsAdmin then
            (raise .permissionError (lit "Only the token owner or an admin can update"), session)
          else if token.revokedAt.isSome then
            (raise .valueError (lit s!"Token {tokenId} is revoked"), session)
          else
            let edited := token.edit name isReadOnly maxReadBytes
            let session := putToken session edited
            match flush users session with
            | .error exc => (.error exc, session)
            | .ok () => (.ok edited, session)) rows

/-- `scalar_one_or_none` -/
def scalarOneOrNone : Rows → Result (Option ApiToken)
  | [] => .ok none
  | [row] => .ok (some row)
  | _ => raise (.sqlAlchemyError (lit "MultipleResultsFound"))
      (lit "Multiple rows were found when one or none was required")

/-- `find_active_token_by_hash` -/
def findActiveTokenByHash (tokenHash : Str) : Rows → Result (Option ApiToken) × Rows :=
  sessionScope users fun session =>
    (scalarOneOrNone (session.filter fun row => row.tokenHash == tokenHash && row.revokedAt.isNone),
      session)

/-- `last_used_at IS NULL OR last_used_at < cutoff` -/
def ApiToken.usedBefore (token : ApiToken) (cutoff : Int) : Bool :=
  match token.lastUsedAt with
  | none => true
  | some time => time < cutoff

/-- `touch_last_used` -/
def touchLastUsed (tokenId throttleSeconds now : Int) : Rows → Result Unit × Rows :=
  sessionScope users fun session =>
    (.ok (), session.map fun row =>
      if row.id == tokenId && row.usedBefore (now - throttleSeconds * 1000000) then
        { row with lastUsedAt := some now }
      else row)

end Calls

end S3Manager.Tokens
