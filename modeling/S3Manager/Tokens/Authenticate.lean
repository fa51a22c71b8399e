import S3Manager.Auth.Session
import S3Manager.Mcp.Tools
import S3Manager.Tokens.Runs

/-! `authenticate_mcp_request`: which bearer texts are let in after tokens have been issued,
edited, revoked and used in any order, and as whom. -/

set_option autoImplicit false

namespace S3Manager.Tokens

open Python Access Library

section Request

/-- A row of `users` with its `user_roles`, as far as a request over MCP reads it. -/
structure User where
  id : Int
  username : Str
  isAdmin : Bool
  roles : List Str

/-- The `user_dict` of a request over MCP. -/
structure McpUser where
  username : Str
  isAdmin : Bool
  allowedRoles : List Json

/-- What a server has besides its tokens. `sha256` is the hex digest of the encoded text. -/
structure Server where
  accounts : List User
  sha256 : Str → Str
  distinct : (accounts.map User.id).Nodup

def Server.users (server : Server) : List Int := server.accounts.map User.id

def tokenPrefix : Str := lit "as3m_"

/-- `generate_token`, for what `token_urlsafe` returned. -/
def Server.generateToken (server : Server) (raw : Str) : Str × Str :=
  (tokenPrefix ++ raw, server.sha256 (tokenPrefix ++ raw))

variable (server : Server) (config : Dict)

/-- An administrator may use every role of the config, and others those in their rows. -/
def User.principal (account : User) : Result McpUser :=
  if account.isAdmin then do
    let roles ← iterate (configRoles config)
    let names ← Auth.roleNamesFromConfig roles
    .ok ⟨account.username, true, names⟩
  else .ok ⟨account.username, false, account.roles.map .str⟩

def invalidToken {α : Type} (message : String) : Result α :=
  Mcp.raiseMcp "INVALID_TOKEN" (lit message)

def bearer : Str := lit "Bearer "

/-- `authenticate_mcp_request`; the use of the token is recorded once a minute at most. -/
def authenticateMcpRequest (authorization : Option Str) (now : Int) (rows : Rows) :
    Result (ApiToken × McpUser) × Rows :=
  let authHeader := authorization.getD []
  if !startsWith authHeader bearer then
    (invalidToken "Missing or malformed Bearer token", rows)
  else
    let plaintext := authHeader.drop bearer.length
    if !startsWith plaintext tokenPrefix then
      (invalidToken "Token does not start with as3m_", rows)
    else
      match findActiveTokenByHash server.users (server.sha256 plaintext) rows with
      | (.error exc, rows) => (.error exc, rows)
      | (.ok none, rows) => (invalidToken "Invalid or revoked token", rows)
      | (.ok (some token), rows) =>
          match server.accounts.find? fun account => account.id == token.userId with
          | none => (invalidToken "Token's user no longer exists", rows)
          | some account =>
              match account.principal config with
              | .error exc => (.error exc, rows)
              | .ok user =>
                  (touchLastUsed server.users token.id 60 now rows).map
                    (Except.map fun _ => (token, user)) id

end Request

section Actions

/-- What happens to the tokens of a server. -/
inductive ServerAction where
  | create (userId : Int) (name : Str) (isReadOnly : Bool) (maxReadBytes : Int) (raw : Str)
      (now : Int)
  | update (tokenId byUserId : Int) (byIsAdmin : Bool) (name : Option Str)
      (isReadOnly : Option Bool) (maxReadBytes : Option Int)
  | revoke (tokenId byUserId : Int) (byIsAdmin : Bool) (now : Int)
  | request (config : Dict) (authorization : Option Str) (now : Int)

namespace ServerAction

variable (server : Server) (rows : Rows)

/-- The rows after an action. -/
def after : ServerAction → Rows
  | create userId name isReadOnly maxReadBytes raw now =>
      (createToken server.users userId name isReadOnly maxReadBytes (server.generateToken raw).2 now
        rows).2
  | update tokenId byUserId byIsAdmin name isReadOnly maxReadBytes =>
      (updateToken server.users tokenId byUserId byIsAdmin name isReadOnly maxReadBytes rows).2
  | revoke tokenId byUserId byIsAdmin now =>
      (revokeToken server.users tokenId byUserId byIsAdmin now rows).2
  | request config authorization now =>
      (authenticateMcpRequest server config authorization now rows).2

/-- The token that an action has issued. -/
def issued : ServerAction → Option ApiToken
  | create userId name isReadOnly maxReadBytes raw now =>
      (createToken server.users userId name isReadOnly maxReadBytes (server.generateToken raw).2 now
        rows).1.toOption
  | _ => none

/-- It has issued this token, and this text for those who bear it. -/
def Issues (text : Str) (token : ApiToken) : ServerAction → Prop
  | create userId name isReadOnly maxReadBytes raw now =>
      (createToken server.users userId name isReadOnly maxReadBytes (server.generateToken raw).2 now
        rows).1 = .ok token ∧ (server.generateToken raw).1 = text
  | _ => False

/-- The token whose revocation was answered normally. -/
def revoked : ServerAction → Option Int
  | revoke tokenId byUserId byIsAdmin now =>
      (revokeToken server.users tokenId byUserId byIsAdmin now rows).1.toOption.map fun _ => tokenId
  | _ => none

end ServerAction

inductive ServerStep (server : Server) : Rows → ServerAction → Rows → Prop where
  | act {rows : Rows} (action : ServerAction) :
      ServerStep server rows action (action.after server rows)

end Actions

section Steps

variable {users : List Int} {rows next : Rows} {server : Server}

/-- The rows after an action: those before, each with its id, hash and owner, revoked if it was
or this action has revoked it; and behind them what was issued. -/
structure Evolves (issued : Option ApiToken) (revoked : Option Int) (rows next : Rows) : Prop where
  rows : ∃ change : ApiToken → ApiToken, next = rows.map change ++ issued.toList ∧
    ∀ row ∈ rows, (change row).id = row.id ∧ (change row).tokenHash = row.tokenHash ∧
      (change row).userId = row.userId ∧
        ((change row).revokedAt = none ↔ row.revokedAt = none ∧ revoked ≠ some row.id)

theorem evolves_refl (rows : Rows) : Evolves none none rows rows :=
  ⟨id, by simp, fun row _ => ⟨rfl, rfl, rfl, by simp⟩⟩

theorem scope_ok {α : Type} {body : Rows → Result α × Rows} {value : α}
    (ran : (sessionScope users body rows).1 = .ok value) :
    body rows = (.ok value, (sessionScope users body rows).2) := by
  obtain ⟨exc, ended⟩ | ⟨other, session, made, -, ended⟩ := @sessionScope_cases users rows _ body
  · rw [ended] at ran
    cases ran
  · rw [ended] at ran ⊢
    rw [made, Except.ok.inj ran]

theorem evolves_undone {α : Type} {outcome : Result α × Rows} {exc : PyError}
    (undone : Undone rows outcome) (raised : outcome.1 = .error exc) :
    Evolves none none rows outcome.2 :=
  undone exc raised ▸ evolves_refl rows

theorem create_evolves {userId maxReadBytes now : Int} {name digest : Str} {isReadOnly : Bool} :
    Evolves (createToken users userId name isReadOnly maxReadBytes digest now rows).1.toOption none
      rows (createToken users userId name isReadOnly maxReadBytes digest now rows).2 := by
  cases ended : (createToken users userId name isReadOnly maxReadBytes digest now rows).1 with
  | error exc =>
      rw [createToken] at ended ⊢
      exact evolves_undone (sessionScope_undone _) ended
  | ok token =>
      have ran := scope_ok ended
      split_ifs at ran with full
      · cases ran
      · dsimp only at ran
        split at ran
        · cases ran
        · obtain ⟨same, left⟩ := Prod.mk.inj ran
          refine ⟨id, ?_, fun row _ => ⟨rfl, rfl, rfl, by simp⟩⟩
          rw [createToken, ← left, ← Except.ok.inj same]
          simp [Except.toOption]

theorem issued_row {userId maxReadBytes now : Int} {name digest : Str} {isReadOnly : Bool}
    {token : ApiToken}
    (ended : (createToken users userId name isReadOnly maxReadBytes digest now rows).1 = .ok token) :
    token.tokenHash = digest ∧ token.userId = userId ∧ token.revokedAt = none := by
  have ran := scope_ok ended
  split_ifs at ran with full
  · cases ran
  · dsimp only at ran
    split at ran
    · cases ran
    · obtain ⟨same, -⟩ := Prod.mk.inj ran
      rw [← Except.ok.inj same]
      exact ⟨rfl, rfl, rfl⟩

/-- A row that is put in the place of another one. -/
theorem put_evolves {token edited : ApiToken} {revoked : Option Int}
    (unique : (rows.map ApiToken.id).Nodup) (member : token ∈ rows) (sameId : edited.id = token.id)
    (tokenHash : edited.tokenHash = token.tokenHash) (userId : edited.userId = token.userId)
    (revokes : edited.revokedAt = none ↔ token.revokedAt = none ∧ revoked ≠ some token.id)
    (only : ∀ other, revoked = some other → other = token.id) :
    Evolves none revoked rows (putToken rows edited) := by
  refine ⟨fun row => if row.id = edited.id then edited else row, by simp [putToken],
    fun row listed => ?_⟩
  dsimp only
  split_ifs with same
  · obtain rfl := List.inj_on_of_nodup_map unique listed member (same.trans sameId)
    exact ⟨sameId, tokenHash, userId, revokes⟩
  · refine ⟨rfl, rfl, rfl, fun active => ⟨active, fun claimed => ?_⟩, fun holds => holds.1⟩
    exact same ((only _ claimed).trans sameId.symm)

theorem update_evolves {tokenId byUserId : Int} {byIsAdmin : Bool} {name : Option Str}
    {isReadOnly : Option Bool} {maxReadBytes : Option Int} (unique : (rows.map ApiToken.id).Nodup) :
    Evolves none none rows
      (updateToken users tokenId byUserId byIsAdmin name isReadOnly maxReadBytes rows).2 := by
  unfold updateToken
  split_ifs with empty far
  · exact evolves_refl rows
  · exact evolves_refl rows
  · obtain ⟨exc, ended⟩ | ⟨value, session, ran, -, ended⟩ := @sessionScope_cases users rows _ _
    · rw [ended]
      exact evolves_refl rows
    · rw [ended]
      split at ran
      · cases ran
      · next token found =>
          obtain ⟨member, rfl⟩ := getToken_some found
          split_ifs at ran with foreign revoked
          · cases ran
          · cases ran
          · dsimp only at ran
            split at ran
            · cases ran
            · obtain ⟨-, rfl⟩ := Prod.mk.inj ran
              exact put_evolves unique member rfl rfl rfl (by simp [ApiToken.edit]) (by simp)

theorem revoke_evolves {tokenId byUserId now : Int} {byIsAdmin : Bool}
    (unique : (rows.map ApiToken.id).Nodup) :
    Evolves none ((revokeToken users tokenId byUserId byIsAdmin now rows).1.toOption.map
      fun _ => tokenId) rows (revokeToken users tokenId byUserId byIsAdmin now rows).2 := by
  cases answered : (revokeToken users tokenId byUserId byIsAdmin now rows).1 with
  | error exc =>
      rw [revokeToken] at answered ⊢
      exact evolves_undone (sessionScope_undone _) answered
  | ok value =>
      have ran := scope_ok answered
      rw [show (revokeToken users tokenId byUserId byIsAdmin now rows).2 = _ from rfl]
      split at ran
      · cases ran
      · next token found =>
          obtain ⟨member, rfl⟩ := getToken_some found
          split_ifs at ran with foreign active
          · cases ran
          · obtain ⟨-, left⟩ := Prod.mk.inj ran
            rw [revokeToken, ← left]
            exact put_evolves unique member rfl rfl rfl (by simp [Except.toOption])
              (by simp [Except.toOption])
          · obtain ⟨-, left⟩ := Prod.mk.inj ran
            rw [revokeToken, ← left]
            refine ⟨id, by simp, fun row listed => ⟨rfl, rfl, rfl, fun alive => ⟨alive, ?_⟩,
              fun holds => holds.1⟩⟩
            intro same
            have own : row.id = token.id := by simpa [Except.toOption] using same.symm
            obtain rfl := List.inj_on_of_nodup_map unique listed member own
            exact active (by rw [Option.isNone_iff_eq_none]; exact alive)

theorem find_rows {tokenHash : Str} : (findActiveTokenByHash users tokenHash rows).2 = rows := by
  unfold findActiveTokenByHash
  obtain ⟨exc, ended⟩ | ⟨value, session, ran, -, ended⟩ := @sessionScope_cases users rows _ _
  · rw [ended]
  · rw [ended]
    exact (Prod.mk.inj ran).2.symm

theorem touch_evolves {tokenId throttleSeconds now : Int} :
    Evolves none none rows (touchLastUsed users tokenId throttleSeconds now rows).2 := by
  unfold touchLastUsed
  obtain ⟨exc, ended⟩ | ⟨value, session, ran, -, ended⟩ := @sessionScope_cases users rows _ _
  · rw [ended]
    exact evolves_refl rows
  · rw [ended]
    obtain ⟨-, rfl⟩ := Prod.mk.inj ran
    refine ⟨_, (List.append_nil _).symm, fun row _ => ?_⟩
    split_ifs <;> exact ⟨rfl, rfl, rfl, by simp⟩

/-- A request leaves the rows as they are, or records a use. -/
theorem authenticate_rows (server : Server) (config : Dict) (authorization : Option Str) (now : Int)
    (rows : Rows) :
    (authenticateMcpRequest server config authorization now rows).2 = rows ∨
      ∃ tokenId, (authenticateMcpRequest server config authorization now rows).2 =
        (touchLastUsed server.users tokenId 60 now rows).2 := by
  unfold authenticateMcpRequest
  dsimp only
  split_ifs
  · exact .inl rfl
  · exact .inl rfl
  · have unchanged := @find_rows server.users rows
      (server.sha256 ((authorization.getD []).drop bearer.length))
    split
    · next same => exact .inl (by rw [same] at unchanged; exact unchanged)
    · next same => exact .inl (by rw [same] at unchanged; exact unchanged)
    · next token left same =>
        obtain rfl : left = rows := by rw [same] at unchanged; exact unchanged
        split
        · exact .inl rfl
        · split
          · exact .inl rfl
          · exact .inr ⟨token.id, rfl⟩

theorem request_evolves {config : Dict} {authorization : Option Str} {now : Int} :
    Evolves none none rows (authenticateMcpRequest server config authorization now rows).2 := by
  obtain same | ⟨tokenId, same⟩ := authenticate_rows server config authorization now rows
  · rw [same]
    exact evolves_refl rows
  · rw [same]
    exact touch_evolves

/-- What every action does. -/
theorem action_evolves (action : ServerAction) (unique : (rows.map ApiToken.id).Nodup) :
    Evolves (action.issued server rows) (action.revoked server rows) rows
      (action.after server rows) := by
  cases action with
  | create => exact create_evolves
  | update => exact update_evolves unique
  | revoke => exact revoke_evolves unique
  | request => exact request_evolves

theorem action_kept (action : ServerAction) (kept : Kept server.users rows) :
    Kept server.users (action.after server rows) := by
  have unique := kept.schema.1
  cases action with
  | create => exact kept_change kept (@create_change _ _ (.find []) _ _ _ _ _ _)
  | update => exact kept_change kept (update_change unique)
  | revoke => exact kept_change kept (revoke_change unique)
  | request config authorization now =>
      simp only [ServerAction.after]
      obtain same | ⟨tokenId, same⟩ := authenticate_rows server config authorization now rows
      · rwa [same]
      · rw [same]
        exact kept_change kept (@touch_change _ _ (.find []) _ _ _)

theorem issues_iff (action : ServerAction) (token : ApiToken) :
    action.issued server rows = some token ↔ ∃ text, action.Issues server rows text token := by
  cases action with
  | create userId name isReadOnly maxReadBytes raw now =>
      simp only [ServerAction.issued, ServerAction.Issues]
      cases (createToken server.users userId name isReadOnly maxReadBytes (server.generateToken raw).2
        now rows).1 <;> simp [Except.toOption]
  | update | revoke | request => simp [ServerAction.issued, ServerAction.Issues]

theorem issues_row {action : ServerAction} {text : Str} {token : ApiToken}
    (issues : action.Issues server rows text token) :
    token.tokenHash = server.sha256 text ∧ token.revokedAt = none := by
  cases action with
  | create userId name isReadOnly maxReadBytes raw now =>
      obtain ⟨made, rfl⟩ := issues
      obtain ⟨hash, -, active⟩ := issued_row made
      exact ⟨hash, active⟩
  | update | revoke | request => exact issues.elim

theorem issued_revokes_nothing {action : ServerAction} {token : ApiToken}
    (issued : action.issued server rows = some token) : action.revoked server rows = none := by
  cases action with
  | create => rfl
  | update | revoke | request => cases issued

/-- Only a token that is listed can be revoked. -/
theorem revoked_listed {action : ServerAction} {tokenId : Int}
    (gone : action.revoked server rows = some tokenId) : tokenId ∈ rows.map ApiToken.id := by
  cases action with
  | revoke other byUserId byIsAdmin now =>
      simp only [ServerAction.revoked] at gone
      cases answered : (revokeToken server.users other byUserId byIsAdmin now rows).1 with
      | error exc =>
          rw [answered] at gone
          cases gone
      | ok value =>
          rw [answered] at gone
          obtain rfl : other = tokenId := by simpa [Except.toOption] using gone
          have ran := scope_ok answered
          split at ran
          · cases ran
          · next token found =>
              obtain ⟨member, rfl⟩ := getToken_some found
              exact List.mem_map_of_mem member
  | create | update | request => cases gone

end Steps

section Runs

variable {server : Server} {trace : List (Rows × ServerAction)} {rows next : Rows}

/-- The two rows are one token, in different states. -/
structure SameToken (first second : ApiToken) : Prop where
  id : first.id = second.id
  tokenHash : first.tokenHash = second.tokenHash
  userId : first.userId = second.userId

theorem SameToken.symm {first second : ApiToken} (same : SameToken first second) :
    SameToken second first := ⟨same.id.symm, same.tokenHash.symm, same.userId.symm⟩

theorem SameToken.trans {first second third : ApiToken} (left : SameToken first second)
    (right : SameToken second third) : SameToken first third :=
  ⟨left.id.trans right.id, left.tokenHash.trans right.tokenHash, left.userId.trans right.userId⟩

/-- What the rows have to do with what has happened to them. -/
structure Ledger (server : Server) (trace : List (Rows × ServerAction)) (rows : Rows) : Prop where
  kept : Kept server.users rows
  origin : ∀ row ∈ rows, ∃ visited ∈ trace, ∃ token,
    visited.2.issued server visited.1 = some token ∧ SameToken token row
  listed : ∀ visited ∈ trace, ∀ token, visited.2.issued server visited.1 = some token →
    ∃ row ∈ rows, SameToken token row
  known : ∀ visited ∈ trace, ∀ tokenId, visited.2.revoked server visited.1 = some tokenId →
    tokenId ∈ rows.map ApiToken.id
  alive : ∀ row ∈ rows, row.revokedAt = none ↔
    ∀ visited ∈ trace, visited.2.revoked server visited.1 ≠ some row.id

theorem ledger_nil : Ledger server [] [] := by
  constructor <;> simp [kept_nil]

theorem forall_last {holds : Rows × ServerAction → Prop} {action : ServerAction} :
    (∀ visited ∈ trace ++ [(rows, action)], holds visited) ↔
      (∀ visited ∈ trace, holds visited) ∧ holds (rows, action) := by
  rw [List.forall_mem_append, List.forall_mem_singleton]

/-- Every action adds itself to what the rows tell. -/
theorem ledger_step (trace : List (Rows × ServerAction)) (rows : Rows) (action : ServerAction)
    (next : Rows) (ledger : Ledger server trace rows) (step : ServerStep server rows action next) :
    Ledger server (trace ++ [(rows, action)]) next := by
  cases step
  have keptNext := action_kept action ledger.kept
  obtain ⟨change, shape, same⟩ := (action_evolves action ledger.kept.schema.1).rows
  have old {row : ApiToken} (member : row ∈ rows) : change row ∈ action.after server rows := by
    rw [shape]
    exact List.mem_append_left _ (List.mem_map_of_mem member)
  have sameToken {row : ApiToken} (member : row ∈ rows) : SameToken row (change row) :=
    ⟨(same row member).1.symm, (same row member).2.1.symm, (same row member).2.2.1.symm⟩
  refine ⟨keptNext, fun row member => ?_, forall_last.mpr ⟨?_, fun token made => ?_⟩,
    forall_last.mpr ⟨?_, fun tokenId gone => ?_⟩, fun row member => ?_⟩
  · rw [shape] at member
    obtain before | new := List.mem_append.mp member
    · obtain ⟨row, listed, rfl⟩ := List.mem_map.mp before
      obtain ⟨visited, earlier, token, made, origin⟩ := ledger.origin row listed
      exact ⟨visited, List.mem_append_left _ earlier, token, made, origin.trans (sameToken listed)⟩
    · exact ⟨(rows, action), by simp, row, Option.mem_toList.mp new, rfl, rfl, rfl⟩
  · intro visited earlier token made
    obtain ⟨row, member, origin⟩ := ledger.listed visited earlier token made
    exact ⟨change row, old member, origin.trans (sameToken member)⟩
  · refine ⟨token, ?_, rfl, rfl, rfl⟩
    rw [shape]
    exact List.mem_append_right _ (Option.mem_toList.mpr made)
  · intro visited earlier tokenId gone
    obtain ⟨row, member, rfl⟩ := List.mem_map.mp (ledger.known visited earlier tokenId gone)
    exact List.mem_map.mpr ⟨change row, old member, (same row member).1⟩
  · obtain ⟨row, member, rfl⟩ := List.mem_map.mp (revoked_listed gone)
    exact List.mem_map.mpr ⟨change row, old member, (same row member).1⟩
  · rw [forall_last]
    rw [shape] at member
    obtain before | new := List.mem_append.mp member
    · obtain ⟨row, listed, rfl⟩ := List.mem_map.mp before
      obtain ⟨sameId, -, -, revokes⟩ := same row listed
      rw [revokes, ledger.alive row listed, sameId]
    · have made := Option.mem_toList.mp new
      obtain ⟨text, issues⟩ := (issues_iff action row).mp made
      refine ⟨fun _ => ⟨fun visited earlier gone => ?_, ?_⟩, fun _ => (issues_row issues).2⟩
      · -- an id that was revoked before is the id of an older row
        have unique := keptNext.schema.1
        rw [shape, Option.mem_def.mp made] at unique
        have apart := (List.nodup_append.mp (List.map_append ▸ unique)).2.2
        obtain ⟨other, member, named⟩ := List.mem_map.mp (ledger.known visited earlier _ gone)
        exact apart _ (List.mem_map_of_mem (List.mem_map_of_mem member)) row.id (by simp)
          ((same other member).1.trans named)
      · rw [issued_revokes_nothing made]
        exact Option.some_ne_none _ ∘ Eq.symm

theorem ledger_run (run : Execution (ServerStep server) [] trace rows) : Ledger server trace rows :=
  run.history ledger_step ledger_nil

/-- The time of its last use is part of no constraint on a row. -/
theorem schema_map {users : List Int} {change : ApiToken → ApiToken} (schema : Schema users rows)
    (untouched : ∀ row, ∃ time, change row = { row with lastUsedAt := time }) :
    Schema users (rows.map change) := by
  have sameIds : rows.map (ApiToken.id ∘ change) = rows.map ApiToken.id := by
    refine List.map_congr_left fun row _ => ?_
    obtain ⟨time, same⟩ := untouched row
    rw [Function.comp_apply, same]
  have sameHashes : rows.map (ApiToken.tokenHash ∘ change) = rows.map ApiToken.tokenHash := by
    refine List.map_congr_left fun row _ => ?_
    obtain ⟨time, same⟩ := untouched row
    rw [Function.comp_apply, same]
  have sameNames : rows.filterMap (activeName ∘ change) = rows.filterMap activeName := by
    refine List.filterMap_congr fun row _ => ?_
    obtain ⟨time, same⟩ := untouched row
    rw [Function.comp_apply, same]
    rfl
  obtain ⟨ids, owners, hashes, names, bounds⟩ := schema
  refine ⟨?_, ?_, ?_, ?_, ?_⟩
  · rwa [List.map_map, sameIds]
  · rw [List.forall_mem_map]
    intro row member
    obtain ⟨time, same⟩ := untouched row
    rw [same]
    exact owners row member
  · rwa [List.map_map, sameHashes]
  · rwa [List.filterMap_map, sameNames]
  · rw [List.forall_mem_map]
    intro row member
    obtain ⟨time, same⟩ := untouched row
    rw [same]
    exact bounds row member

theorem touch_answers {users : List Int} (kept : Kept users rows) (tokenId throttleSeconds now : Int) :
    (touchLastUsed users tokenId throttleSeconds now rows).1 = .ok () := by
  have accepted : Schema users (rows.map fun row =>
      if row.id == tokenId && row.usedBefore (now - throttleSeconds * 1000000) then
        { row with lastUsedAt := some now } else row) := by
    refine schema_map kept.schema fun row => ?_
    split_ifs
    · exact ⟨_, rfl⟩
    · exact ⟨row.lastUsedAt, rfl⟩
  simp only [touchLastUsed, sessionScope, flush, if_pos accepted]

/-- The account of an owner is found by its id. -/
theorem find_account {account : User} (known : account ∈ server.accounts) :
    (server.accounts.find? fun other => other.id == account.id) = some account := by
  cases found : server.accounts.find? fun other => other.id == account.id with
  | none =>
      have missing := List.find?_eq_none.mp found account known
      simp at missing
  | some other =>
      have sameId : other.id = account.id := by simpa using List.find?_some found
      rw [List.inj_on_of_nodup_map server.distinct (List.mem_of_find?_eq_some found) known sameId]

/-- A request that is let in bears the text of an active token, which it is let in with. -/
theorem authenticate_ok (kept : Kept server.users rows) {config : Dict} {authorization : Option Str}
    {now : Int} {token : ApiToken} {user : McpUser}
    (admitted : (authenticateMcpRequest server config authorization now rows).1 = .ok (token, user)) :
    ∃ plaintext, authorization = some (bearer ++ plaintext) ∧ tokenPrefix <+: plaintext ∧
      token ∈ rows ∧ token.tokenHash = server.sha256 plaintext ∧ token.revokedAt = none ∧
        ∃ account ∈ server.accounts, account.id = token.userId ∧
          account.principal config = .ok user := by
  simp only [authenticateMcpRequest] at admitted
  split_ifs at admitted with malformed other
  · exact absurd admitted (by simp [invalidToken, Mcp.raiseMcp, raise])
  · exact absurd admitted (by simp [invalidToken, Mcp.raiseMcp, raise])
  · obtain ⟨plaintext, split⟩ : bearer <+: authorization.getD [] := by simpa using malformed
    have text : (authorization.getD []).drop bearer.length = plaintext := by
      rw [← split, List.drop_left]
    rw [text] at other admitted
    obtain ⟨found, looked, exact⟩ := find_exact kept (server.sha256 plaintext)
    have answered : findActiveTokenByHash server.users (server.sha256 plaintext) rows =
        (.ok found, rows) := Prod.ext looked find_rows
    rw [answered] at admitted
    cases found with
    | none => exact absurd admitted (by simp [invalidToken, Mcp.raiseMcp, raise])
    | some row =>
        obtain ⟨member, hash, active⟩ := (exact row).mp rfl
        dsimp only at admitted
        split at admitted
        · exact absurd admitted (by simp [invalidToken, Mcp.raiseMcp, raise])
        · next account known =>
            split at admitted
            · cases admitted
            · next principal granted =>
                rw [Prod.map_fst, touch_answers kept] at admitted
                obtain ⟨rfl, rfl⟩ := Prod.mk.inj (Except.ok.inj admitted)
                refine ⟨plaintext, ?_, startsWith_iff.mp (by simpa using other), member, hash, active,
                  account, List.mem_of_find?_eq_some known, by simpa using List.find?_some known,
                  granted⟩
                cases authorization with
                | none => cases split
                | some header => rw [split, Option.getD_some]

theorem authenticate_iff (kept : Kept server.users rows) {config : Dict} {authorization : Option Str}
    {now tokenId : Int} {user : McpUser} :
    (∃ token, (authenticateMcpRequest server config authorization now rows).1 = .ok (token, user) ∧
        token.id = tokenId) ↔
      ∃ plaintext, authorization = some (bearer ++ plaintext) ∧ tokenPrefix <+: plaintext ∧
        ∃ row ∈ rows, row.id = tokenId ∧ row.tokenHash = server.sha256 plaintext ∧
          row.revokedAt = none ∧ ∃ account ∈ server.accounts, account.id = row.userId ∧
            account.principal config = .ok user := by
  constructor
  · rintro ⟨token, admitted, rfl⟩
    obtain ⟨plaintext, header, known, member, hash, active, account⟩ := authenticate_ok kept admitted
    exact ⟨plaintext, header, known, token, member, rfl, hash, active, account⟩
  · rintro ⟨plaintext, rfl, known, row, member, rfl, hash, active, account, listed, owner, principal⟩
    obtain ⟨found, looked, exact⟩ := find_exact kept (server.sha256 plaintext)
    obtain rfl := (exact row).mpr ⟨member, hash, active⟩
    have answered : findActiveTokenByHash server.users (server.sha256 plaintext) rows =
        (.ok (some row), rows) := Prod.ext looked find_rows
    have starts : startsWith (bearer ++ plaintext) bearer = true :=
      startsWith_iff.mpr (List.prefix_append _ _)
    refine ⟨row, ?_, rfl⟩
    simp only [authenticateMcpRequest, Option.getD_some, starts, List.drop_left,
      startsWith_iff.mpr known, Bool.not_true, Bool.false_eq_true, if_false, answered,
      ← owner, find_account listed, principal, Prod.map_fst, touch_answers kept, Except.map]

/-- Every row is of a token that was issued, and has the hash of the text that was issued for it. -/
theorem ledger_issued (ledger : Ledger server trace rows) {row : ApiToken} (member : row ∈ rows) :
    ∃ visited ∈ trace, ∃ text made, visited.2.Issues server visited.1 text made ∧
      SameToken made row ∧ row.tokenHash = server.sha256 text := by
  obtain ⟨visited, earlier, made, issued, same⟩ := ledger.origin row member
  obtain ⟨text, issues⟩ := (issues_iff visited.2 made).mp issued
  exact ⟨visited, earlier, text, made, issues, same, same.tokenHash.symm.trans (issues_row issues).1⟩

/-- After any actions: a request is let in with a token exactly when it bears a text whose hash
is that of the text that was issued for the token, and no revocation of the token has been
answered normally; it is let in as the owner for whom the token was issued. -/
theorem mcp_authentication (run : Execution (ServerStep server) [] trace rows) (config : Dict)
    (authorization : Option Str) (now tokenId : Int) (user : McpUser) :
    (∃ token, (authenticateMcpRequest server config authorization now rows).1 = .ok (token, user) ∧
        token.id = tokenId) ↔
      ∃ plaintext, authorization = some (bearer ++ plaintext) ∧ tokenPrefix <+: plaintext ∧
        (∃ visited ∈ trace, ∃ text made, visited.2.Issues server visited.1 text made ∧
          made.id = tokenId ∧ server.sha256 plaintext = server.sha256 text ∧
            ∃ account ∈ server.accounts, account.id = made.userId ∧
              account.principal config = .ok user) ∧
        ∀ visited ∈ trace, visited.2.revoked server visited.1 ≠ some tokenId := by
  have ledger := ledger_run run
  rw [authenticate_iff ledger.kept]
  refine exists_congr fun plaintext => and_congr_right fun _ => and_congr_right fun _ => ?_
  constructor
  · rintro ⟨row, member, rfl, hash, active, account, known, owner, principal⟩
    obtain ⟨visited, earlier, text, made, issues, same, digest⟩ := ledger_issued ledger member
    exact ⟨⟨visited, earlier, text, made, issues, same.id, hash.symm.trans digest, account, known,
      owner.trans same.userId.symm, principal⟩, (ledger.alive row member).mp active⟩
  · rintro ⟨⟨visited, earlier, text, made, issues, rfl, hash, account, known, owner, principal⟩,
      alive⟩
    obtain ⟨row, member, same⟩ :=
      ledger.listed visited earlier made ((issues_iff visited.2 made).mpr ⟨text, issues⟩)
    refine ⟨row, member, same.id.symm, ?_, ?_, account, known, owner.trans same.userId, principal⟩
    · exact same.tokenHash.symm.trans ((issues_row issues).1.trans hash.symm)
    · exact (ledger.alive row member).mpr (same.id ▸ alive)

/-- One user, and the digest of the text of her token. -/
def ada : Server where
  accounts := [{ id := 7, username := lit "ada", isAdmin := false, roles := [lit "reports"] }]
  sha256 text :=
    if text = lit "as3m_Zq7" then
      lit "e0aea1ba97e232b83287584d24bcfeb08bb8336082d57e14376b0164b2eff382"
    else text
  distinct := by decide

def adaCreates : ServerAction :=
  .create 7 (lit "laptop") false 1000 (lit "Zq7") 5

theorem ada_is_let_in :
    ∃ token, (authenticateMcpRequest ada [] (some (lit "Bearer as3m_Zq7")) 9
        (adaCreates.after ada [])).1 =
          .ok (token, ⟨lit "ada", false, [.str (lit "reports")]⟩) ∧ token.id = 1 := by
  refine (mcp_authentication (.snoc .nil (.act adaCreates)) [] (some (lit "Bearer as3m_Zq7")) 9 1
    ⟨lit "ada", false, [.str (lit "reports")]⟩).mpr ⟨lit "as3m_Zq7", by decide, by decide, ?_, ?_⟩
  · exact ⟨([], adaCreates), by simp, lit "as3m_Zq7", _, ⟨rfl, rfl⟩, rfl, rfl, _,
      List.mem_singleton_self _, rfl, rfl⟩
  · simp [adaCreates, ServerAction.revoked]

end Runs

end S3Manager.Tokens
