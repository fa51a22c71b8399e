import S3Manager.Library.Transition
import S3Manager.Tokens.Store

/-! Runs of the API-token store: what each call does to the rows, and what holds of every
store that calls of owners, admins and strangers lead to. -/

set_option autoImplicit false

namespace S3Manager.Tokens

open Python Library

section Calls

inductive TokenCall where
  | create (userId : Int) (name : Str) (isReadOnly : Bool) (maxReadBytes : Int) (digest : Str)
      (now : Int)
  | update (tokenId byUserId : Int) (byIsAdmin : Bool) (name : Option Str)
      (isReadOnly : Option Bool) (maxReadBytes : Option Int)
  | revoke (tokenId byUserId : Int) (byIsAdmin : Bool) (now : Int)
  | find (tokenHash : Str)
  | touch (tokenId throttleSeconds now : Int)

inductive TokenAnswer where
  | token (token : ApiToken)
  | found (token : Option ApiToken)
  | done

/-- A call with its answer, and the rows that it leaves. -/
def TokenCall.perform (users : List Int) (rows : Rows) : TokenCall → Result TokenAnswer × Rows
  | .create userId name isReadOnly maxReadBytes digest now =>
      (createToken users userId name isReadOnly maxReadBytes digest now rows).map
        (Except.map .token) id
  | .update tokenId byUserId byIsAdmin name isReadOnly maxReadBytes =>
      (updateToken users tokenId byUserId byIsAdmin name isReadOnly maxReadBytes rows).map
        (Except.map .token) id
  | .revoke tokenId byUserId byIsAdmin now =>
      (revokeToken users tokenId byUserId byIsAdmin now rows).map (Except.map fun _ => .done) id
  | .find tokenHash => (findActiveTokenByHash users tokenHash rows).map (Except.map .found) id
  | .touch tokenId throttleSeconds now =>
      (touchLastUsed users tokenId throttleSeconds now rows).map (Except.map fun _ => .done) id

/-- One call after another. -/
inductive TokenStep (users : List Int) : Rows → TokenCall → Rows → Prop where
  | call {rows : Rows} (call : TokenCall) : TokenStep users rows call (call.perform users rows).2

end Calls

section Changes

/-- The metadata of a token, and when it was revoked. -/
structure ApiToken.SameMetadata (before after : ApiToken) : Prop where
  name : after.name = before.name
  isReadOnly : after.isReadOnly = before.isReadOnly
  maxReadBytes : after.maxReadBytes = before.maxReadBytes
  revokedAt : after.revokedAt = before.revokedAt

/-- The call is one on this token, made by its owner or an admin. -/
def TokenCall.Authorized (token : ApiToken) : TokenCall → Prop
  | .update tokenId byUserId byIsAdmin _ _ _ | .revoke tokenId byUserId byIsAdmin _ =>
      tokenId = token.id ∧ (byIsAdmin = true ∨ token.userId = byUserId)
  | _ => False

/-- What a call may make of a row. -/
structure Revises (call : TokenCall) (before after : ApiToken) : Prop where
  id : after.id = before.id
  userId : after.userId = before.userId
  tokenHash : after.tokenHash = before.tokenHash
  active : after.revokedAt.isNone = true → before.revokedAt.isNone = true
  frozen : before.revokedAt.isSome = true → before.SameMetadata after
  authorized : before.SameMetadata after ∨ call.Authorized before

theorem Revises.refl {call : TokenCall} (token : ApiToken) : Revises call token token :=
  ⟨rfl, rfl, rfl, fun active => active, fun _ => ⟨rfl, rfl, rfl, rfl⟩, .inl ⟨rfl, rfl, rfl, rfl⟩⟩

/-- Everything that a call can do to the rows. -/
inductive TokenChange (users : List Int) (call : TokenCall) (rows : Rows) : Rows → Prop where
  | unchanged : TokenChange users call rows rows
  | inserted (token : ApiToken) : countActive rows token.userId < perUserTokenLimit →
      Schema users (rows ++ [token]) → TokenChange users call rows (rows ++ [token])
  | revised (change : ApiToken → ApiToken) : (∀ row ∈ rows, Revises call row (change row)) →
      Schema users (rows.map change) → TokenChange users call rows (rows.map change)

end Changes

section Steps

variable {users : List Int} {rows : Rows} {call : TokenCall} {α : Type}

/-- A scope ends with the rows that it began with, or commits those of its body. -/
theorem sessionScope_cases (body : Rows → Result α × Rows) :
    (∃ exc, sessionScope users body rows = (.error exc, rows)) ∨
      ∃ value session, body rows = (.ok value, session) ∧ Schema users session ∧
        sessionScope users body rows = (.ok value, session) := by
  unfold sessionScope flush
  obtain ⟨outcome, session⟩ := body rows
  cases outcome with
  | error exc => exact .inl ⟨exc, rfl⟩
  | ok value =>
      by_cases accepted : Schema users session
      · exact .inr ⟨value, session, rfl, accepted, by simp [accepted]⟩
      · exact .inl ⟨_, by simp [accepted]; rfl⟩

theorem getToken_some {tokenId : Int} {token : ApiToken} (found : getToken rows tokenId = some token) :
    token ∈ rows ∧ token.id = tokenId :=
  ⟨List.mem_of_find?_eq_some found, by simpa using List.find?_some found⟩

/-- Another version of one token, put in its place. -/
theorem change_put {token edited : ApiToken} (unique : (rows.map ApiToken.id).Nodup)
    (member : token ∈ rows) (revises : Revises call token edited)
    (accepted : Schema users (putToken rows edited)) :
    TokenChange users call rows (putToken rows edited) := by
  refine .revised _ (fun row listed => ?_) accepted
  split_ifs with same
  · obtain rfl := List.inj_on_of_nodup_map unique listed member (same.trans revises.id)
    exact revises
  · exact .refl row

/-- Only what the body of a scope commits changes the rows. -/
theorem sessionScope_change {body : Rows → Result α × Rows}
    (commits : ∀ value session, body rows = (.ok value, session) → Schema users session →
      TokenChange users call rows session) :
    TokenChange users call rows (sessionScope users body rows).2 := by
  obtain ⟨exc, ended⟩ | ⟨value, session, ran, accepted, ended⟩ :=
    @sessionScope_cases users rows _ body
  · rw [ended]
    exact .unchanged
  · rw [ended]
    exact commits value session ran accepted

theorem create_change {userId maxReadBytes now : Int} {name digest : Str} {isReadOnly : Bool} :
    TokenChange users call rows
      (createToken users userId name isReadOnly maxReadBytes digest now rows).2 := by
  refine sessionScope_change fun value session ran accepted => ?_
  split_ifs at ran with full
  · cases ran
  · dsimp only at ran
    split at ran
    · cases ran
    · obtain ⟨-, rfl⟩ := Prod.mk.inj ran
      exact .inserted _ (Nat.lt_of_not_le full) accepted

theorem foreign_false {token : ApiToken} {byUserId : Int} {byIsAdmin : Bool}
    (allowed : ¬ token.foreign byUserId byIsAdmin = true) :
    byIsAdmin = true ∨ token.userId = byUserId := by
  cases byIsAdmin with
  | true => exact .inl rfl
  | false => exact .inr (by simpa [ApiToken.foreign] using allowed)

theorem update_change {tokenId byUserId : Int} {byIsAdmin : Bool} {name : Option Str}
    {isReadOnly : Option Bool} {maxReadBytes : Option Int}
    (unique : (rows.map ApiToken.id).Nodup) :
    TokenChange users (.update tokenId byUserId byIsAdmin name isReadOnly maxReadBytes) rows
      (updateToken users tokenId byUserId byIsAdmin name isReadOnly maxReadBytes rows).2 := by
  unfold updateToken
  split_ifs with empty far
  · exact .unchanged
  · exact .unchanged
  · refine sessionScope_change fun value session ran accepted => ?_
    split at ran
    · cases ran
    · next token found =>
        obtain ⟨member, rfl⟩ := getToken_some found
        split_ifs at ran with foreign revoked
        · cases ran
        · cases ran
        · dsimp only at ran
          split at ran
          · cases ran
          · obtain ⟨-, rfl⟩ := Prod.mk.inj ran
            refine change_put unique member ⟨rfl, rfl, rfl, fun active => active,
              fun dead => absurd dead revoked, .inr ⟨rfl, foreign_false foreign⟩⟩ accepted

theorem revoke_change {tokenId byUserId now : Int} {byIsAdmin : Bool}
    (unique : (rows.map ApiToken.id).Nodup) :
    TokenChange users (.revoke tokenId byUserId byIsAdmin now) rows
      (revokeToken users tokenId byUserId byIsAdmin now rows).2 := by
  refine sessionScope_change fun value session ran accepted => ?_
  split at ran
  · cases ran
  · next token found =>
      obtain ⟨member, rfl⟩ := getToken_some found
      split_ifs at ran with foreign active
      · cases ran
      · obtain ⟨-, rfl⟩ := Prod.mk.inj ran
        refine change_put unique member ⟨rfl, rfl, rfl, fun _ => active, fun dead => ?_,
          .inr ⟨rfl, foreign_false foreign⟩⟩ accepted
        rw [Option.isNone_iff_eq_none.mp active] at dead
        cases dead
      · obtain ⟨-, rfl⟩ := Prod.mk.inj ran
        exact .unchanged

theorem find_change {tokenHash : Str} :
    TokenChange users call rows (findActiveTokenByHash users tokenHash rows).2 := by
  refine sessionScope_change fun value session ran accepted => ?_
  obtain ⟨-, rfl⟩ := Prod.mk.inj ran
  exact .unchanged

theorem touch_change {tokenId throttleSeconds now : Int} :
    TokenChange users call rows (touchLastUsed users tokenId throttleSeconds now rows).2 := by
  refine sessionScope_change fun value session ran accepted => ?_
  obtain ⟨-, rfl⟩ := Prod.mk.inj ran
  refine .revised _ (fun row member => ?_) accepted
  split_ifs with due
  · exact ⟨rfl, rfl, rfl, fun active => active, fun _ => ⟨rfl, rfl, rfl, rfl⟩,
      .inl ⟨rfl, rfl, rfl, rfl⟩⟩
  · exact .refl row

theorem perform_change (unique : (rows.map ApiToken.id).Nodup) :
    TokenChange users call rows (call.perform users rows).2 := by
  cases call with
  | create => exact create_change
  | update => exact update_change unique
  | revoke => exact revoke_change unique
  | find => exact find_change
  | touch => exact touch_change

/-- What raises leaves the rows as they were. -/
def Undone (rows : Rows) (outcome : Result α × Rows) : Prop :=
  ∀ exc, outcome.1 = .error exc → outcome.2 = rows

theorem sessionScope_undone (body : Rows → Result α × Rows) :
    Undone rows (sessionScope users body rows) := by
  intro exc raised
  obtain ⟨_, ended⟩ | ⟨value, session, -, -, ended⟩ := @sessionScope_cases users rows _ body
  · rw [ended]
  · rw [ended] at raised
    cases raised

theorem undone_map {β : Type} {make : α → β} {outcome : Result α × Rows}
    (undone : Undone rows outcome) : Undone rows (outcome.map (Except.map make) id) := by
  obtain ⟨answer, after⟩ := outcome
  intro exc raised
  cases answer with
  | error exc => exact undone exc rfl
  | ok value => cases raised

theorem perform_undone : Undone rows (call.perform users rows) := by
  cases call with
  | create =>
      rw [TokenCall.perform, createToken]
      exact undone_map (sessionScope_undone _)
  | update =>
      rw [TokenCall.perform]
      refine undone_map ?_
      unfold updateToken
      split_ifs with empty far
      · exact fun _ _ => rfl
      · exact fun _ _ => rfl
      · exact sessionScope_undone _
  | revoke =>
      rw [TokenCall.perform, revokeToken]
      exact undone_map (sessionScope_undone _)
  | find =>
      rw [TokenCall.perform, findActiveTokenByHash]
      exact undone_map (sessionScope_undone _)
  | touch =>
      rw [TokenCall.perform, touchLastUsed]
      exact undone_map (sessionScope_undone _)

end Steps

section Runs

variable {users : List Int} {rows next : Rows} {call : TokenCall}

/-- What every store has that is reached by calls. -/
structure Kept (users : List Int) (rows : Rows) : Prop where
  schema : Schema users rows
  limit : ∀ userId, countActive rows userId ≤ perUserTokenLimit

theorem kept_nil : Kept users [] :=
  ⟨⟨.nil, by simp, .nil, .nil, by simp⟩, fun _ => Nat.zero_le _⟩

theorem countActive_map {change : ApiToken → ApiToken} (userId : Int)
    (revises : ∀ row ∈ rows, Revises call row (change row)) :
    countActive (rows.map change) userId ≤ countActive rows userId := by
  unfold countActive
  rw [List.countP_map]
  refine List.countP_mono_left fun row member active => ?_
  have same := (revises row member).userId
  simp only [Function.comp_apply, Bool.and_eq_true, same] at active ⊢
  exact ⟨active.1, (revises row member).active active.2⟩

theorem countActive_insert (userId : Int) (token : ApiToken) :
    countActive (rows ++ [token]) userId ≤
      countActive rows userId + if token.userId = userId then 1 else 0 := by
  unfold countActive
  rw [List.countP_append]
  refine Nat.add_le_add_left ?_ _
  split_ifs with own
  · exact List.countP_le_length
  · simp [own]

theorem kept_change (kept : Kept users rows) (change : TokenChange users call rows next) :
    Kept users next := by
  cases change with
  | unchanged => exact kept
  | inserted token free accepted =>
      refine ⟨accepted, fun userId => (countActive_insert userId token).trans ?_⟩
      split_ifs with own
      · exact own ▸ free
      · exact kept.limit userId
  | revised change revises accepted =>
      exact ⟨accepted, fun userId => (countActive_map userId revises).trans (kept.limit userId)⟩

/-- The token that a row becomes. -/
theorem change_member {token : ApiToken} (change : TokenChange users call rows next)
    (member : token ∈ rows) : ∃ later ∈ next, Revises call token later := by
  cases change with
  | unchanged => exact ⟨token, member, .refl token⟩
  | inserted new _ _ => exact ⟨token, List.mem_append_left _ member, .refl token⟩
  | revised change revises _ =>
      exact ⟨change token, List.mem_map_of_mem member, revises token member⟩

theorem step_kept (rows : Rows) (call : TokenCall) (next : Rows) (kept : Kept users rows)
    (step : TokenStep users rows call next) : Kept users next := by
  cases step
  exact kept_change kept (perform_change kept.schema.1)

/-- A revoked token is still there, as it was. -/
def Frozen (token : ApiToken) (rows : Rows) : Prop :=
  ∃ later ∈ rows, later.id = token.id ∧ token.SameMetadata later

theorem step_frozen {token : ApiToken} (dead : token.revokedAt.isSome = true) (rows : Rows)
    (call : TokenCall) (next : Rows) (holds : Kept users rows ∧ Frozen token rows)
    (step : TokenStep users rows call next) : Kept users next ∧ Frozen token next := by
  refine ⟨step_kept rows call next holds.1 step, ?_⟩
  obtain ⟨kept, later, member, same, metadata⟩ := holds
  cases step
  obtain ⟨last, listed, revises⟩ := change_member (@perform_change users _ call kept.schema.1) member
  have still := revises.frozen (by rw [metadata.revokedAt]; exact dead)
  exact ⟨last, listed, revises.id.trans same, still.name.trans metadata.name,
    still.isReadOnly.trans metadata.isReadOnly, still.maxReadBytes.trans metadata.maxReadBytes,
    still.revokedAt.trans metadata.revokedAt⟩

/-- No two rows have one hash, so the lookup finds the only one. -/
theorem scalarOneOrNone_unique {same : Rows} {tokenHash : Str}
    (unique : (same.map ApiToken.tokenHash).Nodup)
    (matching : ∀ row ∈ same, row.tokenHash = tokenHash) :
    ∃ found, scalarOneOrNone same = .ok found ∧ ∀ token, found = some token ↔ token ∈ same := by
  cases same with
  | nil => exact ⟨none, rfl, by simp⟩
  | cons first rest =>
      cases rest with
      | nil => exact ⟨some first, rfl, fun token => by simp [eq_comm]⟩
      | cons second rest =>
          have twice : first.tokenHash = second.tokenHash :=
            (matching first (by simp)).trans (matching second (by simp)).symm
          simp [twice] at unique

theorem find_exact (kept : Kept users rows) (tokenHash : Str) :
    ∃ found, (findActiveTokenByHash users tokenHash rows).1 = .ok found ∧
      ∀ token, found = some token ↔
        token ∈ rows ∧ token.tokenHash = tokenHash ∧ token.revokedAt = none := by
  let same := rows.filter fun row => row.tokenHash == tokenHash && row.revokedAt.isNone
  have members (token : ApiToken) : token ∈ same ↔
      token ∈ rows ∧ token.tokenHash = tokenHash ∧ token.revokedAt = none := by
    simp [same, List.mem_filter]
  have unique : (same.map ApiToken.tokenHash).Nodup :=
    kept.schema.2.2.1.sublist (List.filter_sublist.map _)
  obtain ⟨found, outcome, exact⟩ :=
    scalarOneOrNone_unique unique fun row member => ((members row).mp member).2.1
  refine ⟨found, ?_, fun token => (exact token).trans (members token)⟩
  have committed : flush users rows = .ok () := if_pos kept.schema
  rw [findActiveTokenByHash, sessionScope]
  simp only [same] at outcome
  rw [outcome]
  simp only [committed]

/-- What a partial index without duplicates holds of two rows tells them apart. -/
theorem eq_of_nodup_filterMap {Row Key : Type} {index : Row → Option Key} {rows : List Row}
    {left right : Row} {key : Key} (distinct : (rows.filterMap index).Nodup) (first : left ∈ rows)
    (second : right ∈ rows) (leftKey : index left = some key) (rightKey : index right = some key) :
    left = right := by
  have apart := List.pairwise_filterMap.mp distinct
  have same : ∀ a ∈ rows, ∀ b ∈ rows, index a = some key → index b = some key → a = b :=
    List.Pairwise.forall_of_forall_of_flip (fun _ _ _ _ => rfl)
      (apart.imp fun unlike found again => absurd rfl (unlike key found key again))
      (apart.imp fun unlike found again => absurd rfl (unlike key again key found))
  exact same left first right second leftKey rightKey

theorem activeName_of_active {token : ApiToken} (active : token.revokedAt = none) :
    activeName token = some (token.userId, token.name) := by
  simp [activeName, active]

/-- Two active tokens of one user and one name are one token. -/
theorem names_distinct (kept : Kept users rows) {left right : ApiToken} (first : left ∈ rows)
    (second : right ∈ rows) (active : left.revokedAt = none ∧ right.revokedAt = none)
    (user : left.userId = right.userId) (name : left.name = right.name) : left = right := by
  have key := activeName_of_active active.2
  rw [← user, ← name] at key
  exact eq_of_nodup_filterMap kept.schema.2.2.2.1 first second (activeName_of_active active.1) key

/-- The invariants of the store. -/
structure StoreSound (users : List Int) (rows : Rows) : Prop where
  ids : (rows.map ApiToken.id).Nodup
  limit : ∀ userId, countActive rows userId ≤ 10
  names : ∀ left ∈ rows, ∀ right ∈ rows, left.revokedAt = none → right.revokedAt = none →
    left.userId = right.userId → left.name = right.name → left = right
  lookup : ∀ tokenHash, ∃ found, (findActiveTokenByHash users tokenHash rows).1 = .ok found ∧
    ∀ token, found = some token ↔
      token ∈ rows ∧ token.tokenHash = tokenHash ∧ token.revokedAt = none

/-- What one more call does to the store: it changes the metadata of a token or revokes it
only for its owner or an admin, and nothing at all when it raises. -/
structure CallSound (users : List Int) (rows : Rows) (call : TokenCall) : Prop where
  authorized : ∀ token ∈ rows, ∃ later ∈ (call.perform users rows).2,
    later.id = token.id ∧ (token.SameMetadata later ∨ call.Authorized token)
  undone : Undone rows (call.perform users rows)

/-- In every store that calls lead to, the invariants hold, each token that was revoked
at any earlier moment is as it was then, and every further call is sound. -/
theorem token_store_sound {middle : Rows} {early late : List (Rows × TokenCall)}
    (before : Execution (TokenStep users) [] early middle)
    (after : Execution (TokenStep users) middle late rows) :
    StoreSound users rows ∧
      (∀ token ∈ middle, token.revokedAt.isSome = true → Frozen token rows) ∧
      ∀ call, CallSound users rows call := by
  have reached : Kept users middle := (before.always (@step_kept users) kept_nil).1
  have kept : Kept users rows := (after.always (@step_kept users) reached).1
  refine ⟨⟨kept.schema.1, kept.limit, fun left first right second leftActive rightActive =>
      names_distinct kept first second ⟨leftActive, rightActive⟩, find_exact kept⟩,
    fun token member dead => ?_, fun call => ⟨fun token member => ?_, perform_undone⟩⟩
  · have start : Frozen token middle := ⟨token, member, rfl, rfl, rfl, rfl, rfl⟩
    exact (after.always (step_frozen dead) ⟨reached, start⟩).1.2
  · obtain ⟨later, listed, revises⟩ :=
      change_member (@perform_change users _ call kept.schema.1) member
    exact ⟨later, listed, revises.id, revises.authorized⟩

/-- A token of the only user, which an admin then revokes. -/
def revokedToken : ApiToken := ⟨1, 7, lit "digest", lit "laptop", 0, none, some 5, true, 1048576⟩

theorem token_store_revoked :
    StoreSound [7] [revokedToken] ∧ ∃ later ∈ [revokedToken], later.id = 1 ∧
      revokedToken.SameMetadata later := by
  have created : TokenStep [7] [] (.create 7 (lit "laptop") true 1048576 (lit "digest") 0)
      [{ revokedToken with revokedAt := none }] := .call _
  have revoked : TokenStep [7] [{ revokedToken with revokedAt := none }] (.revoke 1 2 true 5)
      [revokedToken] := .call _
  obtain ⟨sound, frozen, -⟩ := token_store_sound (.snoc (.snoc .nil created) revoked) .nil
  exact ⟨sound, frozen revokedToken (by simp) rfl⟩

end Runs

end S3Manager.Tokens
