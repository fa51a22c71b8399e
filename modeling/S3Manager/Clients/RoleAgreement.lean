import S3Manager.Access.OmittedRole
import S3Manager.Clients.CacheRuns

/-! Runs of the server over config saves, config files edited by hand and storage
operations: which entry an operation was checked against, and which one its
client connects as. -/

set_option autoImplicit false

namespace S3Manager.Clients

open Python Access Library

/-- What an operation touches: one key, the keys below a path, or the bucket list. -/
inductive Target where
  | object (bucket key : Str)
  | listing (bucket path : Str)
  | buckets

/-- One storage operation. `first` and `second` are what the AWS side answers to
a client build, `expired` says that the first attempt ends in expired credentials. -/
structure Operation where
  user : UserDict
  role : Option Str
  target : Target
  first : Result Unit
  second : Result Unit
  expired : Bool

inductive ServerAction where
  /-- `save_config`, then `clear_s3_clients_cache` -/
  | saveConfig (config : Dict)
  /-- A file edited by hand, picked up by the next `load_config`. -/
  | editFile (config : Dict)
  | operate (operation : Operation)

structure Server (env : BuildEnv) where
  config : Dict
  cache : ClientCache env

section Server

variable {env : BuildEnv}

/-- The checks of an operation: the validated role and the path that was checked,
or nothing when the operation is answered without S3. -/
def Operation.gate (env : BuildEnv) (config : Dict) (operation : Operation) :
    Result (Option (Option Str × Str)) :=
  match operation.target with
  | .object bucket key => do
      let validated ← validateStorageAccess config operation.role bucket operation.user key
      .ok (some (validated, key))
  | .listing bucket path => do
      let listing ← prepareListPath env.unicode config operation.role bucket operation.user path
      match listing.virtualDirectories with
      | some _ => .ok none
      | none => .ok (some (listing.validatedRole, listing.effectivePath))
  | .buckets => do
      let validated ← validateRoleAccess operation.role operation.user
      match ← shownRole config validated with
      | none => .ok (some (validated, []))
      | some entry =>
          match ← roleAllowedBuckets entry config with
          | some _ => .ok none
          | none => .ok (some (validated, []))

/-- The clients `execute_with_s3_retry` hands to its callback, one per attempt. -/
def Operation.clients (config : Dict) (operation : Operation) (validated : Option Str)
    (cache : ClientCache env) : List (S3Client env) × ClientCache env :=
  let attempt := getS3Client config validated operation.first cache
  if operation.expired then
    let again := getS3Client config validated operation.second
      (invalidateS3Client validated attempt.2)
    (attempt.1.toOption.toList ++ again.1.toOption.toList, again.2)
  else (attempt.1.toOption.toList, attempt.2)

def Server.after (server : Server env) : ServerAction → Server env
  | .saveConfig config => ⟨config, clearS3ClientsCache server.cache⟩
  | .editFile config => { server with config := config }
  | .operate operation =>
      match operation.gate env server.config with
      | .ok (some (validated, _)) =>
          { server with cache := (operation.clients server.config validated server.cache).2 }
      | _ => server

def ServerStep (server : Server env) (action : ServerAction) (next : Server env) : Prop :=
  next = server.after action

/-- The entry that a request in the name of `name` should use exists and has the
connection of `source`. -/
def SameConnection (env : BuildEnv) (config : Dict) (name : Str) (source : Dict) : Prop :=
  ∃ entry, findRole config (some name) = .ok (some entry) ∧
    createS3ClientFromRole env source = createS3ClientFromRole env entry

/-- The checks that an entry has to pass for the path that goes to S3. -/
def Checked (config entry : Dict) (target : Target) (path : Str) : Prop :=
  match target with
  | .object bucket _ | .listing bucket _ => StorageCheck config entry bucket path
  | .buckets => True

/-- Every S3 request of the action is made with the connection of the current
entry of the role it is made for, and was checked against that entry. -/
def RoleAgrees (server : Server env) : ServerAction → Prop
  | .operate operation =>
      ∀ name path, operation.gate env server.config = .ok (some (some name, path)) →
        ∀ client ∈ (operation.clients server.config (some name) server.cache).1,
          ∃ entry, findRole server.config (some name) = .ok (some entry) ∧
            Checked server.config entry operation.target path ∧
            createS3ClientFromRole env entry = .ok client.params
  | _ => True

/-- The cached client an operation hits was filled for an entry that still is the
entry of the role, up to what a connection depends on. -/
def SlotCurrent (server : Server env) : ServerAction → Prop
  | .operate operation =>
      ∀ name path, operation.gate env server.config = .ok (some (some name, path)) →
        ∀ slot, Assoc.get? server.cache (cacheKey (some name)) = some slot →
          ∀ source, resolveClientRole slot.config slot.argument = .ok source →
            SameConnection env server.config name source
  | _ => True

/-- The attempts that build a client of their own do so for an entry with the
requested name. Only an empty name can be resolved to anything else. -/
def BuildNamed (server : Server env) : ServerAction → Prop
  | .operate operation =>
      ∀ path, operation.gate env server.config = .ok (some (some [], path)) →
        (Assoc.get? server.cache (cacheKey (some [])) = none ∧ operation.first = .ok () ∨
          operation.expired = true ∧ operation.second = .ok ()) →
        ∀ source params, resolveClientRole server.config (some []) = .ok source →
          createS3ClientFromRole env source = .ok params →
          SameConnection env server.config [] source
  | _ => True

/-- Each slot remembers the call that filled it. -/
def SlotsRemember (server : Server env) : Prop :=
  EverySlot (fun key slot => cacheKey slot.argument = key ∧
    resolveClientRole slot.config slot.argument = .ok slot.client.builtFrom) server.cache

end Server

section Attempts

variable {env : BuildEnv} {config : Dict} {operation : Operation} {validated : Option Str}
  {cache : ClientCache env}

theorem mem_toOption_toList {result : Result (S3Client env)} {client : S3Client env} :
    client ∈ result.toOption.toList ↔ result = .ok client := by
  cases result with
  | error exc => simp [Except.toOption]
  | ok other =>
      simp only [Except.toOption, Option.toList_some, List.mem_singleton, Except.ok.injEq]
      exact ⟨Eq.symm, Eq.symm⟩

/-- A client in use was cached before the operation, or built by one of its attempts. -/
theorem clients_source {client : S3Client env}
    (used : client ∈ (operation.clients config validated cache).1) :
    (∃ slot, Assoc.get? cache (cacheKey validated) = some slot ∧ slot.client = client) ∨
      resolveClientRole config validated = .ok client.builtFrom ∧
        (Assoc.get? cache (cacheKey validated) = none ∧ operation.first = .ok () ∨
          operation.expired = true ∧ operation.second = .ok ()) := by
  have firstAttempt
      (got : (getS3Client config validated operation.first cache).1 = .ok client) :
      (∃ slot, Assoc.get? cache (cacheKey validated) = some slot ∧ slot.client = client) ∨
        resolveClientRole config validated = .ok client.builtFrom ∧
          Assoc.get? cache (cacheKey validated) = none ∧ operation.first = .ok () := by
    obtain ⟨slot, hit, outcome⟩ | ⟨_, exc, outcome⟩ | ⟨miss, built, resolved, answered, outcome⟩ :=
      getS3Client_cases config validated operation.first cache
    · rw [outcome] at got
      exact .inl ⟨slot, hit, Except.ok.inj got⟩
    · simp [outcome] at got
    · rw [outcome] at got
      obtain rfl := Except.ok.inj got
      exact .inr ⟨resolved, miss, answered⟩
  cases expired : operation.expired with
  | false =>
      simp only [Operation.clients, expired, Bool.false_eq_true, if_false,
        mem_toOption_toList] at used
      rcases firstAttempt used with hit | ⟨resolved, built⟩
      · exact .inl hit
      · exact .inr ⟨resolved, .inl built⟩
  | true =>
      simp only [Operation.clients, expired, if_true, List.mem_append,
        mem_toOption_toList] at used
      rcases used with used | used
      · rcases firstAttempt used with hit | ⟨resolved, built⟩
        · exact .inl hit
        · exact .inr ⟨resolved, .inl built⟩
      · obtain ⟨slot, hit, _⟩ | ⟨_, exc, outcome⟩ | ⟨_, built, resolved, answered, outcome⟩ :=
          getS3Client_cases config validated operation.second
            (invalidateS3Client validated (getS3Client config validated operation.first cache).2)
        · simp [invalidateS3Client] at hit
        · simp [outcome] at used
        · rw [outcome] at used
          obtain rfl := Except.ok.inj used
          exact .inr ⟨resolved, .inr ⟨rfl, answered⟩⟩

theorem clients_of_hit {slot : CachedClient env}
    (hit : Assoc.get? cache (cacheKey validated) = some slot) :
    slot.client ∈ (operation.clients config validated cache).1 := by
  unfold Operation.clients
  split <;> simp [getS3Client_hit _ hit, Except.toOption]

theorem clients_of_build {role : Dict} {params : ClientParams}
    (resolved : resolveClientRole config validated = .ok role)
    (created : createS3ClientFromRole env role = .ok params)
    (attempted : Assoc.get? cache (cacheKey validated) = none ∧ operation.first = .ok () ∨
      operation.expired = true ∧ operation.second = .ok ()) :
    ⟨role, params, created⟩ ∈ (operation.clients config validated cache).1 := by
  rcases attempted with ⟨miss, answered⟩ | ⟨expired, answered⟩
  · unfold Operation.clients
    split <;> simp [answered, getS3Client_miss miss resolved created, Except.toOption]
  · have miss : Assoc.get? (invalidateS3Client validated
        (getS3Client config validated operation.first cache).2) (cacheKey validated) = none := by
      simp [invalidateS3Client]
    simp [Operation.clients, expired, answered, getS3Client_miss miss resolved created,
      Except.toOption]

end Attempts

section Runs

variable {env : BuildEnv}

theorem gate_checked {config entry : Dict} {operation : Operation} {validated : Option Str}
    {path : Str} (passed : operation.gate env config = .ok (some (validated, path)))
    (found : findRole config validated = .ok (some entry)) :
    Checked config entry operation.target path := by
  unfold Operation.gate at passed
  cases target : operation.target with
  | object bucket key =>
      simp only [target] at passed
      obtain ⟨_, accepted, same⟩ := bind_eq_ok_iff.mp passed
      obtain ⟨rfl, rfl⟩ := Prod.mk.inj (Option.some.inj (Except.ok.inj same))
      obtain ⟨-, found', searched, grants⟩ := validateStorageAccess_ok_iff.mp accepted
      rw [found] at searched
      exact grants entry (Except.ok.inj searched).symm
  | listing bucket listed =>
      simp only [target] at passed
      obtain ⟨listing, prepared, rest⟩ := bind_eq_ok_iff.mp passed
      cases real : listing.virtualDirectories with
      | some _ => simp [real] at rest
      | none =>
          simp only [real] at rest
          obtain ⟨rfl, rfl⟩ := Prod.mk.inj (Option.some.inj (Except.ok.inj rest))
          obtain ⟨-, found', searched, grants⟩ := prepareListPath_grants prepared real
          rw [found] at searched
          exact grants entry (Except.ok.inj searched).symm
  | buckets => trivial

theorem roleAgrees_iff {server : Server env} (remember : SlotsRemember server)
    (action : ServerAction) :
    RoleAgrees server action ↔ SlotCurrent server action ∧ BuildNamed server action := by
  cases action with
  | saveConfig config => simp [RoleAgrees, SlotCurrent, BuildNamed]
  | editFile config => simp [RoleAgrees, SlotCurrent, BuildNamed]
  | operate operation =>
      constructor
      · intro agrees
        constructor
        · intro name path passed slot hit source resolved
          obtain ⟨-, filled⟩ := remember _ slot hit
          obtain rfl : slot.client.builtFrom = source := Except.ok.inj (filled.symm.trans resolved)
          obtain ⟨entry, found, -, created⟩ := agrees name path passed _ (clients_of_hit hit)
          exact ⟨entry, found, slot.client.built.trans created.symm⟩
        · intro path passed attempted source params resolved created
          obtain ⟨entry, found, -, same⟩ :=
            agrees [] path passed _ (clients_of_build resolved created attempted)
          exact ⟨entry, found, created.trans same.symm⟩
      · rintro ⟨current, named⟩ name path passed client used
        suffices connected : SameConnection env server.config name client.builtFrom by
          obtain ⟨entry, found, same⟩ := connected
          exact ⟨entry, found, gate_checked passed found, same.symm.trans client.built⟩
        rcases clients_source used with ⟨slot, hit, rfl⟩ | ⟨resolved, attempted⟩
        · exact current name path passed slot hit _ (remember _ slot hit).2
        · cases name with
          | nil => exact named path passed attempted _ _ resolved client.built
          | cons c rest =>
              exact ⟨_, (resolveClientRole_named rfl).mp resolved, rfl⟩

theorem slotsRemember_step (server : Server env) (action : ServerAction) (next : Server env)
    (remember : SlotsRemember server) (taken : ServerStep server action next) :
    SlotsRemember next := by
  subst taken
  cases action with
  | saveConfig config => exact everySlot_nil
  | editFile config => exact remember
  | operate operation =>
      simp only [Server.after]
      split
      · next validated _ _ =>
          have first := everySlot_get remember server.config validated operation.first
            fun client resolved => ⟨rfl, resolved⟩
          simp only [SlotsRemember, Operation.clients]
          split
          · exact everySlot_get (everySlot_invalidate first validated) server.config validated
              operation.second fun client resolved => ⟨rfl, resolved⟩
          · exact first
      · exact remember

/-- All slots were filled under the config that is current. -/
def SlotsOfConfig (server : Server env) : Prop :=
  EverySlot (fun _ slot => slot.config = server.config) server.cache

/-- The actions of a server whose file is never edited by hand, and whose
operations name a role other than `default`. -/
def Managed (server : Server env) : ServerAction → Prop
  | .saveConfig _ => True
  | .editFile _ => False
  | .operate operation =>
      ∀ validated path, operation.gate env server.config = .ok (some (validated, path)) →
        namePresent validated = true ∧ validated ≠ some (lit "default")

theorem slotsOfConfig_step (server : Server env) (action : ServerAction) (next : Server env)
    (same : SlotsOfConfig server) (managed : Managed server action)
    (taken : ServerStep server action next) : SlotsOfConfig next := by
  subst taken
  cases action with
  | saveConfig config => exact everySlot_nil
  | editFile config => exact managed.elim
  | operate operation =>
      simp only [Server.after]
      split
      · next validated _ _ =>
          have first := everySlot_get same server.config validated operation.first
            fun client resolved => rfl
          simp only [SlotsOfConfig, Operation.clients]
          split
          · exact everySlot_get (everySlot_invalidate first validated) server.config validated
              operation.second fun client resolved => rfl
          · exact first
      · exact same

/-- Without edits by hand, and for roles that are named and not called `default`,
no request ever disagrees with its entry. -/
theorem rolesAgree_of_managed {config : Dict} {trace : List (Server env × ServerAction)}
    {final : Server env} (run : Execution ServerStep ⟨config, []⟩ trace final)
    (managed : ∀ visited ∈ trace, Managed visited.1 visited.2) :
    ∀ visited ∈ trace, RoleAgrees visited.1 visited.2 := by
  have initially : SlotsOfConfig (⟨config, []⟩ : Server env) := everySlot_nil
  obtain ⟨-, ofConfig⟩ := run.invariant slotsOfConfig_step initially managed
  obtain ⟨-, remember⟩ := run.always slotsRemember_step (everySlot_nil : SlotsRemember ⟨config, []⟩)
  rintro ⟨server, action⟩ member
  refine (roleAgrees_iff (remember _ member) action).mpr ?_
  have allowed := managed _ member
  cases action with
  | saveConfig config => exact ⟨trivial, trivial⟩
  | editFile config => exact ⟨trivial, trivial⟩
  | operate operation =>
      constructor
      · intro name path passed slot hit source resolved
        obtain ⟨present, other⟩ := allowed _ _ passed
        have key : cacheKey slot.argument = cacheKey (some name) := (remember _ member _ slot hit).1
        have filledFor : slot.argument = some name := by
          cases filled : namePresent slot.argument with
          | true => rw [cacheKey_present filled, key, ← cacheKey_present present]
          | false =>
              rw [cacheKey_absent filled] at key
              exact absurd ((cacheKey_present present).trans (congrArg some key.symm)) other
        have current : slot.config = server.config := ofConfig _ member _ slot hit
        rw [filledFor, current] at resolved
        exact ⟨source, (resolveClientRole_named present).mp resolved, rfl⟩
      · intro path passed
        exact absurd (allowed _ _ passed).1 (by decide)

/-- In every run, all requests agree with the current entry of their role exactly
when each cached client that is hit still has that entry's connection, and no
attempt builds a client for an empty role name from another entry. Since a save clears the
cache, this is so in every run without edits by hand, for roles that are named and not called
`default`. -/
theorem rolesAgree_iff {config : Dict} {trace : List (Server env × ServerAction)}
    {final : Server env} (run : Execution ServerStep ⟨config, []⟩ trace final) :
    ((∀ visited ∈ trace, RoleAgrees visited.1 visited.2) ↔
        ∀ visited ∈ trace, SlotCurrent visited.1 visited.2 ∧ BuildNamed visited.1 visited.2) ∧
      ((∀ visited ∈ trace, Managed visited.1 visited.2) →
        ∀ visited ∈ trace, RoleAgrees visited.1 visited.2) := by
  have initially : SlotsRemember (⟨config, []⟩ : Server env) := everySlot_nil
  obtain ⟨-, remember⟩ := run.always slotsRemember_step initially
  refine ⟨?_, rolesAgree_of_managed run⟩
  exact forall₂_congr fun visited member => roleAgrees_iff (remember visited member) visited.2

end Runs

section Removal

/-- An upload by an admin under the role `team`, into the bucket `bucket`. -/
def teamUpload (bucket : Str) : Operation where
  user := admin
  role := some (lit "team")
  target := .object bucket (lit "a.txt")
  first := .ok ()
  second := .ok ()
  expired := false

def teamServer : Server plainEnv := ⟨teamConfig, []⟩

def warmServer : Server plainEnv :=
  teamServer.after (.operate (teamUpload (lit "team-data")))

/-- The config after the entry was deleted from the file by hand. -/
def removedServer : Server plainEnv :=
  warmServer.after (.editFile [])

theorem execution_removed :
    Execution ServerStep teamServer
      ([(teamServer, .operate (teamUpload (lit "team-data")))] ++ [(warmServer, .editFile [])])
      removedServer :=
  .snoc (.snoc .nil rfl) rfl

/-- Up to the removal nothing goes wrong, as an instance of the general statement. -/
theorem rolesAgree_before_removal :
    (∀ visited ∈ [(teamServer, .operate (teamUpload (lit "team-data")))] ++
        [(warmServer, .editFile [])], RoleAgrees visited.1 visited.2) ↔
      ∀ visited ∈ [(teamServer, .operate (teamUpload (lit "team-data")))] ++
        [(warmServer, .editFile [])], SlotCurrent visited.1 visited.2 ∧
          BuildNamed visited.1 visited.2 :=
  (rolesAgree_iff execution_removed).1

/-- After the entry is removed by hand, its cached client still serves the role,
unchecked: even the bucket that the entry never allowed. -/
theorem removed_role_served :
    ¬ ∀ (config : Dict) (trace : List (Server plainEnv × ServerAction)) (final : Server plainEnv),
      Execution ServerStep ⟨config, []⟩ trace final →
        ∀ visited ∈ trace, RoleAgrees visited.1 visited.2 := by
  intro agrees
  have run := execution_removed.snoc
    (rfl : ServerStep removedServer (.operate (teamUpload (lit "other"))) _)
  have served := agrees teamConfig _ _ run (removedServer, .operate (teamUpload (lit "other")))
    (by simp)
  obtain ⟨entry, found, -⟩ := served (lit "team") (lit "a.txt") rfl _ List.mem_cons_self
  have unknown : findRole removedServer.config (some (lit "team")) = .ok none := rfl
  simp [unknown] at found

end Removal

end S3Manager.Clients
