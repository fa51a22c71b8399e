import S3Manager.Clients.Cache
import S3Manager.Storage.RetryLoop

/-! One `execute_with_s3_retry` call against the client cache and the metrics: what it
does, event by event, for every sequence of outcomes. -/

set_option autoImplicit false

namespace S3Manager.Storage.Metered

open Python Library Clients Errors

inductive RetryEvent (env : BuildEnv) (α : Type) where
  | clientReused (client : S3Client env)
  | clientBuilt (client : S3Client env)
  | clientFailed (exc : PyError)
  /-- `s3_retries_total` is incremented. -/
  | retried
  | invalidated
  | invoked (client : S3Client env) (outcome : Result α)
  /-- `s3_operations_total` is incremented under these labels. -/
  | counted (role operation errorCode : Str)

structure RetryWorld (env : BuildEnv) (α : Type) where
  cache : ClientCache env
  knownRoles : List Str
  log : List (RetryEvent env α)

/-- What the call meets: the config and the AWS answer when a client is built, and the
callback, which may leave the cache changed. Each depends on the moment it is asked. -/
structure Script (env : BuildEnv) (α : Type) where
  config : Nat → Result Dict
  aws : Nat → Result Unit
  callback : Nat → S3Client env → ClientCache env → Result α × ClientCache env

variable {env : BuildEnv} {α : Type}

namespace RetryWorld

def now (world : RetryWorld env α) : Nat := world.log.length

def record (world : RetryWorld env α) (events : List (RetryEvent env α)) : RetryWorld env α :=
  { world with log := world.log ++ events }

@[simp] theorem record_log (world : RetryWorld env α) (events : List (RetryEvent env α)) :
    (world.record events).log = world.log ++ events := rfl

@[simp] theorem record_cache (world : RetryWorld env α) (events : List (RetryEvent env α)) :
    (world.record events).cache = world.cache := rfl

end RetryWorld

section Call

variable (script : Script env α) (roleName : Option Str)

def fetchClient (world : RetryWorld env α) : Result (S3Client env) × RetryWorld env α :=
  match Assoc.get? world.cache (cacheKey roleName) with
  | some slot => (.ok slot.client, world.record [.clientReused slot.client])
  | none =>
      match script.config world.now with
      | .error exc => (.error exc, world.record [.clientFailed exc])
      | .ok config =>
          match getS3Client config roleName (script.aws world.now) world.cache with
          | (.error exc, cache) =>
              (.error exc, { world with cache }.record [.clientFailed exc])
          | (.ok client, cache) =>
              (.ok client, { world with cache }.record [.clientBuilt client])

def invoke (client : S3Client env) (world : RetryWorld env α) : Result α × RetryWorld env α :=
  let ended := script.callback world.now client world.cache
  (ended.1, { world with cache := ended.2 }.record [.invoked client ended.1])

def forget (world : RetryWorld env α) : RetryWorld env α :=
  { world with cache := invalidateS3Client roleName world.cache }.record [.retried, .invalidated]

def surroundings : Surroundings (RetryWorld env α) (S3Client env) α where
  getClient := fetchClient script roleName
  forgetClient := forget roleName
  callback := invoke script

def roleCap : Nat := 50

def safeRoleLabel (role : Str) (knownRoles : List Str) : Str × List Str :=
  if role ∈ knownRoles then (role, knownRoles)
  else if knownRoles.length < roleCap then (role, role :: knownRoles)
  else (lit "other", knownRoles)

/-- `role_name or "unknown"` -/
def metricRole : Option Str → Str
  | some name => if name.isEmpty then lit "unknown" else name
  | none => lit "unknown"

def executeWithS3Retry (operation : Str) (world : RetryWorld env α) :
    Result α × RetryWorld env α :=
  let label := safeRoleLabel (metricRole roleName) world.knownRoles
  let ended := executeWithRetryInner env.unicode (surroundings script roleName)
    { world with knownRoles := label.2 }
  match ended with
  | (.ok value, world) => (.ok value, world.record [.counted label.1 operation (lit "none")])
  | (.error exc, world) =>
      (.error exc, world.record [.counted label.1 operation (errorCodeLabel exc)])

end Call

section Traces

/-- The client is obtained in one of the two ways. -/
inductive Obtained : RetryEvent env α → S3Client env → Prop where
  | reused (client : S3Client env) : Obtained (.clientReused client) client
  | built (client : S3Client env) : Obtained (.clientBuilt client) client

/-- What an attempt leaves that nothing follows, on a slot that was just emptied. -/
inductive LastAttempt : List (RetryEvent env α) → Result α → Prop where
  | refused (exc : PyError) : LastAttempt [.clientFailed exc] (.error exc)
  | returned (client : S3Client env) (value : α) :
      LastAttempt [.clientBuilt client, .invoked client (.ok value)] (.ok value)
  | raised (client : S3Client env) (exc final : PyError) :
      LastAttempt [.clientBuilt client, .invoked client (.error exc)] (.error final)

/-- The events of one call up to its metric, with its result. What expires at the first
attempt is followed by a second one, and nothing else is. -/
inductive CallTrace : List (RetryEvent env α) → Result α → Prop where
  | refused {exc : PyError} (lasting : isExpiredCredentialsError env.unicode exc = false) :
      CallTrace [.clientFailed exc] (.error exc)
  | returned {obtained : RetryEvent env α} {client : S3Client env}
      (got : Obtained obtained client) (value : α) :
      CallTrace [obtained, .invoked client (.ok value)] (.ok value)
  | raised {obtained : RetryEvent env α} {client : S3Client env}
      (got : Obtained obtained client) {exc : PyError}
      (lasting : isHttpException exc = true ∨ isExpiredCredentialsError env.unicode exc = false)
      (final : PyError) : CallTrace [obtained, .invoked client (.error exc)] (.error final)
  | refusedAgain {exc : PyError} (expired : isExpiredCredentialsError env.unicode exc = true)
      {events : List (RetryEvent env α)} {result : Result α}
      (second : LastAttempt events result) :
      CallTrace (.clientFailed exc :: .retried :: .invalidated :: events) result
  | raisedAgain {obtained : RetryEvent env α} {client : S3Client env}
      (got : Obtained obtained client) {exc : PyError} (plain : isHttpException exc = false)
      (expired : isExpiredCredentialsError env.unicode exc = true)
      {events : List (RetryEvent env α)} {result : Result α}
      (second : LastAttempt events result) :
      CallTrace (obtained :: .invoked client (.error exc) :: .retried :: .invalidated :: events)
        result

variable {script : Script env α} {roleName : Option Str} {world : RetryWorld env α}

theorem fetchClient_missing (missing : Assoc.get? world.cache (cacheKey roleName) = none) :
    (∃ exc after, fetchClient script roleName world = (.error exc, after) ∧
      after.log = world.log ++ [.clientFailed exc]) ∨
    ∃ client after, fetchClient script roleName world = (.ok client, after) ∧
      after.log = world.log ++ [.clientBuilt client] := by
  unfold fetchClient
  rw [missing]
  dsimp only
  cases script.config world.now with
  | error exc => exact .inl ⟨exc, _, rfl, rfl⟩
  | ok config =>
      dsimp only
      rcases getS3Client config roleName (script.aws world.now) world.cache with ⟨reply, cache⟩
      cases reply with
      | error exc => exact .inl ⟨exc, _, rfl, rfl⟩
      | ok client => exact .inr ⟨client, _, rfl, rfl⟩

theorem fetchClient_cases :
    (∃ exc after, fetchClient script roleName world = (.error exc, after) ∧
      after.log = world.log ++ [.clientFailed exc]) ∨
    ∃ client after obtained, fetchClient script roleName world = (.ok client, after) ∧
      Obtained obtained client ∧ after.log = world.log ++ [obtained] := by
  cases found : Assoc.get? world.cache (cacheKey roleName) with
  | none =>
      obtain refused | ⟨client, after, fetched, logged⟩ := fetchClient_missing found
      · exact .inl refused
      · exact .inr ⟨client, after, _, fetched, .built client, logged⟩
  | some slot =>
      have hit : fetchClient script roleName world =
          (.ok slot.client, world.record [.clientReused slot.client]) := by
        simp only [fetchClient, found]
      exact .inr ⟨slot.client, _, _, hit, .reused slot.client, rfl⟩

/-- The attempt after `forget` finds no cached client. -/
theorem second_attempt (missing : Assoc.get? world.cache (cacheKey roleName) = none)
    (lastError : Option PyError) :
    ∃ events result after,
      attemptLoop env.unicode (surroundings script roleName) 1 1 lastError world =
        (result, after) ∧ after.log = world.log ++ events ∧ LastAttempt events result := by
  obtain ⟨exc, between, refused, logged⟩ | ⟨client, between, fetched, logged⟩ :=
    @fetchClient_missing _ _ script _ _ missing
  · have fetchedNone : (surroundings script roleName).getClient world = (.error exc, between) :=
      refused
    exact ⟨_, _, _, loop_refused fetchedNone (.inr Nat.one_ne_zero), logged, .refused exc⟩
  · have got : (surroundings script roleName).getClient world = (.ok client, between) := fetched
    rcases invoked : (surroundings script roleName).callback client between with ⟨outcome, after⟩
    have left : after.log = world.log ++ [.clientBuilt client, .invoked client outcome] := by
      have ended : invoke script client between = (outcome, after) := invoked
      obtain ⟨rfl, rfl⟩ := Prod.mk.inj ended
      simp [logged]
    cases outcome with
    | ok value => exact ⟨_, _, _, loop_returned got invoked, left, .returned client value⟩
    | error exc =>
        obtain ⟨final, same⟩ := @raised_error α env.unicode exc
        refine ⟨_, .error final, after, ?_, left, .raised client exc final⟩
        rw [loop_raised got invoked (.inr (.inr Nat.one_ne_zero)), same]

theorem forget_missing (world : RetryWorld env α) :
    Assoc.get? (forget roleName world).cache (cacheKey roleName) = none := by
  simp [forget, invalidateS3Client]

theorem call_trace (script : Script env α) (roleName : Option Str) (world : RetryWorld env α) :
    ∃ events result after,
      executeWithRetryInner env.unicode (surroundings script roleName) world = (result, after) ∧
        after.log = world.log ++ events ∧ CallTrace events result := by
  unfold executeWithRetryInner
  obtain ⟨exc, between, refused, logged⟩ | ⟨client, between, obtained, fetched, got, logged⟩ :=
    @fetchClient_cases _ _ script roleName world
  · have fetchedNone : (surroundings script roleName).getClient world = (.error exc, between) :=
      refused
    cases expired : isExpiredCredentialsError env.unicode exc with
    | false => exact ⟨_, _, _, loop_refused fetchedNone (.inl expired), logged, .refused expired⟩
    | true =>
        obtain ⟨events, result, after, ended, left, second⟩ :=
          @second_attempt _ _ script roleName (forget roleName between) (forget_missing between) none
        refine ⟨.clientFailed exc :: .retried :: .invalidated :: events, result, after, ?_, ?_,
          .refusedAgain expired second⟩
        · rw [loop_refused_again fetchedNone expired]
          exact ended
        · rw [left, forget, RetryWorld.record_log, logged]
          simp
  · have fetchedOne : (surroundings script roleName).getClient world = (.ok client, between) :=
      fetched
    rcases invoked : (surroundings script roleName).callback client between with ⟨outcome, after⟩
    have left : after.log = world.log ++ [obtained, .invoked client outcome] := by
      have ended : invoke script client between = (outcome, after) := invoked
      obtain ⟨rfl, rfl⟩ := Prod.mk.inj ended
      simp [logged]
    cases outcome with
    | ok value => exact ⟨_, _, _, loop_returned fetchedOne invoked, left, .returned got value⟩
    | error exc =>
        by_cases again : isHttpException exc = false ∧
            isExpiredCredentialsError env.unicode exc = true
        · obtain ⟨events, result, final, ended, more, second⟩ :=
            @second_attempt _ _ script roleName (forget roleName after) (forget_missing after)
              (some exc)
          refine ⟨_, result, final, ?_, ?_, .raisedAgain got again.1 again.2 second⟩
          · rw [loop_raised_again fetchedOne invoked again.1 again.2]
            exact ended
          · rw [more, forget, RetryWorld.record_log, left]
            simp
        · have lasting : isHttpException exc = true ∨
              isExpiredCredentialsError env.unicode exc = false := by
            by_cases http : isHttpException exc = true
            · exact .inl http
            · exact .inr (by simpa [http] using again)
          obtain ⟨last, same⟩ := @raised_error α env.unicode exc
          refine ⟨_, .error last, after, ?_, left, .raised got lasting last⟩
          rw [loop_raised fetchedOne invoked (lasting.imp_right .inl), same]

end Traces

section Discipline

def invocations (log : List (RetryEvent env α)) : List (S3Client env × Result α) :=
  log.filterMap fun
    | .invoked client outcome => some (client, outcome)
    | _ => none

def counts (log : List (RetryEvent env α)) : List (Str × Str × Str) :=
  log.filterMap fun
    | .counted role operation errorCode => some (role, operation, errorCode)
    | _ => none

/-- An event is what the surroundings make of it at its moment: a client is built, or not, as
the config and AWS say then, and an outcome is the callback's. -/
def Faithful (script : Script env α) (roleName : Option Str) (moment : Nat) :
    RetryEvent env α → Prop
  | .clientBuilt client => ∃ config, ∃ cache : ClientCache env, script.config moment = .ok config ∧
      Assoc.get? cache (cacheKey roleName) = none ∧
      (getS3Client config roleName (script.aws moment) cache).1 = .ok client
  | .clientFailed exc => script.config moment = .error exc ∨
      ∃ config, ∃ cache : ClientCache env, script.config moment = .ok config ∧
        Assoc.get? cache (cacheKey roleName) = none ∧
        (getS3Client config roleName (script.aws moment) cache).1 = .error exc
  | .invoked client outcome => ∃ cache, outcome = (script.callback moment client cache).1
  | _ => True

/-- The retry discipline of one call, on the events it leaves and its result. -/
structure Disciplined (log : List (RetryEvent env α)) (result : Result α) : Prop where
  /-- A client that is fetched is used, and what expires at the first attempt is tried again. -/
  served : ∃ events role operation errorCode,
    log = events ++ [.counted role operation errorCode] ∧ CallTrace events result
  atMostTwice : (invocations log).length ≤ 2
  againAfterExpiry : ∀ first second, invocations log = [first, second] →
    ∃ exc, first.2 = .error exc ∧ isHttpException exc = false ∧
      isExpiredCredentialsError env.unicode exc = true
  /-- Whatever made the first attempt fail, the slot is emptied and nothing but a client
  built then, or the failure to build one, comes next. -/
  rebuilt : ∀ before after, log = before ++ .invalidated :: after →
    (∃ client outcome rest, after = .clientBuilt client :: .invoked client outcome :: rest) ∨
      ∃ exc rest, after = .clientFailed exc :: rest ∧ invocations rest = []
  /-- A second invocation follows the first through the emptied slot. -/
  freshClient : ∀ first second, invocations log = [first, second] →
    ∃ before after, log = before ++ .invoked first.1 first.2 :: .retried :: .invalidated ::
      .clientBuilt second.1 :: .invoked second.1 second.2 :: after
  unchanged : ∀ value, result = .ok value ↔
    ∃ client, (invocations log).getLast? = some (client, .ok value)
  countedOnce : ∃ role operation errorCode, counts log = [(role, operation, errorCode)] ∧
    (errorCode = lit "none" ↔ ∃ value, result = .ok value)

/-- The events are those of the surroundings: the client of the slot is used if there is one. -/
structure Told (script : Script env α) (roleName : Option Str) (cache : ClientCache env)
    (log : List (RetryEvent env α)) : Prop where
  reused : ∀ slot, Assoc.get? cache (cacheKey roleName) = some slot →
    log.head? = some (.clientReused slot.client)
  notReused : Assoc.get? cache (cacheKey roleName) = none →
    ∀ client, log.head? ≠ some (.clientReused client)
  faithful : ∀ moment event, log[moment]? = some event → Faithful script roleName moment event

theorem metricLabel_ne_none (errorClass : S3ErrorClass) : metricLabel errorClass ≠ lit "none" := by
  cases errorClass <;> decide

theorem invocations_append (first second : List (RetryEvent env α)) :
    invocations (first ++ second) = invocations first ++ invocations second :=
  List.filterMap_append

theorem counts_append (first second : List (RetryEvent env α)) :
    counts (first ++ second) = counts first ++ counts second :=
  List.filterMap_append

theorem Obtained.not_invoked {obtained : RetryEvent env α} {client : S3Client env}
    (got : Obtained obtained client) (rest : List (RetryEvent env α)) :
    invocations (obtained :: rest) = invocations rest ∧ counts (obtained :: rest) = counts rest ∧
      obtained ≠ .invalidated := by
  cases got with
  | reused => exact ⟨rfl, rfl, nofun⟩
  | built => exact ⟨rfl, rfl, nofun⟩

/-- The last attempt built its client, or could not. -/
theorem LastAttempt.fresh {events : List (RetryEvent env α)} {result : Result α}
    (second : LastAttempt events result) (counted : RetryEvent env α)
    (metric : invocations [counted] = []) :
    (∃ client outcome rest, events ++ [counted] =
        .clientBuilt client :: .invoked client outcome :: rest) ∨
      ∃ exc rest, events ++ [counted] = .clientFailed exc :: rest ∧ invocations rest = [] := by
  cases second with
  | refused exc => exact .inr ⟨exc, _, rfl, metric⟩
  | returned client value => exact .inl ⟨client, .ok value, _, rfl⟩
  | raised client exc final => exact .inl ⟨client, .error exc, _, rfl⟩

theorem LastAttempt.keeps {events : List (RetryEvent env α)} {result : Result α}
    (second : LastAttempt events result) : RetryEvent.invalidated ∉ events := by
  cases second <;> simp

theorem CallTrace.rebuilt {events before after : List (RetryEvent env α)} {result : Result α}
    (trace : CallTrace events result) (role operation errorCode : Str)
    (split : events ++ [.counted role operation errorCode] = before ++ .invalidated :: after) :
    (∃ client outcome rest, after = .clientBuilt client :: .invoked client outcome :: rest) ∨
      ∃ exc rest, after = .clientFailed exc :: rest ∧ invocations rest = [] := by
  have member : RetryEvent.invalidated ∈ events ++ [.counted role operation errorCode] := by
    rw [split]
    simp
  -- The trace has at most one `invalidated`, so the split is the one the trace shows.
  cases trace with
  | refused lasting => simp at member
  | returned got value => simp [(got.not_invoked []).2.2.symm] at member
  | raised got lasting final => simp [(got.not_invoked []).2.2.symm] at member
  | @refusedAgain exc expired events _ second =>
      have same : [.clientFailed exc, .retried] ++ .invalidated ::
          (events ++ [.counted role operation errorCode]) = before ++ .invalidated :: after := split
      rw [List.append_cons_inj_of_notMem (by simp) (by simp [second.keeps])] at same
      obtain ⟨-, -, rfl⟩ := same
      exact second.fresh _ rfl
  | @raisedAgain obtained client got exc plain expired events _ second =>
      have same : [obtained, .invoked client (.error exc), .retried] ++ .invalidated ::
          (events ++ [.counted role operation errorCode]) = before ++ .invalidated :: after := split
      rw [List.append_cons_inj_of_notMem (by simp [(got.not_invoked []).2.2.symm])
        (by simp [second.keeps])] at same
      obtain ⟨-, -, rfl⟩ := same
      exact second.fresh _ rfl

/-- What the second attempt adds to the invocations, and how its result follows. -/
theorem LastAttempt.invocations {events : List (RetryEvent env α)} {result : Result α}
    (second : LastAttempt events result) :
    (invocations events = [] ∧ ∃ exc, result = .error exc) ∨
      ∃ client outcome, invocations events = [(client, outcome)] ∧
        events = [.clientBuilt client, .invoked client outcome] ∧
        ∀ value, result = .ok value ↔ outcome = .ok value := by
  cases second with
  | refused exc => exact .inl ⟨rfl, exc, rfl⟩
  | returned client value => exact .inr ⟨client, .ok value, rfl, rfl, fun other => Iff.rfl⟩
  | raised client exc final => exact .inr ⟨client, .error exc, rfl, rfl, by simp⟩

theorem LastAttempt.counts {events : List (RetryEvent env α)} {result : Result α}
    (second : LastAttempt events result) : counts events = [] := by
  cases second <;> rfl

theorem CallTrace.counts {events : List (RetryEvent env α)} {result : Result α}
    (trace : CallTrace events result) : counts events = [] := by
  cases trace with
  | refused lasting => rfl
  | returned got value => exact (got.not_invoked _).2.1
  | raised got lasting final => exact (got.not_invoked _).2.1
  | refusedAgain expired second => exact second.counts
  | raisedAgain got plain expired second => exact (got.not_invoked _).2.1.trans second.counts

/-- The invocations of a call: none, one, or one that expired and then another. -/
theorem CallTrace.invocations {events : List (RetryEvent env α)} {result : Result α}
    (trace : CallTrace events result) :
    (invocations events = [] ∧ ∃ exc, result = .error exc) ∨
    (∃ client outcome, invocations events = [(client, outcome)] ∧
      ((∀ value, result = .ok value ↔ outcome = .ok value) ∨
        (∃ exc, outcome = .error exc) ∧ ∃ exc, result = .error exc)) ∨
    ∃ before client exc fresh outcome,
      invocations events = [(client, .error exc), (fresh, outcome)] ∧
      isHttpException exc = false ∧ isExpiredCredentialsError env.unicode exc = true ∧
      events = before ++ [.invoked client (.error exc), .retried, .invalidated,
        .clientBuilt fresh, .invoked fresh outcome] ∧
      ∀ value, result = .ok value ↔ outcome = .ok value := by
  cases trace with
  | @refused exc lasting => exact .inl ⟨rfl, exc, rfl⟩
  | @returned obtained client got value =>
      exact .inr (.inl ⟨client, .ok value, (got.not_invoked _).1, .inl fun other => Iff.rfl⟩)
  | @raised obtained client got exc lasting final =>
      exact .inr (.inl ⟨client, .error exc, (got.not_invoked _).1, .inl (by simp)⟩)
  | refusedAgain expired second =>
      obtain ⟨none, failed⟩ | ⟨client, outcome, one, -, same⟩ := second.invocations
      · exact .inl ⟨none, failed⟩
      · exact .inr (.inl ⟨client, outcome, one, .inl same⟩)
  | @raisedAgain obtained client got exc plain expired events _ second =>
      obtain ⟨none, failed⟩ | ⟨fresh, outcome, one, shape, same⟩ := second.invocations
      · refine .inr (.inl ⟨client, .error exc, (got.not_invoked _).1.trans ?_, .inr ⟨⟨exc, rfl⟩, failed⟩⟩)
        exact congrArg _ none
      · refine .inr (.inr ⟨[obtained], client, exc, fresh, outcome,
          (got.not_invoked _).1.trans (congrArg _ one), plain, expired, ?_, same⟩)
        rw [shape]
        rfl

variable {script : Script env α} {roleName : Option Str} {cache : ClientCache env}
  {world : RetryWorld env α}

/-- The log so far is faithful. -/
def FaithfulLog (script : Script env α) (roleName : Option Str) (log : List (RetryEvent env α)) :
    Prop :=
  ∀ moment event, log[moment]? = some event → Faithful script roleName moment event

theorem faithful_snoc {log : List (RetryEvent env α)} {event : RetryEvent env α}
    (faithful : FaithfulLog script roleName log)
    (last : Faithful script roleName log.length event) :
    FaithfulLog script roleName (log ++ [event]) := by
  intro moment other found
  by_cases early : moment < log.length
  · rw [List.getElem?_append_left early] at found
    exact faithful moment other found
  · rw [List.getElem?_append_right (Nat.le_of_not_lt early)] at found
    rw [List.getElem?_singleton] at found
    split_ifs at found with here
    obtain rfl := Option.some.inj found
    obtain rfl : moment = log.length := by omega
    exact last

/-- The event that a fetch leaves. -/
theorem fetchClient_event (script : Script env α) (roleName : Option Str)
    (world : RetryWorld env α) :
    ∃ event, (fetchClient script roleName world).2.log = world.log ++ [event] ∧
      Faithful script roleName world.log.length event ∧
      (∀ slot, Assoc.get? world.cache (cacheKey roleName) = some slot →
        event = .clientReused slot.client) ∧
      (Assoc.get? world.cache (cacheKey roleName) = none → ∀ client, event ≠ .clientReused client) := by
  unfold fetchClient
  cases found : Assoc.get? world.cache (cacheKey roleName) with
  | some slot => exact ⟨.clientReused slot.client, rfl, trivial, by simp, by simp⟩
  | none =>
      cases read : script.config world.now with
      | error exc => exact ⟨.clientFailed exc, rfl, .inl read, by simp, fun _ _ => nofun⟩
      | ok config =>
          dsimp only
          rcases built : getS3Client config roleName (script.aws world.now) world.cache with
            ⟨reply, after⟩
          cases reply with
          | error exc =>
              exact ⟨.clientFailed exc, rfl, .inr ⟨config, world.cache, read, found,
                congrArg Prod.fst built⟩, by simp, fun _ _ => nofun⟩
          | ok client =>
              exact ⟨.clientBuilt client, rfl, ⟨config, world.cache, read, found,
                congrArg Prod.fst built⟩, by simp, fun _ _ => nofun⟩

theorem fetchClient_faithful (faithful : FaithfulLog script roleName world.log) :
    FaithfulLog script roleName (fetchClient script roleName world).2.log := by
  obtain ⟨event, logged, here, -, -⟩ := fetchClient_event script roleName world
  rw [logged]
  exact faithful_snoc faithful here

theorem inner_faithful (faithful : FaithfulLog script roleName world.log) :
    FaithfulLog script roleName
      (executeWithRetryInner env.unicode (surroundings script roleName) world).2.log := by
  refine @attemptLoop_keeps (RetryWorld env α) _ _ _ _ 1 0 none world
    (fun met => FaithfulLog script roleName met.log) (fun met => fetchClient_faithful)
    (fun met kept => ?_) (fun client met kept => ?_) (fetchClient_faithful faithful)
  · show FaithfulLog script roleName (met.log ++ [.retried, .invalidated])
    rw [List.append_cons]
    exact faithful_snoc (faithful_snoc kept trivial) trivial
  · exact faithful_snoc kept ⟨met.cache, rfl⟩

/-- The first event of the log is that of the first fetch. -/
theorem inner_opens :
    ∃ event rest, (executeWithRetryInner env.unicode (surroundings script roleName) world).2.log =
        world.log ++ event :: rest ∧
      (∀ slot, Assoc.get? world.cache (cacheKey roleName) = some slot →
        event = .clientReused slot.client) ∧
      (Assoc.get? world.cache (cacheKey roleName) = none → ∀ client, event ≠ .clientReused client) := by
  obtain ⟨event, logged, -, opens⟩ := fetchClient_event script roleName world
  have grown : ∃ rest, (executeWithRetryInner env.unicode (surroundings script roleName) world).2.log =
      world.log ++ event :: rest := by
    refine @attemptLoop_keeps (RetryWorld env α) _ _ _ _ 1 0 none world
      (fun met => ∃ rest, met.log = world.log ++ event :: rest) ?_ ?_ ?_ ⟨[], logged⟩
    · rintro met ⟨rest, grown⟩
      obtain ⟨next, added, -⟩ := fetchClient_event script roleName met
      refine ⟨rest ++ [next], added.trans ?_⟩
      rw [grown, List.append_assoc]
      rfl
    · rintro met ⟨rest, grown⟩
      refine ⟨rest ++ [.retried, .invalidated], ?_⟩
      show met.log ++ _ = _
      rw [grown, List.append_assoc]
      rfl
    · rintro client met ⟨rest, grown⟩
      refine ⟨rest ++ [.invoked client (script.callback met.now client met.cache).1], ?_⟩
      show met.log ++ _ = _
      rw [grown, List.append_assoc]
      rfl
  obtain ⟨rest, grown⟩ := grown
  exact ⟨event, rest, grown, opens⟩

theorem disciplined_of_trace {events : List (RetryEvent env α)} {result : Result α}
    (trace : CallTrace events result) (role operation errorCode : Str)
    (label : errorCode = lit "none" ↔ ∃ value, result = .ok value) :
    Disciplined (events ++ [.counted role operation errorCode]) result := by
  have counted : counts (events ++ [.counted role operation errorCode]) =
      [(role, operation, errorCode)] := by
    rw [counts_append, trace.counts]
    rfl
  have same : invocations (events ++ [.counted role operation errorCode]) = invocations events := by
    rw [invocations_append]
    exact List.append_nil _
  have rebuilt := fun before after => @CallTrace.rebuilt _ _ _ before after _ trace role operation
    errorCode
  have metric : ∃ role' operation' errorCode', counts (events ++ [.counted role operation errorCode]) =
      [(role', operation', errorCode')] ∧ (errorCode' = lit "none" ↔ ∃ value, result = .ok value) :=
    ⟨role, operation, errorCode, counted, label⟩
  have served : ∃ events' role' operation' errorCode',
      events ++ [RetryEvent.counted role operation errorCode] =
        events' ++ [.counted role' operation' errorCode'] ∧ CallTrace events' result :=
    ⟨events, role, operation, errorCode, rfl, trace⟩
  obtain ⟨none, failure, failed⟩ | ⟨client, outcome, one, ending⟩ |
    ⟨before, client, exc, fresh, outcome, two, plain, expired, shape, ending⟩ := trace.invocations
  · subst failed
    exact ⟨served, by simp [same, none], by simp [same, none], rebuilt, by simp [same, none],
      by simp [same, none], metric⟩
  · refine ⟨served, by simp [same, one], by simp [same, one], rebuilt, by simp [same, one], ?_, metric⟩
    intro value
    rw [same, one]
    obtain returned | ⟨⟨exc, rfl⟩, ⟨last, rfl⟩⟩ := ending
    · simp [returned value]
    · simp
  · refine ⟨served, by simp [same, two], ?_, rebuilt, ?_, ?_, metric⟩
    · intro first second pair
      rw [same, two] at pair
      obtain ⟨rfl, -⟩ := List.cons.inj pair
      exact ⟨exc, rfl, plain, expired⟩
    · intro first second pair
      rw [same, two] at pair
      obtain ⟨rfl, rfl⟩ : (client, .error exc) = first ∧ (fresh, outcome) = second := by
        simpa using pair
      exact ⟨before, [.counted role operation errorCode], by rw [shape, List.append_assoc]; rfl⟩
    · intro value
      rw [same, two]
      simp [ending value]

theorem told_of_inner {knownRoles : List Str} {result : Result α} {after : RetryWorld env α}
    (ended : executeWithRetryInner env.unicode (surroundings script roleName)
      ⟨cache, knownRoles, []⟩ = (result, after)) (role operation errorCode : Str) :
    Told script roleName cache (after.log ++ [RetryEvent.counted role operation errorCode]) := by
  have faithful : FaithfulLog script roleName after.log := by
    have whole := @inner_faithful _ _ script roleName ⟨cache, knownRoles, []⟩ fun _ _ found => by
      cases found
    rwa [ended] at whole
  obtain ⟨event, rest, grown, cached, missing⟩ :=
    @inner_opens _ _ script roleName ⟨cache, knownRoles, []⟩
  rw [ended] at grown
  have first : (after.log ++ [RetryEvent.counted role operation errorCode]).head? = some event := by
    rw [grown]
    rfl
  refine ⟨fun slot found => ?_, fun empty client => ?_, faithful_snoc faithful trivial⟩
  · rw [first, cached slot found]
  · rw [first]
    exact fun same => missing empty client (Option.some.inj same)

/-- The discipline of every call, on the events that its surroundings make. -/
theorem retry_disciplined (script : Script env α) (roleName : Option Str) (operation : Str)
    (cache : ClientCache env) (knownRoles : List Str) :
    Disciplined (executeWithS3Retry script roleName operation ⟨cache, knownRoles, []⟩).2.log
        (executeWithS3Retry script roleName operation ⟨cache, knownRoles, []⟩).1 ∧
      Told script roleName cache
        (executeWithS3Retry script roleName operation ⟨cache, knownRoles, []⟩).2.log := by
  obtain ⟨events, result, after, ended, logged, trace⟩ := call_trace script roleName
    ⟨cache, (safeRoleLabel (metricRole roleName) knownRoles).2, []⟩
  have told := fun role errorCode => told_of_inner ended role operation errorCode
  unfold executeWithS3Retry
  dsimp only
  rw [ended]
  have left : after.log = events := by simpa using logged
  rw [left] at told
  cases result with
  | ok value =>
      dsimp only
      rw [RetryWorld.record_log, left]
      exact ⟨disciplined_of_trace trace _ _ _ (by simp), told _ _⟩
  | error exc =>
      dsimp only
      rw [RetryWorld.record_log, left]
      exact ⟨disciplined_of_trace trace _ _ _ (by simp [errorCodeLabel, metricLabel_ne_none]),
        told _ _⟩

end Discipline

end S3Manager.Storage.Metered
