import S3Manager.Errors.Classify
import S3Manager.Storage.Retry

/-! The loop of `_execute_with_retry_inner` as it is written, over any world in which
clients are fetched and forgotten and a callback is invoked. `executeWithS3Retry` is
this loop run by a handler. -/

set_option autoImplicit false

namespace S3Manager.Storage

open Python Library

/-- What the retry loop calls. -/
structure Surroundings (World Client α : Type) where
  /-- `get_s3_client(role_name)` -/
  getClient : World → Result Client × World
  /-- the `s3_retries_total` increment, `invalidate_s3_client` and
  `_clear_boto3_cached_credentials` -/
  forgetClient : World → World
  callback : Client → World → Result α × World

section Loop

variable {World Client α : Type} (unicode : Unicode) (surroundings : Surroundings World Client α)

def unexpectedMessage : Str := lit "Unexpected S3 execution failure without exception"

/-- What follows the loop. -/
def raiseLastError : Option PyError → Result α
  | some lastError =>
      if isExpiredCredentialsError unicode lastError then
        .error (.raised .runtimeError expiredMessage (some lastError))
      else .error lastError
  | none => raise .runtimeError unexpectedMessage

/-- `while attempts < 2`, with `left` the number of attempts that are left. -/
def attemptLoop : (left attempts : Nat) → (lastError : Option PyError) → World → Result α × World
  | 0, _, lastError, world => (raiseLastError unicode lastError, world)
  | left + 1, attempts, lastError, world =>
      match surroundings.getClient world with
      | (.error clientError, world) =>
          if isExpiredCredentialsError unicode clientError && attempts == 0 then
            attemptLoop left (attempts + 1) lastError (surroundings.forgetClient world)
          else (.error clientError, world)
      | (.ok client, world) =>
          match surroundings.callback client world with
          | (.ok value, world) => (.ok value, world)
          | (.error exc, world) =>
              if isHttpException exc then (.error exc, world)
              else if attempts == 0 && isExpiredCredentialsError unicode exc then
                attemptLoop left (attempts + 1) (some exc) (surroundings.forgetClient world)
              else (raiseLastError unicode (some exc), world)

def executeWithRetryInner (world : World) : Result α × World :=
  attemptLoop unicode surroundings 2 0 none world

end Loop

section Attempts

variable {World Client α : Type} {unicode : Unicode} {surroundings : Surroundings World Client α}
  {left attempts : Nat} {lastError : Option PyError} {world between after : World}
  {client : Client} {exc : PyError} {value : α}

theorem loop_refused (refused : surroundings.getClient world = (.error exc, between))
    (final : isExpiredCredentialsError unicode exc = false ∨ attempts ≠ 0) :
    attemptLoop unicode surroundings (left + 1) attempts lastError world =
      (.error exc, between) := by
  rw [attemptLoop, refused]
  cases final with
  | inl lasting => simp [lasting]
  | inr later => simp [later]

theorem loop_refused_again (refused : surroundings.getClient world = (.error exc, between))
    (expired : isExpiredCredentialsError unicode exc = true) :
    attemptLoop unicode surroundings (left + 1) 0 lastError world =
      attemptLoop unicode surroundings left 1 lastError (surroundings.forgetClient between) := by
  rw [attemptLoop, refused]
  simp [expired]

theorem loop_returned (fetched : surroundings.getClient world = (.ok client, between))
    (returned : surroundings.callback client between = (.ok value, after)) :
    attemptLoop unicode surroundings (left + 1) attempts lastError world = (.ok value, after) := by
  rw [attemptLoop, fetched]
  simp only [returned]

/-- Another exception, or an expiry that comes after the first attempt, ends the loop. -/
theorem loop_raised (fetched : surroundings.getClient world = (.ok client, between))
    (raised : surroundings.callback client between = (.error exc, after))
    (final : isHttpException exc = true ∨ isExpiredCredentialsError unicode exc = false ∨
      attempts ≠ 0) :
    attemptLoop unicode surroundings (left + 1) attempts lastError world =
      (if isHttpException exc then .error exc else raiseLastError unicode (some exc), after) := by
  rw [attemptLoop, fetched]
  simp only [raised]
  cases http : isHttpException exc with
  | true => rfl
  | false =>
      obtain impossible | lasting | later := final
      · rw [http] at impossible
        cases impossible
      · simp [lasting]
      · simp [later]

theorem raised_error (exc : PyError) :
    ∃ final, (if isHttpException exc then (.error exc : Result α)
      else raiseLastError unicode (some exc)) = .error final := by
  dsimp only [raiseLastError]
  split_ifs
  · exact ⟨_, rfl⟩
  · exact ⟨_, rfl⟩
  · exact ⟨_, rfl⟩

theorem loop_raised_again (fetched : surroundings.getClient world = (.ok client, between))
    (raised : surroundings.callback client between = (.error exc, after))
    (plain : isHttpException exc = false)
    (expired : isExpiredCredentialsError unicode exc = true) :
    attemptLoop unicode surroundings (left + 1) 0 lastError world =
      attemptLoop unicode surroundings left 1 (some exc) (surroundings.forgetClient after) := by
  rw [attemptLoop, fetched]
  simp [raised, plain, expired]

/-- An attempt keeps what its callback and the attempts after it keep. -/
theorem attempt_keeps {invariant : World → Prop}
    (invokes : ∀ client world, invariant world → invariant (surroundings.callback client world).2)
    (again : ∀ attempts lastError world, invariant world → invariant
      (attemptLoop unicode surroundings left attempts lastError (surroundings.forgetClient world)).2)
    (holds : invariant (surroundings.getClient world).2) :
    invariant (attemptLoop unicode surroundings (left + 1) attempts lastError world).2 := by
  rcases fetched : surroundings.getClient world with ⟨reply, between⟩
  rw [attemptLoop, fetched]
  rw [fetched] at holds
  cases reply with
  | error clientError =>
      dsimp only
      split_ifs
      · exact again _ _ _ holds
      · exact holds
  | ok client =>
      have invokedHolds := invokes client between holds
      rcases invoked : surroundings.callback client between with ⟨outcome, after⟩
      rw [invoked] at invokedHolds
      dsimp only
      rw [invoked]
      cases outcome with
      | ok value => exact invokedHolds
      | error exc =>
          dsimp only
          split_ifs
          · exact invokedHolds
          · exact again _ _ _ invokedHolds
          · exact invokedHolds

/-- What holds once the first client is fetched, and is kept by each call, holds at the end. -/
theorem attemptLoop_keeps {invariant : World → Prop}
    (fetches : ∀ world, invariant world → invariant (surroundings.getClient world).2)
    (forgets : ∀ world, invariant world → invariant (surroundings.forgetClient world))
    (invokes : ∀ client world, invariant world → invariant (surroundings.callback client world).2)
    (holds : invariant (surroundings.getClient world).2) :
    invariant (attemptLoop unicode surroundings (left + 1) attempts lastError world).2 := by
  induction left generalizing attempts lastError world with
  | zero => exact attempt_keeps invokes (fun _ _ between kept => forgets between kept) holds
  | succ left ih =>
      exact attempt_keeps invokes (fun _ _ between kept => ih (fetches _ (forgets between kept))) holds

end Attempts

section Handlers

variable {World α : Type} {unicode : Unicode}

/-- The loop's surroundings when a handler answers the effects of a callback. -/
def handled (handler : (effect : Effect) → World → effect.Reply × World) (roleName : Option Str)
    (callback : S3Program α) : Surroundings World Unit α where
  getClient := handler (.getClient roleName)
  forgetClient world := (handler (.invalidateClient roleName) world).2
  callback _ := Program.run handler callback

variable (handler : (effect : Effect) → World → effect.Reply × World) (roleName : Option Str)
  (callback : S3Program α)

theorem run_secondAttempt_loop (lastError : Option PyError) (world : World) :
    Program.run handler (secondAttempt unicode roleName callback) world =
      attemptLoop unicode (handled handler roleName callback) 1 1 lastError world := by
  rcases fetched : (handled handler roleName callback).getClient world with ⟨reply, between⟩
  have replied : handler (.getClient roleName) world = (reply, between) := fetched
  rw [secondAttempt, Program.run_perform, replied]
  cases reply with
  | error exc => exact (loop_refused fetched (.inr Nat.one_ne_zero)).symm
  | ok client =>
      refine (Program.run_bind callback _ between).trans ?_
      rcases invoked : (handled handler roleName callback).callback client between with
        ⟨result, after⟩
      have ran : Program.run handler callback between = (result, after) := invoked
      rw [ran]
      cases result with
      | ok value => exact (loop_returned fetched invoked).symm
      | error exc =>
          rw [loop_raised fetched invoked (.inr (.inr Nat.one_ne_zero))]
          dsimp only [raiseLastError]
          split_ifs <;> rfl

/-- `executeWithS3Retry` run by any handler is the loop in that handler's surroundings. -/
theorem run_executeWithS3Retry_loop (world : World) :
    Program.run handler (executeWithS3Retry unicode roleName callback) world =
      executeWithRetryInner unicode (handled handler roleName callback) world := by
  rcases fetched : (handled handler roleName callback).getClient world with ⟨reply, between⟩
  have replied : handler (.getClient roleName) world = (reply, between) := fetched
  rw [executeWithS3Retry, Program.run_perform, replied, executeWithRetryInner]
  cases reply with
  | error exc =>
      dsimp only
      cases expired : isExpiredCredentialsError unicode exc with
      | true =>
          rw [loop_refused_again fetched expired]
          exact run_secondAttempt_loop handler roleName callback none _
      | false => exact (loop_refused fetched (.inl expired)).symm
  | ok client =>
      refine (Program.run_bind callback _ between).trans ?_
      rcases invoked : (handled handler roleName callback).callback client between with
        ⟨result, after⟩
      have ran : Program.run handler callback between = (result, after) := invoked
      rw [ran]
      cases result with
      | ok value => exact (loop_returned fetched invoked).symm
      | error exc =>
          dsimp only
          cases http : isHttpException exc with
          | true =>
              rw [loop_raised fetched invoked (.inl http)]
              simp [http]
          | false =>
              cases expired : isExpiredCredentialsError unicode exc with
              | true =>
                  rw [loop_raised_again fetched invoked http expired]
                  exact run_secondAttempt_loop handler roleName callback (some exc) _
              | false =>
                  rw [loop_raised fetched invoked (.inr (.inl expired))]
                  simp [http, raiseLastError, expired]

end Handlers

end S3Manager.Storage
