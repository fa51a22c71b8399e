import S3Manager.Storage.Listings
import S3Manager.Storage.Store

/-! How operations run against a store: what they return while no call fails, and
what a failing call leaves behind. -/

set_option autoImplicit false

namespace S3Manager.Storage

open Python Library

section Runs

variable {α β : Type} {conventions : Conventions}

@[simp] theorem run_ofResult (result : Result α) (world : World) :
    (S3Program.ofResult result).run conventions world = (result, world) := rfl

@[simp] theorem run_pure (value : α) (world : World) :
    (pure value : S3Program α).run conventions world = (.ok value, world) := rfl

theorem run_bind (program : S3Program α) (next : α → S3Program β) (world : World) :
    (program >>= next).run conventions world =
      match program.run conventions world with
      | (.ok value, after) => (next value).run conventions after
      | (.error exc, after) => (.error exc, after) := by
  refine (Program.run_bind program _ world).trans ?_
  cases ran : program.run conventions world with
  | mk result after =>
      have ran' : Program.run (handle conventions) program world = (result, after) := ran
      rw [ran']
      cases result <;> rfl

theorem run_bind_ok {program : S3Program α} {next : α → S3Program β} {world after : World} {result : β}
    (ran : (program >>= next).run conventions world = (.ok result, after)) :
    ∃ value between, program.run conventions world = (.ok value, between) ∧
      (next value).run conventions between = (.ok result, after) := by
  rw [run_bind] at ran
  cases first : program.run conventions world with
  | mk outcome between =>
      rw [first] at ran
      cases outcome with
      | ok value => exact ⟨value, between, rfl, ran⟩
      | error exc => cases (Prod.mk.inj ran).1

theorem run_call (request : S3Request) (world : World) :
    (S3Program.call request).run conventions world = handle conventions (.s3 request) world := rfl

theorem handle_fails {request : S3Request} {world : World} {exc : PyError}
    (fault : world.faults 0 = some exc) :
    handle conventions (.s3 request) world = (.error exc, world.later world.store) := by
  simp only [handle, fault]

theorem handle_answers {request : S3Request} {world : World} (fault : world.faults 0 = none) :
    handle conventions (.s3 request) world =
      ((world.store.answer conventions request).1,
        world.later (world.store.answer conventions request).2) := by
  simp only [handle, fault]
  rfl

theorem client_fails {roleName : Option Str} {world : World} {exc : PyError}
    (fault : world.faults 0 = some exc) :
    handle conventions (.getClient roleName) world = (.error exc, world.later world.store) := by
  simp only [handle, fault]

theorem client_built {roleName : Option Str} {world : World} (fault : world.faults 0 = none) :
    handle conventions (.getClient roleName) world = (.ok (), world.later world.store) := by
  simp only [handle, fault]

theorem run_mapError (translate : PyError → PyError) (program : S3Program α) (world : World) :
    (program.mapError translate).run conventions world =
      match program.run conventions world with
      | (.ok value, after) => (.ok value, after)
      | (.error exc, after) => (.error (translate exc), after) := by
  refine (Program.run_bind program _ world).trans ?_
  cases ran : program.run conventions world with
  | mk result after =>
      have ran' : Program.run (handle conventions) program world = (result, after) := ran
      rw [ran']
      cases result <;> rfl

theorem run_mapError_ok {translate : PyError → PyError} {program : S3Program α}
    {world after : World} {value : α}
    (ran : (program.mapError translate).run conventions world = (.ok value, after)) :
    program.run conventions world = (.ok value, after) := by
  rw [run_mapError] at ran
  cases first : program.run conventions world with
  | mk result left =>
      rw [first] at ran
      cases result with
      | ok _ => exact ran
      | error _ => cases (Prod.mk.inj ran).1

end Runs

section Calm

variable {α β : Type} {conventions : Conventions} {store after : Store}

/-- A world in which no call fails. -/
def calm (store : Store) : World where
  store := store
  faults := fun _ => none

/-- While no call fails, the program returns this value and leaves this store. -/
def Returns (conventions : Conventions) (program : S3Program α) (store : Store) (value : α)
    (after : Store) : Prop :=
  program.run conventions (calm store) = (.ok value, calm after)

theorem returns_pure (value : α) :
    Returns conventions (pure value : S3Program α) store value store := rfl

theorem run_bind_returns {program : S3Program α} {next : α → S3Program β} {value : α}
    {between : Store} (first : Returns conventions program store value between) :
    (program >>= next).run conventions (calm store) =
      (next value).run conventions (calm between) := by
  unfold Returns at first
  rw [run_bind, first]

theorem returns_bind {program : S3Program α} {next : α → S3Program β} {value : α} {result : β}
    {between : Store} (first : Returns conventions program store value between)
    (second : Returns conventions (next value) between result after) :
    Returns conventions (program >>= next) store result after :=
  (run_bind_returns first).trans second

theorem returns_of_bind {program : S3Program α} {next : α → S3Program β} {value : α} {result : β}
    {between : Store} (first : Returns conventions program store value between)
    (whole : Returns conventions (program >>= next) store result after) :
    Returns conventions (next value) between result after :=
  (run_bind_returns first).symm.trans whole

theorem handle_calm (effect : Effect) (store : Store) :
    ∃ after, (handle conventions effect (calm store)).2 = calm after := by
  cases effect with
  | getClient _ | invalidateClient _ => exact ⟨store, rfl⟩
  | s3 request => exact ⟨(store.answer conventions request).2, rfl⟩

theorem run_calm (program : S3Program α) (store : Store) :
    ∃ after, (program.run conventions (calm store)).2 = calm after := by
  unfold S3Program.run
  induction program generalizing store with
  | pure value => exact ⟨store, rfl⟩
  | perform effect next ih =>
      obtain ⟨after, left⟩ := @handle_calm conventions effect store
      rw [Program.run_perform, left]
      exact ih _ after

theorem returns_bind_cases {program : S3Program α} {next : α → S3Program β} {result : β}
    (whole : Returns conventions (program >>= next) store result after) :
    ∃ value between, Returns conventions program store value between ∧
      Returns conventions (next value) between result after := by
  obtain ⟨between, left⟩ := @run_calm _ conventions program store
  cases ran : program.run conventions (calm store) with
  | mk outcome world =>
      rw [ran] at left
      obtain rfl : world = calm between := left
      cases outcome with
      | ok value => exact ⟨value, between, ran, returns_of_bind ran whole⟩
      | error exc =>
          rw [Returns, run_bind, ran] at whole
          cases (Prod.mk.inj whole).1

theorem returns_call {request : S3Request} {answer : request.Answer}
    (answered : store.answer conventions request = (.ok answer, after)) :
    Returns conventions (S3Program.call request) store answer after := by
  show ((store.answer conventions request).1,
    (calm store).later (store.answer conventions request).2) = _
  rw [answered]
  rfl

theorem returns_mapError {program : S3Program α} {translate : PyError → PyError} {value : α}
    (returns : Returns conventions program store value after) :
    Returns conventions (program.mapError translate) store value after := by
  unfold Returns at returns
  rw [Returns, run_mapError, returns]

theorem returns_mapError_inv {program : S3Program α} {translate : PyError → PyError} {value : α}
    (returns : Returns conventions (program.mapError translate) store value after) :
    Returns conventions program store value after :=
  run_mapError_ok returns

theorem returns_retry {unicode : Unicode} {roleName : Option Str} {callback : S3Program α}
    {value : α} (returns : Returns conventions callback store value after) :
    Returns conventions (executeWithS3Retry unicode roleName callback) store value after := by
  have client : handle conventions (.getClient roleName) (calm store) = (.ok (), calm store) := rfl
  have ran : Program.run (handle conventions) callback (calm store) = (.ok value, calm after) :=
    returns
  unfold Returns S3Program.run executeWithS3Retry
  simp only [Program.run_perform, client]
  refine (Program.run_bind callback _ _).trans ?_
  rw [ran]
  rfl

end Calm

section Failures

variable {α β : Type} {conventions : Conventions} {store : Store}

/-- Whichever calls fail, an error leaves the store as it was, and a value comes
with the store it promises. -/
def Atomic (conventions : Conventions) (program : S3Program α) (store : Store)
    (post : α → Store → Prop) : Prop :=
  ∀ faults,
    match program.run conventions ⟨store, faults⟩ with
    | (.ok value, after) => post value after.store
    | (.error _, after) => after.store = store

theorem Atomic.cases {program : S3Program α} {post : α → Store → Prop}
    (atomic : Atomic conventions program store post) (faults : Nat → Option PyError) :
    (∃ value after, program.run conventions ⟨store, faults⟩ = (.ok value, after) ∧
        post value after.store) ∨
      ∃ exc after, program.run conventions ⟨store, faults⟩ = (.error exc, after) ∧
        after.store = store := by
  have holds := atomic faults
  cases ran : program.run conventions ⟨store, faults⟩ with
  | mk result after =>
      rw [ran] at holds
      cases result with
      | ok value => exact .inl ⟨value, after, rfl, holds⟩
      | error exc => exact .inr ⟨exc, after, rfl, holds⟩

theorem atomic_pure {post : α → Store → Prop} {value : α} (holds : post value store) :
    Atomic conventions (pure value : S3Program α) store post :=
  fun _ => holds

theorem atomic_error {post : α → Store → Prop} (exc : PyError) :
    Atomic conventions (S3Program.ofResult (.error exc) : S3Program α) store post :=
  fun _ => rfl

theorem atomic_bind {program : S3Program α} {next : α → S3Program β} {post : β → Store → Prop}
    {reads : α → Prop}
    (first : Atomic conventions program store fun value after => after = store ∧ reads value)
    (second : ∀ value, reads value → Atomic conventions (next value) store post) :
    Atomic conventions (program >>= next) store post := by
  intro faults
  have holds := first faults
  rw [run_bind]
  cases ran : program.run conventions ⟨store, faults⟩ with
  | mk result after =>
      rw [ran] at holds
      obtain ⟨left, remaining⟩ := after
      cases result with
      | error exc => exact holds
      | ok value =>
          obtain ⟨rfl, read⟩ := holds
          exact second value read remaining

theorem atomic_then_pure {program : S3Program α} {value : α → β} {post : Store → Prop}
    (holds : Atomic conventions program store fun _ after => post after) :
    Atomic conventions (program >>= fun result => pure (value result)) store
      fun _ after => post after := by
  intro faults
  have ran := holds faults
  rw [run_bind]
  cases shape : program.run conventions ⟨store, faults⟩ with
  | mk result after =>
      rw [shape] at ran
      cases result <;> exact ran

theorem atomic_mapError {program : S3Program α} {translate : PyError → PyError}
    {post : α → Store → Prop} (holds : Atomic conventions program store post) :
    Atomic conventions (program.mapError translate) store post := by
  intro faults
  have ran := holds faults
  rw [run_mapError]
  cases shape : program.run conventions ⟨store, faults⟩ with
  | mk result after =>
      rw [shape] at ran
      cases result <;> exact ran

theorem atomic_mono {program : S3Program α} {first second : α → Store → Prop}
    (holds : Atomic conventions program store first)
    (weaker : ∀ value after, first value after → second value after) :
    Atomic conventions program store second := by
  intro faults
  have ran := holds faults
  cases shape : program.run conventions ⟨store, faults⟩ with
  | mk result after =>
      rw [shape] at ran
      cases result with
      | ok value => exact weaker value _ ran
      | error exc => exact ran

theorem atomic_call {request : S3Request} {post : request.Answer → Store → Prop}
    (unchanged : ∀ exc after, store.answer conventions request = (.error exc, after) →
      after = store)
    (answered : ∀ value after, store.answer conventions request = (.ok value, after) →
      post value after) :
    Atomic conventions (S3Program.call request) store post := by
  intro faults
  rw [run_call]
  cases fault : faults 0 with
  | some exc =>
      rw [handle_fails fault]
      rfl
  | none =>
      rw [handle_answers fault]
      cases shape : store.answer conventions request with
      | mk result after =>
          cases result with
          | ok value => exact answered value after shape
          | error exc => exact unchanged exc after shape

theorem atomic_answered {request : S3Request} {answer : request.Answer} {left : Store}
    (answered : store.answer conventions request = (.ok answer, left)) :
    Atomic conventions (S3Program.call request) store fun _ after => after = left := by
  refine atomic_call (fun exc after ended => ?_) fun value after ended => ?_
  · rw [answered] at ended
    cases ended
  · rw [answered] at ended
    exact (Prod.mk.inj ended).2.symm

theorem run_attempt {callback : S3Program α} {next : Result α → S3Program β} {world after : World}
    {result : Result α} (ran : callback.run conventions world = (result, after)) :
    Program.run (handle conventions) (Program.bind callback next) world =
      (next result).run conventions after := by
  have ran' : Program.run (handle conventions) callback world = (result, after) := ran
  refine (Program.run_bind callback next world).trans ?_
  rw [ran']
  rfl

theorem run_secondAttempt {unicode : Unicode} {roleName : Option Str} {callback : S3Program α}
    {world after : World} {result : Result α} (built : world.faults 0 = none)
    (ran : callback.run conventions (world.later world.store) = (result, after)) :
    ∃ final, (secondAttempt unicode roleName callback).run conventions world = (final, after) ∧
      ∀ value, final = .ok value ↔ result = .ok value := by
  unfold S3Program.run secondAttempt
  simp only [Program.run_perform]
  rw [client_built built]
  cases result with
  | ok value => exact ⟨.ok value, run_attempt ran, fun _ => Iff.rfl⟩
  | error exc =>
      let raised : PyError := if isHttpException exc then exc
        else if isExpiredCredentialsError unicode exc then
          .raised .runtimeError expiredMessage (some exc)
        else exc
      refine ⟨.error raised, (run_attempt ran).trans ?_, by simp⟩
      dsimp only [raised]
      split_ifs <;> rfl

theorem run_executeWithS3Retry {unicode : Unicode} {roleName : Option Str}
    {callback : S3Program α} {world after : World} {result : Result α}
    (built : world.faults 0 = none)
    (ran : callback.run conventions (world.later world.store) = (result, after)) :
    (executeWithS3Retry unicode roleName callback).run conventions world = (result, after) ∨
      (∃ exc, result = .error exc) ∧
        (executeWithS3Retry unicode roleName callback).run conventions world =
          (secondAttempt unicode roleName callback).run conventions (after.later after.store) := by
  unfold S3Program.run executeWithS3Retry
  simp only [Program.run_perform]
  rw [client_built built]
  cases result with
  | ok value => exact .inl (run_attempt ran)
  | error exc =>
      by_cases again : ¬ isHttpException exc ∧ isExpiredCredentialsError unicode exc
      · refine .inr ⟨⟨exc, rfl⟩, (run_attempt ran).trans ?_⟩
        simp only [again.1, again.2, if_true, Bool.false_eq_true, if_false]
        rfl
      · refine .inl ((run_attempt ran).trans ?_)
        dsimp only
        split_ifs with http expired
        · rfl
        · exact absurd ⟨http, expired⟩ again
        · rfl

/-- From a store in reach, an error leaves a store in reach, and a value one that
meets its promise, whichever calls fail. -/
def Leaves (conventions : Conventions) (program : S3Program α) (reach : Store → Prop)
    (post : α → Store → Prop) : Prop :=
  ∀ store, reach store → ∀ faults,
    match program.run conventions ⟨store, faults⟩ with
    | (.ok value, after) => post value after.store
    | (.error _, after) => reach after.store

/-- How the retry reports an error that both attempts end in. -/
def afterRetry (unicode : Unicode) (exc : PyError) : PyError :=
  if isExpiredCredentialsError unicode exc then .raised .runtimeError expiredMessage (some exc)
  else exc

theorem retry_raises {unicode : Unicode} {roleName : Option Str} {callback : S3Program α}
    {exc : PyError} (fails : callback.run conventions (calm store) = (.error exc, calm store))
    (plain : isHttpException exc = false) :
    (executeWithS3Retry unicode roleName callback).run conventions (calm store) =
      (.error (afterRetry unicode exc), calm store) := by
  have client : handle conventions (.getClient roleName) (calm store) = (.ok (), calm store) := rfl
  have ended : ¬ isHttpException exc = true := by simp [plain]
  unfold S3Program.run executeWithS3Retry
  simp only [Program.run_perform, client]
  refine (run_attempt fails).trans ?_
  unfold afterRetry
  dsimp only
  rw [if_neg ended]
  split_ifs with expired
  · change (secondAttempt unicode roleName callback).run conventions (calm store) = _
    unfold S3Program.run secondAttempt
    simp only [Program.run_perform, client]
    refine (run_attempt fails).trans ?_
    dsimp only
    rw [if_neg ended, if_pos expired]
    rfl
  · rfl

theorem leaves_secondAttempt {unicode : Unicode} {roleName : Option Str} {callback : S3Program α}
    {reach : Store → Prop} {post : α → Store → Prop}
    (holds : Leaves conventions callback reach post) :
    Leaves conventions (secondAttempt unicode roleName callback) reach post := by
  intro store reached faults
  cases fault : faults 0 with
  | some exc =>
      unfold S3Program.run secondAttempt
      simp only [Program.run_perform]
      rw [@client_fails _ _ ⟨store, faults⟩ _ fault]
      exact reached
  | none =>
      have first := holds store reached fun count => faults (count + 1)
      cases ran : callback.run conventions ⟨store, fun count => faults (count + 1)⟩ with
      | mk result after =>
          obtain ⟨final, whole, same⟩ :=
            @run_secondAttempt _ _ unicode roleName _ ⟨store, faults⟩ _ _ fault ran
          rw [ran] at first
          rw [whole]
          cases result with
          | ok value =>
              obtain rfl := (same value).mpr rfl
              exact first
          | error exc =>
              cases final with
              | ok value => cases (same value).mp rfl
              | error other => exact first

/-- The second attempt starts from what the first one left. -/
theorem leaves_retry {unicode : Unicode} {roleName : Option Str} {callback : S3Program α}
    {reach : Store → Prop} {post : α → Store → Prop}
    (holds : Leaves conventions callback reach post) :
    Leaves conventions (executeWithS3Retry unicode roleName callback) reach post := by
  intro store reached faults
  have again (left : Store) (here : reach left) (remaining : Nat → Option PyError) :=
    (@leaves_secondAttempt _ _ unicode roleName _ _ _ holds) left here
      fun count => remaining (count + 1)
  cases fault : faults 0 with
  | some exc =>
      unfold S3Program.run executeWithS3Retry
      simp only [Program.run_perform]
      rw [@client_fails _ _ ⟨store, faults⟩ _ fault]
      dsimp only
      split_ifs
      · exact again store reached fun count => faults (count + 1)
      · exact reached
  | none =>
      have first := holds store reached fun count => faults (count + 1)
      cases ran : callback.run conventions ⟨store, fun count => faults (count + 1)⟩ with
      | mk result after =>
          rw [ran] at first
          rcases @run_executeWithS3Retry _ _ unicode roleName _ ⟨store, faults⟩ _ _ fault ran with
            whole | ⟨⟨exc, rfl⟩, whole⟩
          · rw [whole]
            exact first
          · obtain ⟨left, remaining⟩ := after
            rw [whole]
            exact again left first remaining

/-- The retry of an atomic callback is atomic: the attempt that failed had no effect. -/
theorem atomic_retry {unicode : Unicode} {roleName : Option Str} {callback : S3Program α}
    {post : α → Store → Prop} (holds : Atomic conventions callback store post) :
    Atomic conventions (executeWithS3Retry unicode roleName callback) store post := by
  refine @leaves_retry _ _ _ _ _ (· = store) _ ?_ store rfl
  intro other same
  rw [same]
  exact holds

end Failures

section Pages

variable {conventions : Conventions} {store : Store} {params : ListParams}

/-- The objects of a bucket whose keys start with a prefix, in key order. -/
def Store.objectsUnder (store : Store) (bucket searchPrefix : Str) : List S3Object :=
  ((store.objects bucket).entries.filter fun entry =>
    searchPrefix.isPrefixOf entry.1).map storedObject

theorem rollUp_objects (objects : List S3Object) :
    rollUp (objects.map .object) = objects.map .object := by
  induction objects with
  | nil => rfl
  | cons first rest ih =>
      rw [List.map_cons, rollUp, ih, if_neg]
      simp [Listed.group?]

theorem object?_map (objects : List S3Object) :
    (objects.map Listed.object).filterMap Listed.object? = objects := by
  simp [List.filterMap_map, Function.comp_def, Listed.object?]

theorem listing_plain (plain : params.delimiter = none) :
    store.listing params =
      (store.objectsUnder params.bucket params.searchPrefix).map .object := by
  have each : listed params = Listed.object ∘ storedObject := by
    funext entry
    simp only [listed, plain, Function.comp]
  rw [Store.listing, each, Store.objectsUnder, ← List.map_map, rollUp_objects]

theorem objectsUnder_ascending (store : Store) (bucket searchPrefix : Str) :
    Paging.Ascending S3Object.key (store.objectsUnder bucket searchPrefix) :=
  List.pairwise_map.mpr ((store.objects bucket).ascending.filter _)

theorem listing_ascending (plain : params.delimiter = none) :
    Paging.Ascending Listed.name (store.listing params) := by
  rw [listing_plain plain]
  exact List.pairwise_map.mpr (objectsUnder_ascending store params.bucket params.searchPrefix)

theorem mem_objectsUnder {bucket searchPrefix key : Str} :
    key ∈ (store.objectsUnder bucket searchPrefix).map S3Object.key ↔
      searchPrefix <+: key ∧ ∃ stored, store.get? bucket key = some stored := by
  simp only [Store.objectsUnder, List.map_map, List.mem_map, List.mem_filter, Function.comp,
    Store.get?, OrderedMap.get?_eq_some_iff, List.isPrefixOf_iff_prefix]
  constructor
  · intro found
    obtain ⟨entry, ⟨member, under⟩, rfl⟩ := found
    exact ⟨under, entry.2, member⟩
  · intro found
    obtain ⟨under, stored, member⟩ := found
    exact ⟨(key, stored), ⟨member, under⟩, rfl⟩

theorem pageSize_pos (live : params.maxKeys ≠ some 0) : 0 < pageSize params := by
  unfold pageSize
  cases size : params.maxKeys with
  | none => simp
  | some count =>
      have : count ≠ 0 := fun zero => live (by rw [size, zero])
      simp only [Option.getD_some]
      omega

theorem answer_page {lines : List Listed} (remaining : store.remaining conventions params = .ok lines) :
    store.answer conventions (.listObjectsV2 params) =
      (.ok (listPage conventions (pageSize params) lines), store) := by
  simp only [Store.answer, Store.listObjectsV2, remaining]
  rfl

theorem remaining_next {lines : List Listed} {token : Str}
    (ascending : Paging.Ascending Listed.name (store.listing params))
    (remaining : store.remaining conventions params = .ok lines)
    (more : (listPage conventions (pageSize params) lines).nextContinuationToken = some token) :
    store.remaining conventions (params.continueWith token) =
      .ok (lines.drop (pageSize params)) := by
  obtain ⟨mark, next, rfl⟩ := Option.map_eq_some_iff.mp more
  obtain ⟨before, rfl⟩ : ∃ before,
      lines = Paging.after Listed.name (store.listing params) before := by
    unfold Store.remaining at remaining
    split at remaining
    · exact ⟨none, (Except.ok.inj remaining).symm⟩
    · split at remaining
      · cases remaining
      · next mark _ => exact ⟨some mark, (Except.ok.inj remaining).symm⟩
  rw [← Paging.after_nextMark ascending next]
  simp only [Store.remaining, ListParams.continueWith, conventions.mark_token]
  rfl

theorem morePages_listPage {size : Nat} {lines : List Listed} (live : 0 < size) :
    (listPage conventions size lines).morePages = none ↔ lines.length ≤ size := by
  have marked := @Paging.nextMark_isSome _ _ Listed.name size lines live
  cases next : Paging.nextMark Listed.name size lines with
  | none =>
      rw [next] at marked
      have last : ¬ size < lines.length := by simpa using marked.symm
      simp [ListPage.morePages, listPage, last, not_lt.mp last]
  | some mark =>
      rw [next] at marked
      have more : size < lines.length := by simpa using marked.symm
      have shown := conventions.token_nonempty mark
      simp [ListPage.morePages, listPage, more, next, shown]

theorem atomic_list {lines : List Listed}
    (remaining : store.remaining conventions params = .ok lines) :
    Atomic conventions (S3Program.call (.listObjectsV2 params)) store fun page after =>
      after = store ∧ page = listPage conventions (pageSize params) lines := by
  have answered := answer_page remaining
  refine atomic_call (fun exc after ended => ?_) fun page after ended => ?_
  · rw [answered] at ended
    cases ended
  · rw [answered] at ended
    obtain ⟨same, unchanged⟩ := Prod.mk.inj ended
    exact ⟨unchanged.symm, (Except.ok.inj same).symm⟩

theorem token_of_morePages {page : ListPage} {token : Str} (more : page.morePages = some token) :
    page.nextContinuationToken = some token := by
  unfold ListPage.morePages at more
  split at more
  · exact (Option.filter_eq_some_iff.mp more).1
  · cases more

/-- The pages show these lines, each once. -/
structure Shows (replies : List ListPage) (lines : List Listed) : Prop where
  contents : replies.flatMap ListPage.contents = lines.filterMap Listed.object?
  commonPrefixes : replies.flatMap ListPage.commonPrefixes = lines.filterMap Listed.group?

theorem shows_last {lines : List Listed} {size : Nat} (live : 0 < size)
    (last : (listPage conventions size lines).morePages = none) :
    Shows [listPage conventions size lines] lines := by
  have short := (morePages_listPage live).mp last
  constructor <;> simp [listPage, List.take_of_length_le short]

theorem shows_cons {lines : List Listed} {size : Nat} {replies : List ListPage}
    (rest : Shows replies (lines.drop size)) :
    Shows (listPage conventions size lines :: replies) lines := by
  constructor
  · rw [List.flatMap_cons, rest.contents]
    simp only [listPage]
    rw [← List.filterMap_append, List.take_append_drop]
  · rw [List.flatMap_cons, rest.commonPrefixes]
    simp only [listPage]
    rw [← List.filterMap_append, List.take_append_drop]

theorem atomic_paginate {lines : List Listed} (pages : Nat)
    (ascending : Paging.Ascending Listed.name (store.listing params))
    (live : 0 < pageSize params)
    (remaining : store.remaining conventions params = .ok lines) :
    Atomic conventions (paginate pages params) store fun replies after =>
      after = store ∧ Shows replies lines := by
  induction pages generalizing params lines with
  | zero =>
      refine atomic_bind (atomic_list remaining) fun page same => ?_
      subst same
      cases more : (listPage conventions (pageSize params) lines).morePages with
      | none => exact atomic_pure ⟨rfl, shows_last live more⟩
      | some token => exact atomic_error _
  | succ pages ih =>
      refine atomic_bind (atomic_list remaining) fun page same => ?_
      subst same
      cases more : (listPage conventions (pageSize params) lines).morePages with
      | none => exact atomic_pure ⟨rfl, shows_last live more⟩
      | some token =>
          have rest := remaining_next ascending remaining (token_of_morePages more)
          refine atomic_bind (@ih (params.continueWith token) _ ascending live rest)
            fun replies seen => atomic_pure ⟨rfl, shows_cons seen⟩

theorem paginate_last {lines : List Listed} (pages : Nat)
    (remaining : store.remaining conventions params = .ok lines)
    (last : (listPage conventions (pageSize params) lines).morePages = none) :
    Returns conventions (paginate pages params) store
      [listPage conventions (pageSize params) lines] store := by
  cases pages <;>
    · refine returns_bind (returns_call (answer_page remaining)) ?_
      rw [last]
      exact returns_pure _

theorem paginate_returns {lines : List Listed} (pages : Nat)
    (ascending : Paging.Ascending Listed.name (store.listing params))
    (live : 0 < pageSize params)
    (remaining : store.remaining conventions params = .ok lines)
    (enough : lines.length ≤ pages + 1) :
    ∃ replies, Returns conventions (paginate pages params) store replies store ∧
      Shows replies lines := by
  have ended : ∃ replies, Returns conventions (paginate pages params) store replies store := by
    induction pages generalizing params lines with
    | zero => exact ⟨_, paginate_last 0 remaining ((morePages_listPage live).mpr (by omega))⟩
    | succ pages ih =>
        cases more : (listPage conventions (pageSize params) lines).morePages with
        | none => exact ⟨_, paginate_last (pages + 1) remaining more⟩
        | some token =>
            have rest := remaining_next ascending remaining (token_of_morePages more)
            obtain ⟨replies, ran⟩ := @ih (params.continueWith token) _ ascending live rest
              (by rw [List.length_drop]; omega)
            refine ⟨listPage conventions (pageSize params) lines :: replies,
              returns_bind (returns_call (answer_page remaining)) ?_⟩
            rw [more]
            exact returns_bind ran (returns_pure _)
  obtain ⟨replies, ran⟩ := ended
  have seen := atomic_paginate pages ascending live remaining fun _ => none
  have ran' : (paginate pages params).run conventions ⟨store, fun _ => none⟩ =
      (.ok replies, calm store) := ran
  rw [ran'] at seen
  exact ⟨replies, ran, seen.2⟩

end Pages

end S3Manager.Storage
