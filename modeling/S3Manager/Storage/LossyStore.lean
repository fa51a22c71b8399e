import S3Manager.Storage.DeleteTarget

/-! A store that may refuse single keys of a `DeleteObjects` call while it answers the
call itself, with the list of its own answers. -/

set_option autoImplicit false

namespace S3Manager.Storage.Lossy

open Python Library

/-- What S3 did, call by call. -/
inductive S3Event where
  | connected
  | failed
  /-- The cached client is dropped and the callback is run again. -/
  | rebuilt
  | listed (keys : List Str) (more : Bool)
  | deleted (removed refused : List Str)
  | answered
  deriving DecidableEq

/-- An error of S3 or of a client build; none of them is a `FileNotFoundError`. -/
abbrev S3Fault := { exc : PyError // exc.kind ≠ .fileNotFoundError }

/-- The store, the calls that fail, the keys that a call refuses, and the answers so far.
The two schedules are read at the number of answers. -/
structure LossyWorld where
  store : Store
  faults : Nat → Option S3Fault
  refuses : Nat → Str → Bool
  log : List S3Event

namespace LossyWorld

def fault (world : LossyWorld) : Option S3Fault := world.faults world.log.length

def after (world : LossyWorld) (events : List S3Event) (store : Store) : LossyWorld :=
  { world with store, log := world.log ++ events }

@[simp] theorem after_store (world : LossyWorld) (events : List S3Event) (store : Store) :
    (world.after events store).store = store := rfl

@[simp] theorem after_log (world : LossyWorld) (events : List S3Event) (store : Store) :
    (world.after events store).log = world.log ++ events := rfl

@[simp] theorem after_after (world : LossyWorld) (first second : List S3Event)
    (between store : Store) :
    (world.after first between).after second store = world.after (first ++ second) store := by
  simp [after, List.append_assoc]

theorem after_nil (world : LossyWorld) : world.after [] world.store = world := by
  simp [after]

end LossyWorld

section Handler

variable (conventions : Conventions)

/-- The answer of S3 to a call that does not fail, the store it leaves, and what it did. -/
def serve (refuses : Str → Bool) (store : Store) :
    (request : S3Request) → Result request.Answer × Store × S3Event
  | .deleteObjects bucket keys =>
      (.ok (keys.filter refuses), store.eraseAll bucket (keys.filter fun key => !refuses key),
        .deleted (keys.filter fun key => !refuses key) (keys.filter refuses))
  | .deleteObject bucket key => (.ok (), store.eraseAll bucket [key], .deleted [key] [])
  | .listObjectsV2 params =>
      match store.listObjectsV2 conventions params with
      | .ok page =>
          (.ok page, store, .listed (page.contents.map S3Object.key) page.morePages.isSome)
      | .error exc => (.error exc, store, .failed)
  | request =>
      let served := store.answer conventions request
      (served.1, served.2, .answered)

def respond : (effect : Effect) → LossyWorld → effect.Reply × LossyWorld
  | .getClient _, world =>
      match world.fault with
      | some fault => (.error fault.1, world.after [.failed] world.store)
      | none => (.ok (), world.after [.connected] world.store)
  | .invalidateClient _, world => ((), world.after [.rebuilt] world.store)
  | .s3 request, world =>
      match world.fault with
      | some fault => (.error fault.1, world.after [.failed] world.store)
      | none =>
          let served := serve conventions (world.refuses world.log.length) world.store request
          (served.1, world.after [served.2.2] served.2.1)

end Handler

section Runs

variable {α β : Type} {conventions : Conventions} {world : LossyWorld} {events more : List S3Event}
  {between store : Store} {exc : PyError}

/-- The program ends with this result and this store, and these are the answers to it. -/
def Ran (conventions : Conventions) (program : S3Program α) (world : LossyWorld)
    (result : Result α) (events : List S3Event) (store : Store) : Prop :=
  Program.run (respond conventions) program world = (result, world.after events store)

theorem ran_ofResult (result : Result α) :
    Ran conventions (S3Program.ofResult result) world result [] world.store := by
  rw [Ran, world.after_nil]
  rfl

theorem ran_bind_ok {program : S3Program α} {next : α → S3Program β} {value : α}
    {result : Result β} (first : Ran conventions program world (.ok value) events between)
    (second : Ran conventions (next value) (world.after events between) result more store) :
    Ran conventions (program >>= next) world result (events ++ more) store := by
  refine (Program.run_bind program _ world).trans ?_
  have ran : Program.run (respond conventions) program world =
      (.ok value, world.after events between) := first
  rw [ran, ← LossyWorld.after_after]
  exact second

theorem ran_bind_error {program : S3Program α} {next : α → S3Program β}
    (first : Ran conventions program world (.error exc) events store) :
    Ran conventions (program >>= next) world (.error exc) events store := by
  refine (Program.run_bind program _ world).trans ?_
  have ran : Program.run (respond conventions) program world =
      (.error exc, world.after events store) := first
  rw [ran]
  rfl

/-- What follows asks nothing of S3 any more. -/
theorem ran_bind_result {program : S3Program α} {next : α → S3Program β} {value : α}
    {result : Result β} (first : Ran conventions program world (.ok value) events store)
    (ends : next value = S3Program.ofResult result) :
    Ran conventions (program >>= next) world result events store := by
  have second : Ran conventions (next value) (world.after events store) result [] store := by
    rw [ends]
    exact ran_ofResult result
  have whole := ran_bind_ok first second
  rwa [List.append_nil] at whole

theorem ran_fails {request : S3Request} {fault : S3Fault} (failing : world.fault = some fault) :
    Ran conventions (S3Program.call request) world (.error fault.1) [.failed] world.store := by
  change respond conventions (.s3 request) world = _
  simp only [respond, failing]
  rfl

theorem ran_serves {request : S3Request} {answer : Result request.Answer} {event : S3Event}
    (calm : world.fault = none)
    (served : serve conventions (world.refuses world.log.length) world.store request =
      (answer, store, event)) :
    Ran conventions (S3Program.call request) world answer [event] store := by
  change respond conventions (.s3 request) world = _
  simp only [respond, calm, served]
  rfl

end Runs

section Keys

def removedKeys (events : List S3Event) : List Str :=
  events.flatMap fun
    | .deleted removed _ => removed
    | _ => []

def refusedKeys (events : List S3Event) : List Str :=
  events.flatMap fun
    | .deleted _ refused => refused
    | _ => []

theorem removedKeys_append (first second : List S3Event) :
    removedKeys (first ++ second) = removedKeys first ++ removedKeys second :=
  List.flatMap_append

theorem refusedKeys_append (first second : List S3Event) :
    refusedKeys (first ++ second) = refusedKeys first ++ refusedKeys second :=
  List.flatMap_append

/-- Listings and errors: nothing is deleted, and the callback is not run again. -/
def Reading (events : List S3Event) : Prop :=
  ∀ event ∈ events, event = .failed ∨ ∃ keys more, event = .listed keys more

variable {events : List S3Event}

theorem Reading.removed (reading : Reading events) : removedKeys events = [] := by
  refine List.flatMap_eq_nil_iff.mpr fun event member => ?_
  obtain rfl | ⟨keys, more, rfl⟩ := reading event member
  · rfl
  · rfl

theorem Reading.refused (reading : Reading events) : refusedKeys events = [] := by
  refine List.flatMap_eq_nil_iff.mpr fun event member => ?_
  obtain rfl | ⟨keys, more, rfl⟩ := reading event member
  · rfl
  · rfl

theorem Reading.kept (reading : Reading events) : S3Event.rebuilt ∉ events := by
  intro member
  obtain impossible | ⟨keys, more, impossible⟩ := reading _ member
  · cases impossible
  · cases impossible

end Keys

section Pages

variable {conventions : Conventions} {world : LossyWorld} {params : ListParams}

/-- How a listing of these objects ends. -/
structure Paged (objects : List S3Object) (events : List S3Event)
    (result : Result (List ListPage)) : Prop where
  reading : Reading events
  shown : ∀ replies, result = .ok replies → Shows replies (objects.map .object)
  empty : ∀ replies, result = .ok replies → objects = [] →
    events.getLast? = some (.listed [] false)
  failing : ∀ exc, result = .error exc → exc.kind ≠ .fileNotFoundError ∧
    (events.getLast? = some .failed ∨ ∃ keys, events.getLast? = some (.listed keys true))

theorem ran_page {objects : List S3Object} (calm : world.fault = none)
    (remaining : world.store.remaining conventions params = .ok (objects.map .object)) :
    Ran conventions (S3Program.call (.listObjectsV2 params)) world
      (.ok (listPage conventions (pageSize params) (objects.map .object)))
      [.listed ((objects.take (pageSize params)).map S3Object.key)
        (listPage conventions (pageSize params) (objects.map .object)).morePages.isSome]
      world.store := by
  refine ran_serves calm ?_
  have answered : world.store.listObjectsV2 conventions params =
      .ok (listPage conventions (pageSize params) (objects.map .object)) := by
    simp only [Store.listObjectsV2, remaining]
    rfl
  have contents : (listPage conventions (pageSize params) (objects.map .object)).contents =
      objects.take (pageSize params) := by
    rw [listPage, ← List.map_take, object?_map]
  simp only [serve, answered, contents]

theorem paged_failed {objects : List S3Object} (fault : S3Fault) :
    Paged objects [.failed] (.error fault.1) where
  reading event member := .inl (List.mem_singleton.mp member)
  shown _ claim := by cases claim
  empty _ claim := by cases claim
  failing exc raised := by
    obtain rfl := Except.error.inj raised
    exact ⟨fault.2, .inl rfl⟩

theorem reading_page (keys : List Str) (more : Bool) : Reading [.listed keys more] :=
  fun _ member => .inr ⟨keys, more, List.mem_singleton.mp member⟩

theorem Reading.cons {events : List S3Event} (keys : List Str) (more : Bool)
    (rest : Reading events) : Reading (.listed keys more :: events) := by
  intro event member
  obtain same | later := List.mem_cons.mp member
  · exact .inr ⟨keys, more, same⟩
  · exact rest event later

theorem getLast?_cons_of_some {α : Type} {first last : α} {rest : List α}
    (ends : rest.getLast? = some last) : (first :: rest).getLast? = some last := by
  rw [List.getLast?_cons, ends]
  rfl

/-- A listing that ends with its first page. -/
theorem paged_last {objects : List S3Object} {size : Nat} (live : 0 < size)
    (last : (listPage conventions size (objects.map .object)).morePages = none) :
    Paged objects [.listed ((objects.take size).map S3Object.key) false]
      (.ok [listPage conventions size (objects.map .object)]) where
  reading := reading_page _ _
  shown replies same := by
    obtain rfl := Except.ok.inj same
    exact shows_last live last
  empty _ _ none := by
    subst none
    simp
  failing _ claim := by cases claim

/-- More pages than the model takes steps for. -/
theorem paged_unfinished {objects : List S3Object} (keys : List Str) :
    Paged objects [.listed keys true] (.error (.raised .outOfPages [] none)) where
  reading := reading_page _ _
  shown _ claim := by cases claim
  empty _ claim := by cases claim
  failing exc raised := by
    obtain rfl := Except.error.inj raised
    exact ⟨nofun, .inr ⟨keys, rfl⟩⟩

/-- A first page with more behind it. -/
theorem paged_cons {objects : List S3Object} {size : Nat} {events : List S3Event}
    {result : Result (List ListPage)} {token : Str} (live : 0 < size)
    (more : (listPage conventions size (objects.map .object)).morePages = some token)
    (rest : Paged (objects.drop size) events result) :
    Paged objects (.listed ((objects.take size).map S3Object.key) true :: events)
      (result.map (listPage conventions size (objects.map .object) :: ·)) where
  reading := rest.reading.cons _ _
  shown replies same := by
    cases result with
    | error exc => cases same
    | ok tail =>
        obtain rfl := Except.ok.inj same
        refine shows_cons ?_
        rw [← List.map_drop]
        exact rest.shown tail rfl
  empty replies same none := by
    -- A page of an empty listing is its last one.
    subst none
    have last := (@morePages_listPage conventions size [] live).mpr (Nat.zero_le _)
    rw [List.map_nil, last] at more
    cases more
  failing exc same := by
    cases result with
    | ok tail => cases same
    | error raised =>
        obtain rfl := Except.error.inj same
        obtain ⟨genuine, failed | ⟨keys, listed⟩⟩ := rest.failing _ rfl
        · exact ⟨genuine, .inl (getLast?_cons_of_some failed)⟩
        · exact ⟨genuine, .inr ⟨keys, getLast?_cons_of_some listed⟩⟩

theorem paginate_ran {objects : List S3Object} (pages : Nat)
    (ascending : Paging.Ascending Listed.name (world.store.listing params))
    (live : 0 < pageSize params)
    (remaining : world.store.remaining conventions params = .ok (objects.map .object)) :
    ∃ result events, Ran conventions (paginate pages params) world result events world.store ∧
      Paged objects events result := by
  induction pages generalizing world params objects with
  | zero =>
      cases failing : world.fault with
      | some fault => exact ⟨_, _, ran_bind_error (ran_fails failing), paged_failed fault⟩
      | none =>
          have first := ran_page failing remaining
          cases more : (listPage conventions (pageSize params) (objects.map .object)).morePages with
          | none =>
              rw [more] at first
              refine ⟨_, _, ran_bind_result first ?_, paged_last live more⟩
              rw [more]
              rfl
          | some token =>
              rw [more] at first
              refine ⟨_, _, ran_bind_result first ?_, paged_unfinished _⟩
              rw [more]
              rfl
  | succ pages ih =>
      cases failing : world.fault with
      | some fault => exact ⟨_, _, ran_bind_error (ran_fails failing), paged_failed fault⟩
      | none =>
          have first := ran_page failing remaining
          cases more : (listPage conventions (pageSize params) (objects.map .object)).morePages with
          | none =>
              rw [more] at first
              refine ⟨_, _, ran_bind_result first ?_, paged_last live more⟩
              rw [more]
              rfl
          | some token =>
              rw [more] at first
              have next := remaining_next ascending remaining (token_of_morePages more)
              rw [← List.map_drop] at next
              obtain ⟨result, events, ran, paged⟩ := @ih
                (world.after [.listed ((objects.take (pageSize params)).map S3Object.key) true]
                  world.store) (params.continueWith token) _ ascending live next
              refine ⟨_, _, ran_bind_ok first ?_, paged_cons live more paged⟩
              rw [more]
              cases result with
              | error exc => exact ran_bind_error ran
              | ok replies => exact ran_bind_result ran rfl

end Pages

end S3Manager.Storage.Lossy
