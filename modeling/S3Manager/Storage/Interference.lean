import S3Manager.Library.Interference
import S3Manager.Storage.Confinement
import S3Manager.Storage.HelperRequests

/-! Storage operations while other clients use the store. The others may do anything that
keeps `kept`; calls may fail at any time. -/

set_option autoImplicit false

namespace S3Manager.Storage

open Python Library

section Model

variable {α : Type} (conventions : Conventions) (kept : Store → Prop)

/-- The others leave `kept` as true as they find it. -/
def Keeping (world later : World) : Prop :=
  kept world.store → kept later.store

/-- Where `pre` holds, the operation ends in a value and a store that satisfy `post`, or in an
error and a store that satisfies `failed`, if it ends. -/
def Triple (pre : Store → Prop) (program : S3Program α) (post : α → Store → Prop)
    (failed : Store → Prop) : Prop :=
  ∀ world, pre world.store → Program.Relies (handle conventions) (Keeping kept)
    (fun result final =>
      match result with
      | .ok value => post value final.store
      | .error _ => failed final.store) program world

/-- What the others cannot make false. -/
def Stable (pre : Store → Prop) : Prop :=
  ∀ store later, (kept store → kept later) → pre store → pre later

end Model

section Rules

variable {α β : Type} {conventions : Conventions} {kept pre failed : Store → Prop}

theorem keeping_refl (world : World) : Keeping kept world world := id

theorem keeping_trans (first second third : World) (left : Keeping kept first second)
    (right : Keeping kept second third) : Keeping kept first third := right ∘ left

theorem stable_kept : Stable kept kept := fun _ _ keeps => keeps

theorem stable_true : Stable kept fun _ => True := fun _ _ _ => id

theorem triple_ofResult {result : Result α} {post : α → Store → Prop} (stable : Stable kept pre)
    (holds : ∀ value, result = .ok value → ∀ store, pre store → post value store) :
    Triple conventions kept pre (S3Program.ofResult result) post pre := by
  intro world start later moved
  have here := stable _ _ moved start
  cases result with
  | ok value => exact holds value rfl _ here
  | error exc => exact here

theorem triple_pure {value : α} {post : α → Store → Prop} (stable : Stable kept pre)
    (holds : ∀ store, pre store → post value store) :
    Triple conventions kept pre (pure value : S3Program α) post pre := by
  refine triple_ofResult stable ?_
  rintro _ same store start
  obtain rfl := Except.ok.inj same
  exact holds store start

theorem triple_raise {kind : ErrorKind} {message : Str} {post : α → Store → Prop}
    (stable : Stable kept pre) :
    Triple conventions kept pre (S3Program.raise kind message : S3Program α) post pre :=
  triple_ofResult stable fun _ same => by cases same

theorem triple_bind {program : S3Program α} {next : α → S3Program β} {between : α → Store → Prop}
    {post : β → Store → Prop} (settled : Stable kept failed)
    (first : Triple conventions kept pre program between failed)
    (second : ∀ value, Triple conventions kept (between value) (next value) post failed) :
    Triple conventions kept pre (program >>= next) post failed := by
  intro world start
  refine Program.relies_bind keeping_refl (first world start) fun result later ended => ?_
  cases result with
  | ok value => exact second value later ended
  | error exc => exact fun final moved => settled _ _ moved ended

theorem triple_post {program : S3Program α} {strong weak : α → Store → Prop}
    (holds : Triple conventions kept pre program strong failed)
    (implies : ∀ value store, strong value store → weak value store) :
    Triple conventions kept pre program weak failed := by
  intro world start
  refine Program.relies_mono (holds world start) fun result later ended => ?_
  cases result with
  | ok value => exact implies value _ ended
  | error exc => exact ended

theorem triple_failed {settled : Store → Prop} {program : S3Program α} {post : α → Store → Prop}
    (holds : Triple conventions kept pre program post failed)
    (implies : ∀ store, failed store → settled store) :
    Triple conventions kept pre program post settled := by
  intro world start
  refine Program.relies_mono (holds world start) fun result later ended => ?_
  cases result with
  | ok value => exact ended
  | error exc => exact implies _ ended

theorem triple_or {other : Store → Prop} {program : S3Program α} {post : α → Store → Prop}
    (first : Triple conventions kept pre program post failed)
    (second : Triple conventions kept other program post failed) :
    Triple conventions kept (fun store => pre store ∨ other store) program post failed :=
  fun world start => start.elim (first world) (second world)

/-- What is known beside the store. -/
theorem triple_fact {fact : Prop} {program : S3Program α} {post : α → Store → Prop}
    (holds : fact → Triple conventions kept pre program post failed) :
    Triple conventions kept (fun store => pre store ∧ fact) program post failed :=
  fun world start => holds start.2 world start.1

theorem stable_fact {fact : Prop} (stable : Stable kept pre) :
    Stable kept fun store => pre store ∧ fact :=
  fun _ _ keeps here => ⟨stable _ _ keeps here.1, here.2⟩

theorem stable_or {other : Store → Prop} (first : Stable kept pre) (second : Stable kept other) :
    Stable kept fun store => pre store ∨ other store :=
  fun _ _ keeps here => here.imp (first _ _ keeps) (second _ _ keeps)

/-- After a check, only what passes it matters. -/
theorem triple_check {check : Result α} {next : α → S3Program β} {post : β → Store → Prop}
    (stable : Stable kept pre)
    (later : ∀ value, check = .ok value → Triple conventions kept pre (next value) post pre) :
    Triple conventions kept pre (S3Program.ofResult check >>= next) post pre := by
  cases check with
  | ok value => exact later value rfl
  | error exc => exact triple_ofResult stable fun _ same => by cases same

theorem triple_mapError {program : S3Program α} {translate : PyError → PyError}
    {post : α → Store → Prop} (posts : ∀ value, Stable kept (post value))
    (settled : Stable kept failed)
    (holds : Triple conventions kept pre program post failed) :
    Triple conventions kept pre (program.mapError translate) post failed := by
  intro world start
  refine Program.relies_bind keeping_refl (holds world start) fun result later ended => ?_
  cases result with
  | ok value => exact fun final moved => posts value _ _ moved ended
  | error exc => exact fun final moved => settled _ _ moved ended

/-- One call. The others may interfere before it, and again before its answer is used. -/
theorem triple_call {request : S3Request} {post : request.Answer → Store → Prop}
    (stable : Stable kept pre) (posts : ∀ answer, Stable kept (post answer))
    (holds : ∀ store : Store, pre store → match (store.answer conventions request).1 with
      | .ok answer => post answer (store.answer conventions request).2
      | .error _ => pre (store.answer conventions request).2) :
    Triple conventions kept pre (S3Program.call request) post pre := by
  intro world start later moved final ended
  have here := stable _ _ moved start
  have met : match (handle conventions (.s3 request) later).1 with
      | .ok answer => post answer (handle conventions (.s3 request) later).2.store
      | .error _ => pre (handle conventions (.s3 request) later).2.store := by
    cases fault : later.faults 0 with
    | some exc =>
        rw [handle_fails fault]
        exact here
    | none =>
        rw [handle_answers fault]
        exact holds later.store here
  revert ended met
  generalize handle conventions (.s3 request) later = handled
  intro ended met
  obtain ⟨reply, left⟩ := handled
  cases reply with
  | ok answer => exact posts answer _ _ ended met
  | error exc => exact stable _ _ ended met

/-- A call that only reads. -/
theorem triple_read {request : S3Request} {post : request.Answer → Store → Prop}
    (stable : Stable kept pre) (posts : ∀ answer, Stable kept (post answer))
    (reads : ∀ store : Store, (store.answer conventions request).2 = store)
    (holds : ∀ (store : Store) answer, pre store →
      (store.answer conventions request).1 = .ok answer → post answer store) :
    Triple conventions kept pre (S3Program.call request) post pre := by
  refine triple_call stable posts fun store here => ?_
  rw [reads]
  cases answered : (store.answer conventions request).1 with
  | ok answer => exact holds store answer here answered
  | error exc => exact here

/-- What every permitted request keeps, and the others too, is never lost. -/
theorem triple_of_makes {permitted : S3Request → Prop} {program : S3Program α}
    (stable : Stable kept pre)
    (keeps : ∀ (request : S3Request) (store : Store), permitted request → pre store →
      pre (store.answer conventions request).2)
    (makes : Makes permitted program) :
    Triple conventions kept pre program (fun _ => pre) pre := by
  intro world start
  induction program generalizing world with
  | pure result =>
      intro later moved
      have here := stable _ _ moved start
      cases result with
      | ok value => exact here
      | error exc => exact here
  | perform effect next ih =>
      intro later moved
      obtain ⟨allowed, onward⟩ := makes
      obtain ⟨valid, still⟩ := @handle_step conventions permitted
        (fun held left => pre held → pre left) (fun _ => id) keeps effect later allowed
      exact ih _ (onward _ valid) _ (still (stable _ _ moved start))

theorem triple_true (program : S3Program α) :
    Triple conventions kept (fun _ => True) program (fun _ _ => True) fun _ => True := by
  intro world _
  induction program generalizing world with
  | pure result =>
      intro later _
      cases result with
      | ok value => exact trivial
      | error exc => exact trivial
  | perform effect next ih => exact fun later _ => ih _ _

theorem relies_client {effect : Effect} {next : effect.Reply → S3Program α} {post : α → Store → Prop}
    (same : ∀ world, (handle conventions effect world).2.store = world.store)
    (stable : Stable kept pre)
    (rest : ∀ reply, Triple conventions kept pre (next reply) post failed) :
    Triple conventions kept pre (.perform effect next : S3Program α) post failed := by
  intro world start later moved
  refine rest _ _ ?_
  rw [same]
  exact stable _ _ moved start

theorem triple_attempt {callback : S3Program α} {next : Result α → S3Program β}
    {between : α → Store → Prop} {post : β → Store → Prop}
    (holds : Triple conventions kept pre callback between failed)
    (ended : ∀ value, Triple conventions kept (between value) (next (.ok value)) post failed)
    (again : ∀ exc, Triple conventions kept failed (next (.error exc)) post failed) :
    Triple conventions kept pre (Program.bind callback next) post failed := by
  intro world start
  refine Program.relies_bind keeping_refl (holds world start) fun result later met => ?_
  cases result with
  | ok value => exact ended value later met
  | error exc => exact again exc later met

/-- The retry of an operation that leaves things as they were when it fails. -/
theorem triple_retry {unicode : Unicode} {roleName : Option Str} {callback : S3Program α}
    {post : α → Store → Prop} (stable : Stable kept pre) (posts : ∀ value, Stable kept (post value))
    (holds : Triple conventions kept pre callback post pre) :
    Triple conventions kept pre (executeWithS3Retry unicode roleName callback) post pre := by
  have fails (exc : PyError) :
      Triple conventions kept pre (S3Program.ofResult (.error exc) : S3Program α) post pre :=
    triple_ofResult stable fun _ same => by cases same
  have returns (value : α) :
      Triple conventions kept (post value) (S3Program.ofResult (.ok value)) post pre := by
    intro world ended later moved
    exact posts value _ _ moved ended
  have client (name : Option Str) (world : World) :
      (handle conventions (.getClient name) world).2.store = world.store := by
    simp only [handle]
    split <;> rfl
  have second : Triple conventions kept pre (secondAttempt unicode roleName callback) post pre := by
    refine relies_client (client roleName) stable fun reply => ?_
    cases reply with
    | error exc => exact fails exc
    | ok _ =>
        refine triple_attempt holds returns fun exc => ?_
        dsimp only
        split_ifs <;> exact fails _
  have again : Triple conventions kept pre
      (.perform (.invalidateClient roleName) fun _ => secondAttempt unicode roleName callback)
      post pre := relies_client (fun _ => rfl) stable fun _ => second
  refine relies_client (client roleName) stable fun reply => ?_
  cases reply with
  | error exc =>
      dsimp only
      split_ifs
      · exact again
      · exact fails exc
  | ok _ =>
      refine triple_attempt holds returns fun exc => ?_
      dsimp only
      split_ifs
      · exact fails exc
      · exact again
      · exact fails exc

end Rules

section Beside

variable {α β Client : Type} [DecidableEq Client] {conventions : Conventions}
  {kept pre failed : Store → Prop} {program : S3Program α} {post : α → Store → Prop}
  {others : Client → Program Effect.Reply β} {world : World} {schedule : List (Option Client)}

/-- What an operation promises under interference it keeps beside any other clients. -/
theorem beside_ends {value : α} (holds : Triple conventions kept pre program post failed)
    (start : pre world.store)
    (interferes : (Pool.beside world program others).Interferes (handle conventions) (Keeping kept)
      none schedule)
    (ended : ((Pool.beside world program others).run (handle conventions) schedule).programs none =
      .pure (.ok value)) :
    post value ((Pool.beside world program others).run (handle conventions) schedule).world.store := by
  have promised := Pool.run_relies keeping_refl keeping_trans schedule (holds world start) interferes
  rw [ended] at promised
  exact promised _ (keeping_refl _)

end Beside

end S3Manager.Storage
