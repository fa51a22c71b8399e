import Mathlib.Data.List.Basic

/-! Programs over typed requests. A program performs requests one by one and
continues with whatever its environment replies; the environment itself is a
handler chosen later. `wp` is the weakest precondition of a program when every
request has to be permitted and every reply is faithful to its request. -/

set_option autoImplicit false

namespace S3Manager.Library

inductive Program {Request : Type} (Reply : Request → Type) (α : Type) : Type where
  | pure : α → Program Reply α
  | perform (request : Request) : (Reply request → Program Reply α) → Program Reply α

namespace Program

section Laws

variable {Request : Type} {Reply : Request → Type} {α β γ : Type}

def bind (program : Program Reply α) (next : α → Program Reply β) : Program Reply β :=
  match program with
  | .pure value => next value
  | .perform request rest => .perform request fun reply => (rest reply).bind next

instance : Monad (Program Reply) where
  pure := Program.pure
  bind := Program.bind

/-- The program that performs one request and returns its reply. -/
def request (r : Request) : Program Reply (Reply r) :=
  .perform r .pure

@[simp] theorem pure_bind (value : α) (next : α → Program Reply β) :
    (Program.pure value).bind next = next value := rfl

@[simp] theorem perform_bind (r : Request) (rest : Reply r → Program Reply α)
    (next : α → Program Reply β) :
    (Program.perform r rest).bind next = .perform r fun reply => (rest reply).bind next := rfl

end Laws

section WeakestPrecondition

variable {Request : Type} {Reply : Request → Type} {α β : Type}
  (permitted : Request → Prop) (faithful : (r : Request) → Reply r → Prop)

/-- Every request on the way is permitted and every result satisfies `post`,
whatever faithful replies the environment gives. -/
def wp (post : α → Prop) : Program Reply α → Prop
  | .pure value => post value
  | .perform r next => permitted r ∧ ∀ reply, faithful r reply → (next reply).wp post

@[simp] theorem wp_pure (post : α → Prop) (value : α) :
    (Program.pure value : Program Reply α).wp permitted faithful post ↔ post value := Iff.rfl

@[simp] theorem wp_perform (post : α → Prop) (r : Request) (next : Reply r → Program Reply α) :
    (Program.perform r next).wp permitted faithful post ↔
      permitted r ∧ ∀ reply, faithful r reply → (next reply).wp permitted faithful post := Iff.rfl

theorem wp_bind (post : β → Prop) (program : Program Reply α) (next : α → Program Reply β) :
    (program.bind next).wp permitted faithful post ↔
      program.wp permitted faithful fun value => (next value).wp permitted faithful post := by
  induction program with
  | pure value => rfl
  | perform r rest ih => simp only [perform_bind, wp_perform, ih]

variable {permitted faithful}

theorem wp_mono {first second : α → Prop} {program : Program Reply α}
    (holds : program.wp permitted faithful first) (weaker : ∀ value, first value → second value) :
    program.wp permitted faithful second := by
  induction program with
  | pure value => exact weaker value holds
  | perform r rest ih =>
      exact ⟨holds.1, fun reply valid => ih reply (holds.2 reply valid)⟩

end WeakestPrecondition

section Run

variable {Request : Type} {Reply : Request → Type} {World : Type} {α β : Type}

/-- Run a program against an environment that answers from, and may change, a world. -/
def run (handler : (r : Request) → World → Reply r × World) :
    Program Reply α → World → α × World
  | .pure value, world => (value, world)
  | .perform r next, world => (next (handler r world).1).run handler (handler r world).2

variable {handler : (r : Request) → World → Reply r × World}

@[simp] theorem run_pure (value : α) (world : World) :
    (Program.pure value : Program Reply α).run handler world = (value, world) := rfl

@[simp] theorem run_perform (r : Request) (next : Reply r → Program Reply α) (world : World) :
    (Program.perform r next).run handler world =
      (next (handler r world).1).run handler (handler r world).2 := rfl

theorem run_bind (program : Program Reply α) (next : α → Program Reply β) (world : World) :
    (program.bind next).run handler world =
      (next (program.run handler world).1).run handler (program.run handler world).2 := by
  induction program generalizing world with
  | pure value => rfl
  | perform r rest ih => exact ih _ _

/-- A world invariant that every permitted request keeps, and under which every
reply is faithful, holds when the program ends, together with its postcondition. -/
theorem run_of_wp {permitted : Request → Prop} {faithful : (r : Request) → Reply r → Prop}
    {invariant : World → Prop}
    (step : ∀ r world, permitted r → invariant world →
      faithful r (handler r world).1 ∧ invariant (handler r world).2)
    {post : α → Prop} {program : Program Reply α}
    (holds : program.wp permitted faithful post) {world : World} (start : invariant world) :
    post (program.run handler world).1 ∧ invariant (program.run handler world).2 := by
  induction program generalizing world with
  | pure value => exact ⟨holds, start⟩
  | perform r rest ih =>
      obtain ⟨valid, kept⟩ := step r world holds.1 start
      exact ih _ (holds.2 _ valid) kept

end Run

section Traces

variable {Request : Type} {Reply : Request → Type} {World Event : Type} {α β : Type}
  (handler : (r : Request) → World → Reply r × World)
  (note : (r : Request) → Reply r → World → List Event)

/-- The events of a run: what is noted of each request, its reply and the world it meets. -/
def trace : Program Reply α → World → List Event
  | .pure _, _ => []
  | .perform r next, world =>
      note r (handler r world).1 world ++
        (next (handler r world).1).trace (handler r world).2

/-- Whatever world a run starts in, its result and its events satisfy `post`. -/
def Traces (post : α → List Event → Prop) (program : Program Reply α) : Prop :=
  ∀ world, post (program.run handler world).1 (program.trace handler note world)

variable {handler note}

theorem trace_bind (program : Program Reply α) (next : α → Program Reply β) (world : World) :
    (program.bind next).trace handler note world =
      program.trace handler note world ++
        (next (program.run handler world).1).trace handler note (program.run handler world).2 := by
  induction program generalizing world with
  | pure value => rfl
  | perform r rest ih =>
      rw [perform_bind, trace, ih, trace, run_perform, List.append_assoc]

theorem traces_mono {first second : α → List Event → Prop} {program : Program Reply α}
    (holds : program.Traces handler note first)
    (weaker : ∀ value events, first value events → second value events) :
    program.Traces handler note second :=
  fun world => weaker _ _ (holds world)

theorem traces_bind {between : α → List Event → Prop} {post : β → List Event → Prop}
    {program : Program Reply α} {next : α → Program Reply β}
    (first : program.Traces handler note between)
    (second : ∀ value events, between value events →
      (next value).Traces handler note fun result later => post result (events ++ later)) :
    (program.bind next).Traces handler note post := by
  intro world
  rw [run_bind, trace_bind]
  exact second _ _ (first world) _

/-- Notes that are a part of other notes make a part of the other trace. -/
theorem trace_filter {less : (r : Request) → Reply r → World → List Event} {keeps : Event → Bool}
    (part : ∀ r reply world, (note r reply world).filter keeps = less r reply world)
    (program : Program Reply α) (world : World) :
    (program.trace handler note world).filter keeps = program.trace handler less world := by
  induction program generalizing world with
  | pure value => rfl
  | perform r rest ih => rw [trace, List.filter_append, part, ih, trace]

/-- Nothing is noted of the request. -/
theorem traces_silent {post : α → List Event → Prop} {r : Request}
    {next : Reply r → Program Reply α} (silent : ∀ reply world, note r reply world = [])
    (rest : ∀ reply, (next reply).Traces handler note post) :
    (Program.perform r next).Traces handler note post := by
  intro world
  rw [run_perform, trace, silent]
  exact rest _ _

end Traces

section Phases

variable {Request : Type} {Reply : Request → Type} {World Phase : Type} {α β : Type}
  (advance : (r : Request) → Reply r → Phase → Phase)

/-- Whatever the environment replies, the result satisfies `post` in the phase that
the replies have led to. -/
def ends (post : Phase → α → Prop) : Phase → Program Reply α → Prop
  | phase, .pure value => post phase value
  | phase, .perform r next => ∀ reply, (next reply).ends post (advance r reply phase)

/-- The phase in which a run ends. -/
def phaseAfter (handler : (r : Request) → World → Reply r × World) :
    Program Reply α → World → Phase → Phase
  | .pure _, _, phase => phase
  | .perform r next, world, phase =>
      (next (handler r world).1).phaseAfter handler (handler r world).2
        (advance r (handler r world).1 phase)

variable {advance}

theorem ends_mono {first second : Phase → α → Prop} {program : Program Reply α} {phase : Phase}
    (holds : program.ends advance first phase)
    (weaker : ∀ phase value, first phase value → second phase value) :
    program.ends advance second phase := by
  induction program generalizing phase with
  | pure value => exact weaker phase value holds
  | perform r rest ih => exact fun reply => ih reply (holds reply)

theorem ends_bind {between : Phase → α → Prop} {post : Phase → β → Prop}
    {program : Program Reply α} {next : α → Program Reply β} {phase : Phase}
    (first : program.ends advance between phase)
    (second : ∀ phase value, between phase value → (next value).ends advance post phase) :
    (program.bind next).ends advance post phase := by
  induction program generalizing phase with
  | pure value => exact second phase value first
  | perform r rest ih => exact fun reply => ih reply (first reply)

theorem ends_run {post : Phase → α → Prop} {program : Program Reply α} {phase : Phase}
    (handler : (r : Request) → World → Reply r × World) (world : World)
    (holds : program.ends advance post phase) :
    post (program.phaseAfter advance handler world phase) (program.run handler world).1 := by
  induction program generalizing world phase with
  | pure value => exact holds
  | perform r rest ih => exact ih _ _ (holds _)

end Phases

end Program

end S3Manager.Library
