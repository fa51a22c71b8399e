import Mathlib.Logic.Function.Basic
import S3Manager.Library.Program

/-! Programs that run side by side. A schedule says whose request comes next, and the
requests are answered one by one from a shared world. -/

set_option autoImplicit false

namespace S3Manager.Library

namespace Program

section Confinement

variable {Request : Type} {Reply : Request → Type} {World : Type} {α β : Type}
  (handler : (r : Request) → World → Reply r × World) (alike keeps : World → World → Prop)

/-- Every request changes the world only as `keeps` allows, and the program cannot tell
apart worlds that are alike: it goes on in the same way and leaves them alike. -/
def Confined : Program Reply α → Prop
  | .pure _ => True
  | .perform r next =>
      (∀ world, keeps world (handler r world).2 ∧ (next (handler r world).1).Confined) ∧
        ∀ first second, alike first second →
          next (handler r first).1 = next (handler r second).1 ∧
            alike (handler r first).2 (handler r second).2

variable {handler alike keeps}

theorem confined_bind {program : Program Reply α} {next : α → Program Reply β}
    (first : program.Confined handler alike keeps)
    (later : ∀ value, (next value).Confined handler alike keeps) :
    (program.bind next).Confined handler alike keeps := by
  induction program with
  | pure value => exact later value
  | perform r rest ih =>
      obtain ⟨kept, same⟩ := first
      refine ⟨fun world => ⟨(kept world).1, ih _ (kept world).2⟩, fun left right related => ?_⟩
      obtain ⟨goesOn, left_alike⟩ := same left right related
      exact ⟨congrArg (·.bind next) goesOn, left_alike⟩

/-- A program that is confined keeps what it keeps in any one world, too. -/
theorem confined_weaken {weaker : World → World → Prop} {program : Program Reply α}
    (confined : program.Confined handler alike keeps)
    (implies : ∀ world later, keeps world later → weaker world later) :
    program.Confined handler Eq weaker := by
  induction program with
  | pure value => exact trivial
  | perform r rest ih =>
      refine ⟨fun world => ?_, ?_⟩
      · obtain ⟨kept, onward⟩ := confined.1 world
        exact ⟨implies _ _ kept, ih _ onward⟩
      · rintro world _ rfl
        exact ⟨rfl, rfl⟩

/-- It is enough that every permitted request is answered alike in worlds that are alike. -/
theorem confined_of_wp {permitted : Request → Prop} {faithful : (r : Request) → Reply r → Prop}
    (keep : ∀ r world, permitted r →
      faithful r (handler r world).1 ∧ keeps world (handler r world).2)
    (blind : ∀ r first second, permitted r → alike first second →
      (handler r first).1 = (handler r second).1 ∧ alike (handler r first).2 (handler r second).2)
    {post : α → Prop} {program : Program Reply α}
    (holds : program.wp permitted faithful post) : program.Confined handler alike keeps := by
  induction program with
  | pure value => exact trivial
  | perform r rest ih =>
      obtain ⟨allowed, onward⟩ := holds
      refine ⟨fun world => ?_, fun first second related => ?_⟩
      · obtain ⟨valid, kept⟩ := keep r world allowed
        exact ⟨kept, ih _ (onward _ valid)⟩
      · obtain ⟨same, left_alike⟩ := blind r first second allowed related
        exact ⟨congrArg rest same, left_alike⟩

end Confinement

end Program

/-- What is left to do of the programs of all clients, and the world they share. -/
structure Pool {Request Client : Type} (Reply : Request → Type) (World : Type)
    (Answer : Client → Type) where
  world : World
  programs : (client : Client) → Program Reply (Answer client)

namespace Pool

variable {Request Client : Type} [DecidableEq Client] {Reply : Request → Type} {World : Type}
  {Answer : Client → Type} (handler : (r : Request) → World → Reply r × World)

/-- The next request of one client. A program that has ended stays as it is. -/
def step (pool : Pool Reply World Answer) (client : Client) : Pool Reply World Answer :=
  match pool.programs client with
  | .pure _ => pool
  | .perform r next =>
      ⟨(handler r pool.world).2,
        Function.update pool.programs client (next (handler r pool.world).1)⟩

def run (schedule : List Client) (pool : Pool Reply World Answer) : Pool Reply World Answer :=
  schedule.foldl (step handler) pool

/-- All programs are confined. -/
def Confined (alike keeps : World → World → Prop) (pool : Pool Reply World Answer) : Prop :=
  ∀ client, (pool.programs client).Confined handler alike keeps

variable {handler} {alike keeps : World → World → Prop} {pool : Pool Reply World Answer}

theorem step_ended {client : Client} {value : Answer client}
    (ended : pool.programs client = .pure value) : pool.step handler client = pool := by
  simp only [step, ended]

theorem step_asks {client : Client} {r : Request} {next : Reply r → Program Reply (Answer client)}
    (asks : pool.programs client = .perform r next) :
    pool.step handler client = ⟨(handler r pool.world).2,
      Function.update pool.programs client (next (handler r pool.world).1)⟩ := by
  simp only [step, asks]

theorem confined_update {client : Client} {program : Program Reply (Answer client)} {world : World}
    (all : pool.Confined handler alike keeps)
    (confined : program.Confined handler alike keeps) :
    Confined handler alike keeps ⟨world, Function.update pool.programs client program⟩ := by
  intro other
  by_cases same : other = client
  · subst same
    simpa using confined
  · simpa [same] using all other

theorem step_confined (refl : ∀ world, keeps world world) (all : pool.Confined handler alike keeps)
    (client : Client) :
    keeps pool.world (pool.step handler client).world ∧
      (pool.step handler client).Confined handler alike keeps := by
  have here := all client
  cases program : pool.programs client with
  | pure value =>
      rw [step_ended program]
      exact ⟨refl _, all⟩
  | perform r next =>
      rw [program] at here
      rw [step_asks program]
      obtain ⟨kept, onward⟩ := here.1 pool.world
      exact ⟨kept, confined_update all onward⟩

/-- Whatever the schedule, a run changes the world only as all its steps may. -/
theorem run_confined (refl : ∀ world, keeps world world)
    (trans : ∀ first second third, keeps first second → keeps second third → keeps first third)
    (schedule : List Client) (all : pool.Confined handler alike keeps) :
    keeps pool.world (pool.run handler schedule).world := by
  induction schedule generalizing pool with
  | nil => exact refl _
  | cons client rest ih =>
      obtain ⟨kept, still⟩ := step_confined refl all client
      exact trans _ _ _ kept (ih still)

theorem step_alike {other : Pool Reply World Answer} (all : pool.Confined handler alike keeps)
    (related : alike pool.world other.world) (same : pool.programs = other.programs)
    (client : Client) :
    alike (pool.step handler client).world (other.step handler client).world ∧
      (pool.step handler client).programs = (other.step handler client).programs := by
  have here := all client
  unfold step
  rw [← same]
  cases program : pool.programs client with
  | pure value => exact ⟨related, same⟩
  | perform r next =>
      rw [program] at here
      obtain ⟨goesOn, left_alike⟩ := here.2 _ _ related
      exact ⟨left_alike, by simp only [goesOn]⟩

/-- In worlds that are alike the same schedule leads all programs to the same point. -/
theorem run_alike (other : Pool Reply World Answer) (refl : ∀ world, keeps world world)
    (schedule : List Client) (all : pool.Confined handler alike keeps)
    (related : alike pool.world other.world) (same : pool.programs = other.programs) :
    alike (pool.run handler schedule).world (other.run handler schedule).world ∧
      (pool.run handler schedule).programs = (other.run handler schedule).programs := by
  induction schedule generalizing pool other with
  | nil => exact ⟨related, same⟩
  | cons client rest ih =>
      obtain ⟨left_alike, still⟩ := step_alike all related same client
      exact ih _ (step_confined refl all client).2 left_alike still

end Pool

end S3Manager.Library
