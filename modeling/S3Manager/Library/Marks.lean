import S3Manager.Library.Pool

/-! Programs whose requests carry a mark that says what each is made for. The environment does
not see the marks, so they change no run; the marks of the requests that it has answered tell
which parts of the programs have been at work. -/

set_option autoImplicit false

namespace S3Manager.Library

section Marked

variable {Request Mark : Type} {Reply : Request → Type} {World : Type} {α β : Type}

/-- A marked request is replied to as the request itself. -/
abbrev Marked (Mark : Type) (Reply : Request → Type) (marked : Mark × Request) : Type :=
  Reply marked.2

/-- The environment that answers requests whatever their marks. -/
def unmarked (handler : (r : Request) → World → Reply r × World) (marked : Mark × Request) :
    World → Marked Mark Reply marked × World :=
  handler marked.2

namespace Program

def mark (made : Mark) : Program Reply α → Program (Marked Mark Reply) α
  | .pure value => .pure value
  | .perform r next => .perform (made, r) fun reply => (next reply).mark made

def unmark : Program (Marked Mark Reply) α → Program Reply α
  | .pure value => .pure value
  | .perform marked next => .perform marked.2 fun reply => (next reply).unmark

/-- What the next request is made for. -/
def nextMark : Program (Marked Mark Reply) α → Option Mark
  | .pure _ => none
  | .perform marked _ => some marked.1

variable (handler : (r : Request) → World → Reply r × World)

/-- Every request changes the world only as its mark allows. -/
def Heeds (keeps : Mark → World → World → Prop) : Program (Marked Mark Reply) α → Prop
  | .pure _ => True
  | .perform marked next =>
      ∀ world, keeps marked.1 world (handler marked.2 world).2 ∧
        (next (handler marked.2 world).1).Heeds keeps

variable {handler} {keeps : Mark → World → World → Prop}

@[simp] theorem unmark_mark (made : Mark) (program : Program Reply α) :
    (program.mark made).unmark = program := by
  induction program with
  | pure value => rfl
  | perform r next ih => simp only [mark, unmark, ih]

theorem unmark_bind (program : Program (Marked Mark Reply) α)
    (next : α → Program (Marked Mark Reply) β) :
    (program.bind next).unmark = program.unmark.bind fun value => (next value).unmark := by
  induction program with
  | pure value => rfl
  | perform marked rest ih => simp only [perform_bind, unmark, ih]

/-- A program that is marked as a whole heeds the mark where it is confined to what that allows. -/
theorem heeds_mark {made : Mark} {program : Program Reply α}
    (confined : program.Confined handler Eq (keeps made)) :
    (program.mark made).Heeds handler keeps := by
  induction program with
  | pure value => exact trivial
  | perform r next ih =>
      intro world
      obtain ⟨kept, onward⟩ := confined.1 world
      exact ⟨kept, ih _ onward⟩

theorem heeds_bind {program : Program (Marked Mark Reply) α}
    {next : α → Program (Marked Mark Reply) β} (first : program.Heeds handler keeps)
    (later : ∀ value, (next value).Heeds handler keeps) :
    (program.bind next).Heeds handler keeps := by
  induction program with
  | pure value => exact later value
  | perform marked rest ih =>
      intro world
      obtain ⟨kept, onward⟩ := first world
      exact ⟨kept, ih _ onward⟩

end Program

end Marked

namespace Pool

variable {Request Client Mark : Type} [DecidableEq Client] {Reply : Request → Type} {World : Type}
  {Answer : Client → Type} (handler : (r : Request) → World → Reply r × World)

def unmark (pool : Pool (Marked Mark Reply) World Answer) : Pool Reply World Answer where
  world := pool.world
  programs client := (pool.programs client).unmark

/-- The marks of the requests that are answered along the schedule, each with its client. -/
def served : List Client → Pool (Marked Mark Reply) World Answer → List (Client × Mark)
  | [], _ => []
  | turn :: rest, pool =>
      ((pool.programs turn).nextMark.toList.map fun made => (turn, made)) ++
        served rest (pool.step (unmarked handler) turn)

variable {handler} {pool : Pool (Marked Mark Reply) World Answer}

theorem unmark_step (turn : Client) :
    (pool.step (unmarked handler) turn).unmark = pool.unmark.step handler turn := by
  cases asks : pool.programs turn with
  | pure value =>
      have ended : pool.unmark.programs turn = .pure value := by
        show (pool.programs turn).unmark = _
        rw [asks, Program.unmark]
      rw [step_ended asks, step_ended ended]
  | perform marked next =>
      have asked : pool.unmark.programs turn =
          .perform marked.2 fun reply => (next reply).unmark := by
        show (pool.programs turn).unmark = _
        rw [asks, Program.unmark]
      rw [step_asks asks, step_asks asked]
      refine congrArg (Pool.mk _) (funext fun client => ?_)
      exact Function.apply_update
        (fun client (program : Program (Marked Mark Reply) (Answer client)) => program.unmark)
        pool.programs turn _ client

/-- Marks change no run. -/
theorem unmark_run (schedule : List Client) :
    (pool.run (unmarked handler) schedule).unmark = pool.unmark.run handler schedule := by
  induction schedule generalizing pool with
  | nil => rfl
  | cons turn rest ih =>
      show ((pool.step (unmarked handler) turn).run (unmarked handler) rest).unmark =
        (pool.unmark.step handler turn).run handler rest
      rw [ih, unmark_step]

theorem step_heeds {keeps : Client → Mark → World → World → Prop}
    {changes : World → World → Prop} (refl : ∀ world, changes world world)
    (all : ∀ client, (pool.programs client).Heeds handler (keeps client)) (turn : Client)
    (allowed : ∀ made, (pool.programs turn).nextMark = some made →
      ∀ world later, keeps turn made world later → changes world later) :
    changes pool.world (pool.step (unmarked handler) turn).world ∧
      ∀ client, ((pool.step (unmarked handler) turn).programs client).Heeds handler
        (keeps client) := by
  have here := all turn
  cases asks : pool.programs turn with
  | pure value =>
      rw [step_ended asks]
      exact ⟨refl _, all⟩
  | perform marked next =>
      rw [asks] at here allowed
      rw [step_asks asks]
      obtain ⟨kept, onward⟩ := here pool.world
      refine ⟨allowed marked.1 rfl _ _ kept, fun client => ?_⟩
      by_cases own : client = turn
      · subst own
        simpa [unmarked] using onward
      · simpa [own] using all client

/-- What every mark that was served allows, the run allows as a whole. -/
theorem run_heeds {keeps : Client → Mark → World → World → Prop} (changes : World → World → Prop)
    (refl : ∀ world, changes world world)
    (trans : ∀ first second third, changes first second → changes second third →
      changes first third) (schedule : List Client)
    (all : ∀ client, (pool.programs client).Heeds handler (keeps client))
    (allowed : ∀ client made, (client, made) ∈ pool.served handler schedule →
      ∀ world later, keeps client made world later → changes world later) :
    changes pool.world (pool.run (unmarked handler) schedule).world := by
  induction schedule generalizing pool with
  | nil => exact refl _
  | cons turn rest ih =>
      obtain ⟨moved, still⟩ := step_heeds refl all turn fun made asks world later keeps =>
        allowed turn made (List.mem_append_left _ (by simp [asks])) world later keeps
      exact trans _ _ _ moved (ih still fun client made later =>
        allowed client made (List.mem_append_right _ later))

end Pool

end S3Manager.Library
