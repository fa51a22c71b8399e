import S3Manager.Library.Pool

/-! One program while others interfere. Between its requests the world may change as `rely`
allows; what the program promises then holds in every pool in which the others keep to that. -/

set_option autoImplicit false

namespace S3Manager.Library

namespace Program

section Relies

variable {Request : Type} {Reply : Request → Type} {World : Type} {α β : Type}
  (handler : (r : Request) → World → Reply r × World) (rely : World → World → Prop)

/-- From this world on, however the others interfere, the program ends in a result and a world
that satisfy `post`, if it ends. -/
def Relies (post : α → World → Prop) : Program Reply α → World → Prop
  | .pure value, world => ∀ later, rely world later → post value later
  | .perform r next, world => ∀ later, rely world later →
      (next (handler r later).1).Relies post (handler r later).2

variable {handler rely}

theorem relies_later (trans : ∀ first second third, rely first second → rely second third →
    rely first third) {post : α → World → Prop} {program : Program Reply α} {world later : World}
    (relies : program.Relies handler rely post world) (moved : rely world later) :
    program.Relies handler rely post later := by
  cases program with
  | pure value => exact fun final moves => relies final (trans _ _ _ moved moves)
  | perform r next => exact fun final moves => relies final (trans _ _ _ moved moves)

theorem relies_bind (refl : ∀ world, rely world world) {between : α → World → Prop}
    {post : β → World → Prop} {program : Program Reply α} {next : α → Program Reply β} {world : World}
    (first : program.Relies handler rely between world)
    (second : ∀ value world, between value world → (next value).Relies handler rely post world) :
    (program.bind next).Relies handler rely post world := by
  induction program generalizing world with
  | pure value => exact second value world (first world (refl world))
  | perform r rest ih => exact fun later moved => ih _ (first later moved)

theorem relies_mono {strong weak : α → World → Prop} {program : Program Reply α} {world : World}
    (relies : program.Relies handler rely strong world)
    (implies : ∀ value world, strong value world → weak value world) :
    program.Relies handler rely weak world := by
  induction program generalizing world with
  | pure value => exact fun later moved => implies _ _ (relies later moved)
  | perform r rest ih => exact fun later moved => ih _ (relies later moved)

end Relies

end Program

namespace Pool

variable {Request Client : Type} [DecidableEq Client] {Reply : Request → Type} {World : Type}
  {Answer : Client → Type} {handler : (r : Request) → World → Reply r × World}
  {rely : World → World → Prop}

/-- Along the schedule, every step of another client changes the world only as `rely` allows. -/
def Interferes (handler : (r : Request) → World → Reply r × World) (rely : World → World → Prop)
    (client : Client) : List Client → Pool Reply World Answer → Prop
  | [], _ => True
  | turn :: rest, pool =>
      (turn ≠ client → rely pool.world (pool.step handler turn).world) ∧
        Interferes handler rely client rest (pool.step handler turn)

theorem step_other {pool : Pool Reply World Answer} {client turn : Client} (other : turn ≠ client) :
    (pool.step handler turn).programs client = pool.programs client := by
  cases program : pool.programs turn with
  | pure value => rw [step_ended program]
  | perform r next => simp [step_asks program, Function.update_of_ne (Ne.symm other)]

theorem step_relies (refl : ∀ world, rely world world) {pool : Pool Reply World Answer}
    {client : Client} {post : Answer client → World → Prop}
    (relies : (pool.programs client).Relies handler rely post pool.world) :
    ((pool.step handler client).programs client).Relies handler rely post
      (pool.step handler client).world := by
  cases program : pool.programs client with
  | pure value => rwa [step_ended program]
  | perform r next =>
      rw [program] at relies
      rw [step_asks program]
      simpa using relies pool.world (refl _)

/-- What a program promises under interference it keeps in a pool, whatever the schedule. -/
theorem run_relies (refl : ∀ world, rely world world)
    (trans : ∀ first second third, rely first second → rely second third → rely first third)
    {client : Client} {post : Answer client → World → Prop} (schedule : List Client)
    {pool : Pool Reply World Answer}
    (relies : (pool.programs client).Relies handler rely post pool.world)
    (interferes : pool.Interferes handler rely client schedule) :
    ((pool.run handler schedule).programs client).Relies handler rely post
      (pool.run handler schedule).world := by
  induction schedule generalizing pool with
  | nil => exact relies
  | cons turn rest ih =>
      refine ih ?_ interferes.2
      by_cases own : turn = client
      · subst own
        exact step_relies refl relies
      · rw [step_other own]
        exact Program.relies_later trans relies (interferes.1 own)

theorem interferes_of_confined {client : Client} (schedule : List Client)
    {pool : Pool Reply World Answer} (refl : ∀ world, rely world world)
    (confined : ∀ other, other ≠ client → (pool.programs other).Confined handler Eq rely) :
    pool.Interferes handler rely client schedule := by
  induction schedule generalizing pool with
  | nil => exact trivial
  | cons turn rest ih =>
      have kept (other : turn ≠ client) : rely pool.world (pool.step handler turn).world ∧
          ((pool.step handler turn).programs turn).Confined handler Eq rely := by
        have here := confined turn other
        cases program : pool.programs turn with
        | pure value =>
            rw [step_ended program]
            exact ⟨refl _, here⟩
        | perform r next =>
            rw [program] at here
            rw [step_asks program]
            simpa using here.1 pool.world
      refine ⟨fun other => (kept other).1, ih fun other different => ?_⟩
      by_cases own : turn = other
      · subst own
        exact (kept different).2
      · rw [step_other own]
        exact confined other different

/-- At every moment of the run, from its beginning to its end. -/
def Always (handler : (r : Request) → World → Reply r × World) (holds : World → Prop)
    (schedule : List Client) (pool : Pool Reply World Answer) : Prop :=
  ∀ front, front <+: schedule → holds (pool.run handler front).world

/-- At some moment of the run. -/
def Sometime (handler : (r : Request) → World → Reply r × World) (holds : World → Prop)
    (schedule : List Client) (pool : Pool Reply World Answer) : Prop :=
  ∃ front, front <+: schedule ∧ holds (pool.run handler front).world

theorem sometime_of_not_always {holds : World → Prop} {schedule : List Client}
    {pool : Pool Reply World Answer}
    (never : ¬ pool.Always handler (fun world => ¬ holds world) schedule) :
    pool.Sometime handler holds schedule := by
  unfold Always at never
  push Not at never
  exact never

theorem interferes_of_always {client : Client} {holds : World → Prop} {schedule : List Client}
    {pool : Pool Reply World Answer} (always : pool.Always handler holds schedule) :
    pool.Interferes handler (fun world later => holds world → holds later) client schedule := by
  induction schedule generalizing pool with
  | nil => exact trivial
  | cons turn rest ih =>
      refine ⟨fun _ _ => always [turn] (by simp), ih fun front within => ?_⟩
      exact always (turn :: front) (List.cons_prefix_cons.mpr ⟨rfl, within⟩)

section Beside

variable {α β : Type}

/-- One program beside those of other clients. -/
def beside (world : World) (program : Program Reply α) (others : Client → Program Reply β) :
    Pool Reply World fun member : Option Client => member.elim α fun _ => β where
  world := world
  programs
    | none => program
    | some client => others client

end Beside

end Pool

end S3Manager.Library
