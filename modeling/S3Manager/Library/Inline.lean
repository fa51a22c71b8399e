import S3Manager.Library.Interference

/-! A program whose requests are served by programs of another kind. What it makes of the
replies, and what each of its requests brings about, add up to what it promises as a whole. -/

set_option autoImplicit false

namespace S3Manager.Library

namespace Program

section Inlining

variable {Asked Request : Type} {Answer : Asked → Type} {Reply : Request → Type} {α : Type}
  (serve : Nat → (asked : Asked) → Program Reply (Answer asked))

/-- Every request is served by a program of its own. `served` counts the requests before it. -/
def inline (served : Nat) : Program Answer α → Program Reply α
  | .pure value => .pure value
  | .perform asked next =>
      (serve served asked).bind fun answer => (next answer).inline (served + 1)

end Inlining

section Relies

variable {Request : Type} {Reply : Request → Type} {World : Type} {α : Type}
  {handler : (r : Request) → World → Reply r × World} {rely : World → World → Prop}

/-- Others who interfere less spoil less. -/
theorem relies_less {less : World → World → Prop} {post : α → World → Prop}
    {program : Program Reply α} {world : World} (implies : ∀ first later, less first later →
      rely first later) (relies : program.Relies handler rely post world) :
    program.Relies handler less post world := by
  induction program generalizing world with
  | pure value => exact fun later moved => relies later (implies _ _ moved)
  | perform r next ih => exact fun later moved => ih _ (relies later (implies _ _ moved))

theorem relies_always {post : α → World → Prop} {program : Program Reply α} {world : World}
    (always : ∀ value later, post value later) : program.Relies handler rely post world := by
  induction program generalizing world with
  | pure value => exact fun later _ => always value later
  | perform r next ih => exact fun later _ => ih _

/-- What is promised one by one is promised together. -/
theorem relies_forall {Index : Type} {post : Index → α → World → Prop} {program : Program Reply α}
    {world : World} (each : ∀ index, program.Relies handler rely (post index) world) :
    program.Relies handler rely (fun value later => ∀ index, post index value later) world := by
  induction program generalizing world with
  | pure value => exact fun later moved index => each index later moved
  | perform r next ih => exact fun later moved => ih _ fun index => each index later moved

/-- A program that keeps each of some relations keeps them all. -/
theorem confined_forall {Index : Type} {keeps : Index → World → World → Prop}
    {program : Program Reply α} (each : ∀ index, program.Confined handler Eq (keeps index)) :
    program.Confined handler Eq fun world later => ∀ index, keeps index world later := by
  induction program with
  | pure value => exact trivial
  | perform r next ih =>
      refine ⟨fun world => ⟨fun index => ((each index).1 world).1,
        ih _ fun index => ((each index).1 world).2⟩, ?_⟩
      rintro world _ rfl
      exact ⟨rfl, rfl⟩

variable {Asked Phase Index : Type} {Answer : Asked → Type}
  {advance : (asked : Asked) → Answer asked → Phase → Phase}
  {serve : Nat → (asked : Asked) → Program Reply (Answer asked)} {permitted : Asked → Prop}

/-- It asks for nothing else, whatever it is answered. -/
def Asks (permitted : Asked → Prop) (program : Program Answer α) : Prop :=
  program.wp permitted (fun _ _ => True) fun _ => True

theorem asks_any (program : Program Answer α) : program.Asks fun _ => True := by
  induction program with
  | pure value => exact trivial
  | perform asked next ih => exact ⟨trivial, fun answer _ => ih answer⟩

theorem asks_bind {β : Type} {program : Program Answer α} {next : α → Program Answer β}
    (first : program.Asks permitted) (later : ∀ value, (next value).Asks permitted) :
    (program.bind next).Asks permitted := by
  unfold Asks at *
  rw [wp_bind]
  exact wp_mono first fun value _ => later value

/-- Whatever the answers, the result is right for the phase they lead to; and in the world, what
holds of a phase is brought about by each request that is served, and spoilt by nobody. -/
theorem relies_inline (refl : ∀ world, rely world world) {holds : Phase → World → Prop}
    {post : Phase → α → Prop} (stable : ∀ phase world later, rely world later →
      holds phase world → holds phase later)
    (step : ∀ served asked phase world, permitted asked → holds phase world →
      (serve served asked).Relies handler rely
        (fun answer later => holds (advance asked answer phase) later) world)
    {program : Program Answer α} {served : Nat} {phase : Phase} {world : World}
    (asks : program.Asks permitted) (ends : program.ends advance post phase)
    (start : holds phase world) :
    (program.inline serve served).Relies handler rely
      (fun value later => ∃ final, post final value ∧ holds final later) world := by
  induction program generalizing served phase world with
  | pure value => exact fun later moved => ⟨phase, ends, stable phase world later moved start⟩
  | perform asked next ih =>
      exact relies_bind refl (step served asked phase world asks.1 start) fun answer later met =>
        ih answer (asks.2 answer trivial) (ends answer) met

/-- The others leave each of these as true as they find it. -/
def Sparing (kept : Index → World → Prop) (world later : World) : Prop :=
  ∀ index, kept index world → kept index later

theorem sparing_refl {kept : Index → World → Prop} (world : World) : Sparing kept world world :=
  fun _ here => here

theorem sparing_trans {kept : Index → World → Prop} (first second third : World)
    (left : Sparing kept first second) (right : Sparing kept second third) :
    Sparing kept first third :=
  fun index here => right index (left index here)

/-- What the requests have brought about so far is kept by those that follow, and by the others. -/
theorem relies_gather {kept : Index → World → Prop} {gathered : Phase → Index → Prop}
    {brought : (asked : Asked) → Answer asked → Index → Prop} {post : Phase → α → Prop}
    (gathers : ∀ asked answer phase index, gathered (advance asked answer phase) index →
      gathered phase index ∨ brought asked answer index)
    (keeps : ∀ served asked index world, permitted asked → kept index world →
      (serve served asked).Relies handler (fun first later => kept index first → kept index later)
        (fun _ later => kept index later) world)
    (brings : ∀ served asked index world, permitted asked →
      (serve served asked).Relies handler (fun first later => kept index first → kept index later)
        (fun answer later => brought asked answer index → kept index later) world)
    {program : Program Answer α} {served : Nat} {phase : Phase} {world : World}
    (asks : program.Asks permitted) (ends : program.ends advance post phase)
    (start : ∀ index, gathered phase index → kept index world) :
    (program.inline serve served).Relies handler (Sparing kept)
      (fun value later => ∃ final, post final value ∧
        ∀ index, gathered final index → kept index later) world := by
  refine relies_inline sparing_refl
    (fun phase first later sparing here index done => sparing index (here index done)) ?_ asks ends
    start
  intro served asked phase world allowed here
  refine relies_forall fun index => relies_less (fun first later sparing => sparing index) ?_
  by_cases done : gathered phase index
  · exact relies_mono (keeps served asked index world allowed (here index done))
      fun _ _ still _ => still
  · refine relies_mono (brings served asked index world allowed) fun answer later new gain => ?_
    exact (gathers asked answer phase index gain).elim (absurd · done) new

end Relies

end Program

end S3Manager.Library
