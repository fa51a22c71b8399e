import Mathlib.Data.List.Basic

/-! Runs of a state machine as finite sequences of labelled steps, and the two
induction rules that carry an invariant along them. -/

set_option autoImplicit false

namespace S3Manager.Library

section Execution

variable {State Action : Type} (step : State → Action → State → Prop)

/-- `Execution step start trace final`: the steps of `trace`, each recorded with
the state it was taken in, lead from `start` to `final`. -/
inductive Execution : State → List (State × Action) → State → Prop where
  | nil {state : State} : Execution state [] state
  | snoc {start middle final : State} {trace : List (State × Action)} {action : Action} :
      Execution start trace middle → step middle action final →
      Execution start (trace ++ [(middle, action)]) final

variable {step}

/-- An invariant kept by every step whose side condition holds is true in the
final state and in every state in which a step was taken. -/
theorem Execution.invariant {condition : State → Action → Prop} {invariant : State → Prop}
    (keep : ∀ state action next, invariant state → condition state action →
      step state action next → invariant next)
    {start final : State} {trace : List (State × Action)}
    (run : Execution step start trace final) (initially : invariant start)
    (meets : ∀ visited ∈ trace, condition visited.1 visited.2) :
    invariant final ∧ ∀ visited ∈ trace, invariant visited.1 := by
  induction run with
  | nil => exact ⟨initially, by simp⟩
  | @snoc middle final trace action _ taken ih =>
      obtain ⟨reached, before⟩ := ih fun visited member =>
        meets visited (List.mem_append_left _ member)
      refine ⟨keep middle action final reached (meets (middle, action) (by simp)) taken, ?_⟩
      intro visited member
      rcases List.mem_append.mp member with earlier | last
      · exact before visited earlier
      · have same : visited = (middle, action) := by simpa using last
        exact same ▸ reached

theorem Execution.always {invariant : State → Prop}
    (keep : ∀ state action next, invariant state → step state action next → invariant next)
    {start final : State} {trace : List (State × Action)}
    (run : Execution step start trace final) (initially : invariant start) :
    invariant final ∧ ∀ visited ∈ trace, invariant visited.1 :=
  run.invariant (fun state action next holds (_ : True) taken => keep state action next holds taken)
    initially fun _ _ => trivial

/-- What holds of a state and the steps that led to it, and is kept by one more step. -/
theorem Execution.history {holds : List (State × Action) → State → Prop}
    (keep : ∀ trace state action next, holds trace state → step state action next →
      holds (trace ++ [(state, action)]) next)
    {start final : State} {trace : List (State × Action)}
    (run : Execution step start trace final) (initially : holds [] start) : holds trace final := by
  induction run with
  | nil => exact initially
  | snoc _ taken ih => exact keep _ _ _ _ ih taken

/-- Where a step from a good state leads to a good one exactly when it meets its
condition, a run stays among the good states exactly when all its steps do. -/
theorem Execution.always_iff {condition : State → Action → Prop} {good : State → Prop}
    (exact : ∀ state action next, good state → step state action next →
      (good next ↔ condition state action))
    {start final : State} {trace : List (State × Action)}
    (run : Execution step start trace final) (initially : good start) :
    (good final ∧ ∀ visited ∈ trace, good visited.1) ↔
      ∀ visited ∈ trace, condition visited.1 visited.2 := by
  constructor
  · rintro ⟨last, all⟩
    induction run with
    | nil => simp
    | @snoc middle final trace action _ taken ih =>
        have reached : good middle := all (middle, action) (by simp)
        intro visited member
        obtain earlier | final := List.mem_append.mp member
        · exact ih reached (fun visited member => all visited (List.mem_append_left _ member))
            visited earlier
        · obtain rfl : visited = (middle, action) := by simpa using final
          exact (exact middle action _ reached taken).mp last
  · exact run.invariant
      (fun state action next holds meets taken => (exact state action next holds taken).mpr meets)
      initially

/-- The same for good states that also meet an invariant, which a step to a good state keeps. -/
theorem Execution.always_iff_of_invariant {condition : State → Action → Prop}
    {good invariant : State → Prop}
    (exact : ∀ state action next, good state → invariant state → step state action next →
      (good next ↔ condition state action))
    (keep : ∀ state action next, good state → invariant state → step state action next →
      good next → invariant next)
    {start final : State} {trace : List (State × Action)}
    (run : Execution step start trace final) (initially : good start)
    (beginning : invariant start) :
    (good final ∧ ∀ visited ∈ trace, good visited.1) ↔
      ∀ visited ∈ trace, condition visited.1 visited.2 := by
  constructor
  · intro all
    have both : invariant final ∧ ∀ visited ∈ trace, condition visited.1 visited.2 := by
      induction run with
      | nil => exact ⟨beginning, by simp⟩
      | @snoc middle final trace action _ taken ih =>
          have reached : good middle := all.2 (middle, action) (by simp)
          obtain ⟨held, met⟩ :=
            ih ⟨reached, fun visited member => all.2 visited (List.mem_append_left _ member)⟩
          refine ⟨keep middle action final reached held taken all.1, ?_⟩
          intro visited member
          obtain earlier | last := List.mem_append.mp member
          · exact met visited earlier
          · obtain rfl : visited = (middle, action) := by simpa using last
            exact (exact middle action final reached held taken).mp all.1
    exact both.2
  · intro meets
    have step_ : ∀ state action next, good state ∧ invariant state → condition state action →
        step state action next → good next ∧ invariant next := by
      rintro state action next ⟨fine, held⟩ met taken
      have better := (exact state action next fine held taken).mpr met
      exact ⟨better, keep state action next fine held taken better⟩
    obtain ⟨last, all⟩ := run.invariant step_ ⟨initially, beginning⟩ meets
    exact ⟨last.1, fun visited member => (all visited member).1⟩

/-- Each recorded step was taken. -/
theorem Execution.taken {start final : State} {trace : List (State × Action)}
    (run : Execution step start trace final) :
    ∀ visited ∈ trace, ∃ next, step visited.1 visited.2 next := by
  induction run with
  | nil => simp
  | @snoc middle final trace action _ taken ih =>
      intro visited member
      obtain earlier | last := List.mem_append.mp member
      · exact ih visited earlier
      · obtain rfl : visited = (middle, action) := by simpa using last
        exact ⟨final, taken⟩

theorem Execution.append {start middle final : State} {first second : List (State × Action)}
    (left : Execution step start first middle) (right : Execution step middle second final) :
    Execution step start (first ++ second) final := by
  induction right with
  | nil => simpa using left
  | snoc _ taken ih =>
      rw [← List.append_assoc]
      exact .snoc ih taken

end Execution

end S3Manager.Library
