import Mathlib.Data.List.Basic

/-! State updaters that also read and write a cell beside the state, in a runtime that
may evaluate an updater twice on the same state. -/

set_option autoImplicit false

namespace S3Manager.Library

/-- A state, and the mutable cell that updaters share. -/
structure Held (Value Cell : Type) where
  value : Value
  cell : Cell

/-- How often an updater is evaluated, and which result is kept. -/
inductive Evaluation where
  | once
  | twiceKeepFirst
  | twiceKeepLast

/-- What an updater returns, and what it leaves in the cell. -/
abbrev Updater (Value Cell : Type) := Value → Cell → Held Value Cell

namespace Updater

variable {Value Cell : Type}

def evaluate (updater : Updater Value Cell) (evaluation : Evaluation) (held : Held Value Cell) :
    Held Value Cell :=
  let first := updater held.value held.cell
  let second := updater held.value first.cell
  match evaluation with
  | .once => first
  | .twiceKeepFirst => ⟨first.value, second.cell⟩
  | .twiceKeepLast => second

/-- A second evaluation on the same state repeats the first one. -/
def Repeats (updater : Updater Value Cell) (held : Held Value Cell) : Prop :=
  updater.evaluate .twiceKeepLast held = updater.evaluate .once held

/-- The updater cannot differ in the cell alone: if the state is the same, so is the cell. -/
def Sharp (updater : Updater Value Cell) : Prop :=
  ∀ held, (updater.evaluate .twiceKeepLast held).value = (updater.evaluate .once held).value →
    updater.Repeats held

/-- The states after each updater. -/
def values (held : Held Value Cell) : List (Evaluation × Updater Value Cell) → List Value
  | [] => []
  | (evaluation, updater) :: rest =>
      (updater.evaluate evaluation held).value :: values (updater.evaluate evaluation held) rest

/-- Each updater repeats itself where a run with single evaluations meets it. -/
def AllRepeat (held : Held Value Cell) : List (Updater Value Cell) → Prop
  | [] => True
  | updater :: rest => updater.Repeats held ∧ AllRepeat (updater.evaluate .once held) rest

/-- The run in which each updater is evaluated in the same way. -/
def always (evaluation : Evaluation) (updaters : List (Updater Value Cell)) :
    List (Evaluation × Updater Value Cell) :=
  updaters.map fun updater => (evaluation, updater)

variable {updater : Updater Value Cell} {updaters : List (Updater Value Cell)}
  {held : Held Value Cell}

theorem evaluate_of_repeats (repeats : updater.Repeats held) (evaluation : Evaluation) :
    updater.evaluate evaluation held = updater.evaluate .once held := by
  cases evaluation with
  | once => rfl
  | twiceKeepFirst =>
      have cell := congrArg Held.cell repeats
      exact congrArg (Held.mk (updater held.value held.cell).value) cell
  | twiceKeepLast => exact repeats

theorem values_of_repeats (repeats : AllRepeat held updaters)
    {steps : List (Evaluation × Updater Value Cell)} (same : steps.map Prod.snd = updaters) :
    values held steps = values held (always .once updaters) := by
  induction steps generalizing held updaters with
  | nil =>
      obtain rfl : [] = updaters := same
      rfl
  | cons step rest ih =>
      obtain ⟨evaluation, updater⟩ := step
      obtain rfl : updater :: rest.map Prod.snd = updaters := same
      have here := evaluate_of_repeats repeats.1 evaluation
      show (updater.evaluate evaluation held).value :: _ = (updater.evaluate .once held).value :: _
      rw [here]
      exact congrArg _ (ih repeats.2 rfl)

theorem repeats_of_values (sharp : ∀ updater ∈ updaters, updater.Sharp)
    (same : values held (always .twiceKeepLast updaters) = values held (always .once updaters)) :
    AllRepeat held updaters := by
  induction updaters generalizing held with
  | nil => trivial
  | cons updater rest ih =>
      obtain ⟨here, later⟩ := List.cons.inj same
      have repeats := sharp updater (by simp) held here
      refine ⟨repeats, ih (fun other member => sharp other (by simp [member])) ?_⟩
      have next : updater.evaluate .twiceKeepLast held = updater.evaluate .once held := repeats
      change values (updater.evaluate .twiceKeepLast held) _ = _ at later
      rwa [next] at later

/-- The states do not depend on the evaluations exactly when each updater repeats itself
where it is met. -/
theorem values_eq_iff (sharp : ∀ updater ∈ updaters, updater.Sharp) :
    (∀ steps : List (Evaluation × Updater Value Cell), steps.map Prod.snd = updaters →
      values held steps = values held (always .once updaters)) ↔ AllRepeat held updaters := by
  refine ⟨fun independent => repeats_of_values sharp (independent _ ?_),
    fun repeats steps same => values_of_repeats repeats same⟩
  simp [always, Function.comp_def]

end Updater

end S3Manager.Library
