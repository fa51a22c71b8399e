import Mathlib.Data.List.Basic
import Mathlib.Data.List.Infix

/-! All matches of a pattern in a sequence, from left to right: at each place the pattern is
tried, and after a match the search goes on behind it. The pattern is any function that says
what it found and what it leaves. -/

set_option autoImplicit false

namespace S3Manager.Library

namespace Scan

variable {α β : Type} (pattern : List α → Option (β × List α))

/-- The matches after the first `skip` places. -/
def from_ : Nat → List α → List β
  | _, [] => []
  | skip + 1, _ :: rest => from_ skip rest
  | 0, first :: rest =>
      match pattern (first :: rest) with
      | none => from_ 0 rest
      | some (found, after) => found :: from_ (rest.length - after.length) rest

def all (text : List α) : List β := from_ pattern 0 text

variable {pattern}

@[simp] theorem all_nil : all pattern [] = [] := rfl

theorem from_drop (skip : Nat) (text : List α) :
    from_ pattern skip text = all pattern (text.drop skip) := by
  induction text generalizing skip with
  | nil => simp [from_, all]
  | cons first rest ih =>
      cases skip with
      | zero => rfl
      | succ skip => exact ih skip

theorem all_miss {first : α} {rest : List α} (miss : pattern (first :: rest) = none) :
    all pattern (first :: rest) = all pattern rest := by
  rw [all, from_, miss]
  rfl

theorem all_hit {first : α} {rest after : List α} {found : β}
    (hit : pattern (first :: rest) = some (found, after)) (later : after <:+ rest) :
    all pattern (first :: rest) = found :: all pattern after := by
  rw [all, from_, hit]
  dsimp only
  rw [from_drop, ← List.suffix_iff_eq_drop.mp later]

theorem mem_from {found : β} (skip : Nat) {text : List α} (member : found ∈ from_ pattern skip text) :
    ∃ place after, pattern place = some (found, after) := by
  induction text generalizing skip with
  | nil => cases skip <;> cases member
  | cons first rest ih =>
      cases skip with
      | succ skip => exact ih skip member
      | zero =>
          cases hit : pattern (first :: rest) with
          | none =>
              rw [from_, hit] at member
              exact ih 0 member
          | some result =>
              rw [from_, hit] at member
              obtain rfl | later := List.mem_cons.mp member
              · exact ⟨first :: rest, result.2, hit⟩
              · exact ih _ later

/-- Every match was found by the pattern at some place. -/
theorem mem_all {found : β} {text : List α} (member : found ∈ all pattern text) :
    ∃ place after, pattern place = some (found, after) :=
  mem_from 0 member

end Scan

end S3Manager.Library
