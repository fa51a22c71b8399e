import Mathlib.Data.List.Basic

/-! Collecting the elements of a list one after the other, each of them once: an element
keeps the place where it was met first. -/

set_option autoImplicit false

namespace S3Manager.Library

variable {α β : Type} [BEq α] [LawfulBEq α]

/-- The loop that appends what it reads unless this is skipped or there already. -/
def collect (read : β → α) (skip : α → Bool) (seen : List α) (pieces : List β) : List α :=
  pieces.foldl (fun seen piece =>
    if skip (read piece) || seen.contains (read piece) then seen else seen ++ [read piece]) seen

theorem removeAll_snoc (values seen : List α) (x : α) :
    values.removeAll (seen ++ [x]) = (values.removeAll seen).filter fun value => !value == x := by
  simp only [List.removeAll, List.filter_filter]
  refine List.filter_congr fun value _ => ?_
  by_cases same : value = x <;> simp [same]

theorem collect_seen (read : β → α) (skip : α → Bool) (seen : List α) (pieces : List β) :
    collect read skip seen pieces =
      seen ++ (((pieces.map read).filter fun x => !skip x).removeAll seen).eraseDups := by
  induction pieces generalizing seen with
  | nil => simp [collect, List.removeAll]
  | cons piece rest ih =>
      have step : collect read skip seen (piece :: rest) = collect read skip
          (if skip (read piece) || seen.contains (read piece) then seen
            else seen ++ [read piece]) rest := rfl
      rw [step, ih]
      by_cases skipped : skip (read piece) = true
      · simp [skipped]
      by_cases met : read piece ∈ seen
      · simp [skipped, met, List.removeAll]
      · have fresh : ((read piece :: (rest.map read).filter fun x => !skip x).removeAll seen) =
            read piece :: ((rest.map read).filter fun x => !skip x).removeAll seen := by
          simp [List.removeAll, met]
        simp only [skipped, met, List.contains_eq_mem, decide_false, Bool.or_self,
          Bool.false_eq_true, if_false, List.map_cons, Bool.not_false, List.filter_cons_of_pos,
          fresh, List.eraseDups_cons, removeAll_snoc, List.append_assoc, List.singleton_append]

theorem collect_eq (read : β → α) (skip : α → Bool) (pieces : List β) :
    collect read skip [] pieces = ((pieces.map read).filter fun x => !skip x).eraseDups := by
  rw [collect_seen]
  simp [List.removeAll]

theorem nodup_eraseDups (values : List α) : values.eraseDups.Nodup := by
  cases values with
  | nil => exact List.nodup_nil
  | cons x rest =>
      rw [List.eraseDups_cons, List.nodup_cons]
      exact ⟨by simp, nodup_eraseDups (rest.filter fun value => !value == x)⟩
termination_by values.length
decreasing_by exact Nat.lt_succ_of_le (List.length_filter_le _ rest)

end S3Manager.Library
