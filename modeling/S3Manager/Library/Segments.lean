import Mathlib.Data.List.Infix

/-! Texts as segments joined by a separator. Segments that are not empty and do not
hold the separator can be read back. -/

set_option autoImplicit false

namespace S3Manager.Library

variable {α : Type} {separator : α} {names front back : List (List α)} {name : List α}

def joinOn (separator : α) (names : List (List α)) : List α :=
  [separator].intercalate names

/-- Segments that splitting a text can give back one by one. -/
def Segments (separator : α) (names : List (List α)) : Prop :=
  ∀ name ∈ names, name ≠ [] ∧ separator ∉ name

section Join

@[simp] theorem joinOn_nil : joinOn separator [] = [] := rfl

@[simp] theorem joinOn_one (name : List α) : joinOn separator [name] = name :=
  List.intercalate_singleton

theorem joinOn_cons (name : List α) (some : back ≠ []) :
    joinOn separator (name :: back) = name ++ separator :: joinOn separator back := by
  rw [joinOn, List.intercalate_cons_of_ne_nil some]
  simp [joinOn]

theorem joinOn_append (someFront : front ≠ []) (someBack : back ≠ []) :
    joinOn separator (front ++ back) =
      joinOn separator front ++ separator :: joinOn separator back := by
  induction front with
  | nil => exact absurd rfl someFront
  | cons name rest ih =>
      cases rest with
      | nil =>
          rw [joinOn_one]
          exact joinOn_cons name someBack
      | cons second more =>
          rw [List.cons_append, joinOn_cons name (by simp), ih (by simp),
            joinOn_cons name (by simp), List.append_assoc, List.cons_append]

theorem joinOn_snoc (some : front ≠ []) (name : List α) :
    joinOn separator (front ++ [name]) = joinOn separator front ++ separator :: name := by
  rw [joinOn_append some (List.cons_ne_nil name []), joinOn_one]

theorem joinOn_eq_nil_iff (segments : Segments separator names) :
    joinOn separator names = [] ↔ names = [] := by
  constructor
  · intro empty
    cases names with
    | nil => rfl
    | cons first rest =>
        have live := (segments first List.mem_cons_self).1
        cases rest with
        | nil => exact absurd ((joinOn_one first).symm.trans empty) live
        | cons second more => simp [joinOn_cons] at empty
  · intro none
    rw [none, joinOn_nil]

theorem infix_joinOn (member : name ∈ names) : name <:+: joinOn separator names := by
  obtain ⟨front, back, rfl⟩ := List.append_of_mem member
  have tail : name <:+: joinOn separator (name :: back) := by
    cases back with
    | nil => rw [joinOn_one]
    | cons second more =>
        rw [joinOn_cons name (by simp)]
        exact (List.prefix_append ..).isInfix
  by_cases some : front = []
  · rwa [some]
  · rw [joinOn_append some (by simp)]
    exact tail.trans ((List.suffix_cons ..).trans (List.suffix_append ..)).isInfix

theorem mem_joinOn {x : α} (member : x ∈ joinOn separator names) :
    x = separator ∨ ∃ name ∈ names, x ∈ name := by
  induction names with
  | nil => cases member
  | cons first rest ih =>
      cases rest with
      | nil => exact .inr ⟨first, List.mem_cons_self, by simpa using member⟩
      | cons second more =>
          rw [joinOn_cons first (by simp)] at member
          obtain inFirst | rfl | later :
              x ∈ first ∨ x = separator ∨ x ∈ joinOn separator (second :: more) := by
            simpa using member
          · exact .inr ⟨first, List.mem_cons_self, inFirst⟩
          · exact .inl rfl
          · obtain same | ⟨name, inRest, within⟩ := ih later
            · exact .inl same
            · exact .inr ⟨name, List.mem_cons_of_mem _ inRest, within⟩

end Join

section Split

variable [DecidableEq α]

theorem joinOn_splitOn (text : List α) : joinOn separator (text.splitOn separator) = text :=
  List.intercalate_splitOn separator

theorem splitOn_joinOn (plain : ∀ name ∈ names, separator ∉ name) (some : names ≠ []) :
    (joinOn separator names).splitOn separator = names :=
  List.splitOn_intercalate separator plain some

theorem joinOn_injective {other : List (List α)} (segments : Segments separator names)
    (otherSegments : Segments separator other)
    (same : joinOn separator names = joinOn separator other) : names = other := by
  by_cases empty : names = []
  · subst empty
    exact ((joinOn_eq_nil_iff otherSegments).mp same.symm).symm
  · have otherSome : other ≠ [] := by
      intro none
      rw [none] at same
      exact empty ((joinOn_eq_nil_iff segments).mp same)
    rw [← splitOn_joinOn (fun name member => (segments name member).2) empty, same,
      splitOn_joinOn (fun name member => (otherSegments name member).2) otherSome]

theorem not_mem_of_splitOn {text : List α} (member : name ∈ text.splitOn separator) :
    separator ∉ name := by
  induction text generalizing name with
  | nil =>
      obtain rfl : name = [] := by simpa using member
      exact List.not_mem_nil
  | cons c rest ih =>
      rw [List.splitOn_cons_eq_if_modifyHead] at member
      split at member
      · obtain rfl | later := List.mem_cons.mp member
        · exact List.not_mem_nil
        · exact ih later
      · next other =>
          cases pieces : rest.splitOn separator with
          | nil => exact absurd pieces (List.splitOn_ne_nil separator rest)
          | cons head tail =>
              rw [pieces, List.modifyHead_cons] at member
              obtain rfl | later := List.mem_cons.mp member
              · intro found
                obtain same | inHead := List.mem_cons.mp found
                · exact other (by simp [same])
                · exact ih (by rw [pieces]; exact List.mem_cons_self) inHead
              · exact ih (by rw [pieces]; exact List.mem_cons_of_mem _ later)

end Split

section Infix

variable {word left right : List α}

theorem prefix_separator (starts : word <+: separator :: right) (absent : separator ∉ word) :
    word = [] := by
  obtain empty | ⟨tail, rfl, -⟩ := List.prefix_cons_iff.mp starts
  · exact empty
  · exact absurd List.mem_cons_self absent

/-- A word without the separator lies on one side of it. -/
theorem infix_append_separator_iff (absent : separator ∉ word) :
    word <:+: left ++ separator :: right ↔ word <:+: left ∨ word <:+: right := by
  rw [List.infix_append_iff_ne_nil, List.infix_cons_iff]
  constructor
  · rintro (inLeft | (starts | inRight) | ⟨first, second, -, someSecond, rfl, -, starts⟩)
    · exact .inl inLeft
    · obtain rfl := prefix_separator starts absent
      exact .inl List.nil_infix
    · exact .inr inRight
    · exact absurd (prefix_separator starts fun member => absent (List.mem_append_right _ member))
        someSecond
  · rintro (inLeft | inRight)
    · exact .inl inLeft
    · exact .inr (.inl (.inr inRight))

end Infix

end S3Manager.Library
