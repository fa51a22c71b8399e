import Mathlib.Data.List.DropRight

/-! Trimming a list at both ends, and the segment-boundary order on lists with
a separator. Nothing here depends on characters or on S3 keys. -/

set_option autoImplicit false

namespace S3Manager.Library

section Trim

variable {α : Type} (p : α → Bool)

/-- Drop the elements accepted by `p` from both ends. -/
def trimBy (values : List α) : List α :=
  (values.dropWhile p).rdropWhile p

@[simp] theorem trimBy_nil : trimBy p [] = [] := rfl

theorem rdropWhile_append_trailing (values : List α) :
    ∃ trailing, values = values.rdropWhile p ++ trailing ∧ ∀ x ∈ trailing, p x = true := by
  refine ⟨values.rtakeWhile p, List.rdropWhile_append_rtakeWhile.symm, ?_⟩
  intro x member
  exact List.mem_rtakeWhile_imp member

theorem dropWhile_append_leading (values : List α) :
    ∃ leading, values = leading ++ values.dropWhile p ∧ ∀ x ∈ leading, p x = true := by
  refine ⟨values.takeWhile p, List.takeWhile_append_dropWhile.symm, ?_⟩
  intro x member
  exact List.mem_takeWhile_imp member

theorem trimBy_split (values : List α) :
    ∃ leading trailing, values = leading ++ trimBy p values ++ trailing ∧
      (∀ x ∈ leading, p x = true) ∧ (∀ x ∈ trailing, p x = true) := by
  obtain ⟨leading, front, leadingBlank⟩ := dropWhile_append_leading p values
  obtain ⟨trailing, back, trailingBlank⟩ := rdropWhile_append_trailing p (values.dropWhile p)
  refine ⟨leading, trailing, ?_, leadingBlank, trailingBlank⟩
  calc values = leading ++ values.dropWhile p := front
    _ = leading ++ (trimBy p values ++ trailing) := by rw [trimBy, ← back]
    _ = leading ++ trimBy p values ++ trailing := (List.append_assoc ..).symm

theorem dropWhile_head_not {values : List α} {x : α} {rest : List α}
    (split : values.dropWhile p = x :: rest) : p x = false := by
  have nonempty : 0 < (values.dropWhile p).length := by simp [split]
  have kept := List.dropWhile_get_zero_not p values nonempty
  simpa [split] using kept

theorem dropWhile_eq_self_of_head {values : List α}
    (head : ∀ x rest, values = x :: rest → p x = false) : values.dropWhile p = values := by
  cases values with
  | nil => rfl
  | cons x rest => simp [head x rest rfl]

theorem rdropWhile_concat_blank (values : List α) {trailing : List α}
    (blank : ∀ x ∈ trailing, p x = true) :
    (values ++ trailing).rdropWhile p = values.rdropWhile p := by
  induction trailing using List.reverseRecOn with
  | nil => simp
  | append_singleton init last ih =>
      rw [← List.append_assoc, List.rdropWhile_concat_pos p _ _ (blank last (by simp))]
      exact ih fun x member => blank x (by simp [member])

theorem dropWhile_blank_append (values : List α) {leading : List α}
    (blank : ∀ x ∈ leading, p x = true) :
    (leading ++ values).dropWhile p = values.dropWhile p := by
  induction leading with
  | nil => rfl
  | cons x rest ih =>
      rw [List.cons_append, List.dropWhile_cons_of_pos (blank x (by simp))]
      exact ih fun y member => blank y (by simp [member])

theorem dropWhile_append_of_live {values : List α} (rest : List α)
    (live : values.dropWhile p ≠ []) : (values ++ rest).dropWhile p = values.dropWhile p ++ rest := by
  rw [List.dropWhile_append, if_neg (by simpa using live)]

theorem rdropWhile_append_of_live (values : List α) {rest : List α}
    (live : rest.rdropWhile p ≠ []) : (values ++ rest).rdropWhile p = values ++ rest.rdropWhile p := by
  have reversed : rest.reverse.dropWhile p ≠ [] := by
    simpa [List.rdropWhile] using live
  simp only [List.rdropWhile, List.reverse_append, dropWhile_append_of_live p _ reversed,
    List.reverse_reverse]

theorem rdropWhile_append_cons (values : List α) {x : α} (rest : List α) (kept : p x = false) :
    (values ++ x :: rest).rdropWhile p = values ++ x :: rest.rdropWhile p := by
  by_cases live : rest.rdropWhile p = []
  · have blank : ∀ y ∈ rest, p y = true := List.rdropWhile_eq_nil_iff.mp live
    rw [live, List.append_cons, rdropWhile_concat_blank p _ blank,
      List.rdropWhile_concat_neg p _ _ (by simp [kept])]
  · rw [List.append_cons, rdropWhile_append_of_live p _ live, List.append_assoc,
      List.singleton_append]

theorem rdropWhile_last_not {values : List α} {init : List α} {x : α}
    (split : values.rdropWhile p = init ++ [x]) : p x = false := by
  have nonempty : values.rdropWhile p ≠ [] := by simp [split]
  have kept := List.rdropWhile_last_not p values nonempty
  simpa [split] using kept

theorem rdropWhile_eq_self_of_last {values : List α}
    (last : ∀ init x, values = init ++ [x] → p x = false) : values.rdropWhile p = values := by
  cases values using List.reverseRecOn with
  | nil => simp
  | append_singleton init x =>
      exact List.rdropWhile_concat_neg p _ _ (by simp [last init x rfl])

theorem rdropWhile_head {values : List α} {x : α} {rest : List α}
    (split : values.rdropWhile p = x :: rest) : ∃ rest', values = x :: rest' := by
  obtain ⟨trailing, shape, _⟩ := rdropWhile_append_trailing p values
  exact ⟨rest ++ trailing, by rw [shape, split]; rfl⟩

theorem trimBy_head_not {values : List α} {x : α} {rest : List α}
    (split : trimBy p values = x :: rest) : p x = false := by
  obtain ⟨rest', shape⟩ := rdropWhile_head p split
  exact dropWhile_head_not p shape

theorem trimBy_last_not {values : List α} {init : List α} {x : α}
    (split : trimBy p values = init ++ [x]) : p x = false :=
  rdropWhile_last_not p split

theorem trimBy_eq_self {values : List α}
    (head : ∀ x rest, values = x :: rest → p x = false)
    (last : ∀ init x, values = init ++ [x] → p x = false) : trimBy p values = values := by
  rw [trimBy, dropWhile_eq_self_of_head p head, rdropWhile_eq_self_of_last p last]

@[simp] theorem trimBy_idempotent (values : List α) :
    trimBy p (trimBy p values) = trimBy p values :=
  trimBy_eq_self p (fun _ _ split => trimBy_head_not p split)
    (fun _ _ split => trimBy_last_not p split)

theorem trimBy_eq_rdropWhile_of_head {values : List α}
    (head : values.dropWhile p = values) : trimBy p values = values.rdropWhile p := by
  rw [trimBy, head]

theorem trimBy_eq_self_iff {values : List α} :
    trimBy p values = values ↔ values.dropWhile p = values ∧ values.rdropWhile p = values := by
  constructor
  · intro same
    constructor
    · exact dropWhile_eq_self_of_head p fun x rest split =>
        trimBy_head_not p (same.trans split)
    · exact rdropWhile_eq_self_of_last p fun init x split =>
        trimBy_last_not p (same.trans split)
  · rintro ⟨left, right⟩
    rw [trimBy, left, right]

theorem trimBy_length_le (values : List α) : (trimBy p values).length ≤ values.length := by
  obtain ⟨leading, trailing, split, -, -⟩ := trimBy_split p values
  have lengths := congrArg List.length split
  simp only [List.length_append] at lengths
  omega

theorem trimBy_eq_self_of_length {values : List α}
    (long : values.length ≤ (trimBy p values).length) : trimBy p values = values := by
  obtain ⟨leading, trailing, split, -, -⟩ := trimBy_split p values
  have lengths := congrArg List.length split
  simp only [List.length_append] at lengths
  have noLeading : leading = [] := List.length_eq_zero_iff.mp (by omega)
  have noTrailing : trailing = [] := List.length_eq_zero_iff.mp (by omega)
  simpa [noLeading, noTrailing] using split.symm

theorem trimBy_eq_nil_iff {values : List α} :
    trimBy p values = [] ↔ ∀ x ∈ values, p x = true := by
  constructor
  · intro empty x member
    obtain ⟨leading, trailing, shape, leadingBlank, trailingBlank⟩ := trimBy_split p values
    rw [shape, empty] at member
    simp only [List.append_nil, List.mem_append] at member
    exact member.elim (leadingBlank x) (trailingBlank x)
  · intro blank
    have dropped : values.dropWhile p = [] := by
      simpa using blank
    simp [trimBy, dropped]

end Trim

section Segment

variable {α : Type} (separator : α)

/-- `key` is `root` itself or lies strictly below it across a separator. -/
def SegmentUnder (root key : List α) : Prop :=
  key = root ∨ root ++ [separator] <+: key

variable {separator}

theorem SegmentUnder.refl (root : List α) : SegmentUnder separator root root :=
  .inl rfl

theorem SegmentUnder.descend {root key : List α} (under : SegmentUnder separator root key)
    (rest : List α) : root ++ [separator] <+: key ++ separator :: rest := by
  rcases under with rfl | below
  · exact ⟨rest, by simp⟩
  · exact below.trans (List.prefix_append ..)

theorem SegmentUnder.of_descend {root key : List α} (rest : List α)
    (under : SegmentUnder separator root key) :
    SegmentUnder separator root (key ++ separator :: rest) :=
  .inr (under.descend rest)

theorem SegmentUnder.isPrefix {root key : List α} (under : SegmentUnder separator root key) :
    root <+: key := by
  rcases under with rfl | below
  · exact List.prefix_rfl
  · exact (List.prefix_append ..).trans below

end Segment

end S3Manager.Library
