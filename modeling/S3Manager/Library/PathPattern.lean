import Mathlib.Data.List.Infix

/-! Path patterns of a router: literal text, a parameter for one segment, and a parameter for
the rest of the path. They are regular expressions that end with `$`, which also stands before
a newline at the end, and whose `.*` stops at newlines. -/

set_option autoImplicit false

namespace S3Manager.Library

inductive PathPiece where
  | literal (text : List Char)
  | segment
  | rest
  deriving DecidableEq

abbrev PathPattern := List PathPiece

namespace PathPattern

/-- The pattern matches the whole path. -/
def accepts : PathPattern → List Char → Bool
  | [], path => path.isEmpty || path == ['\n']
  | .literal text :: pieces, path =>
      text.isPrefixOf path && accepts pieces (path.drop text.length)
  | .segment :: pieces, path => (List.range path.length).any fun count =>
      !(path.take (count + 1)).contains '/' && accepts pieces (path.drop (count + 1))
  | .rest :: pieces, path => (List.range (path.length + 1)).any fun count =>
      !(path.take count).contains '\n' && accepts pieces (path.drop count)

variable {pieces : PathPattern} {text path : List Char}

theorem accepts_nil_iff : accepts [] path = true ↔ path = [] ∨ path = ['\n'] := by
  simp [accepts]

theorem accepts_literal_iff : accepts (.literal text :: pieces) path = true ↔
    ∃ later, path = text ++ later ∧ accepts pieces later = true := by
  simp only [accepts, Bool.and_eq_true, List.isPrefixOf_iff_prefix]
  constructor
  · rintro ⟨⟨later, rfl⟩, accepted⟩
    rw [List.drop_left] at accepted
    exact ⟨later, rfl, accepted⟩
  · rintro ⟨later, rfl, accepted⟩
    rw [List.drop_left]
    exact ⟨List.prefix_append text later, accepted⟩

theorem accepts_segment_iff : accepts (.segment :: pieces) path = true ↔
    ∃ name later, path = name ++ later ∧ name ≠ [] ∧ '/' ∉ name ∧
      accepts pieces later = true := by
  simp only [accepts, List.any_eq_true, List.mem_range, Bool.and_eq_true, Bool.not_eq_true',
    ← Bool.not_eq_true, List.contains_iff_mem]
  constructor
  · rintro ⟨count, room, clean, accepted⟩
    refine ⟨_, _, (List.take_append_drop (count + 1) path).symm, ?_, clean, accepted⟩
    rw [Ne, List.take_eq_nil_iff, not_or]
    exact ⟨Nat.succ_ne_zero count, List.ne_nil_of_length_pos (by omega)⟩
  · rintro ⟨name, later, rfl, some_, clean, accepted⟩
    obtain ⟨count, size⟩ := Nat.exists_eq_succ_of_ne_zero (mt List.length_eq_zero_iff.mp some_)
    refine ⟨count, ?_, ?_, ?_⟩
    · rw [List.length_append]
      omega
    · rwa [← Nat.succ_eq_add_one, ← size, List.take_left]
    · rwa [← Nat.succ_eq_add_one, ← size, List.drop_left]

theorem accepts_rest_iff : accepts (.rest :: pieces) path = true ↔
    ∃ front later, path = front ++ later ∧ '\n' ∉ front ∧ accepts pieces later = true := by
  simp only [accepts, List.any_eq_true, List.mem_range, Bool.and_eq_true, Bool.not_eq_true',
    ← Bool.not_eq_true, List.contains_iff_mem]
  constructor
  · rintro ⟨count, -, clean, accepted⟩
    exact ⟨_, _, (List.take_append_drop count path).symm, clean, accepted⟩
  · rintro ⟨front, later, rfl, clean, accepted⟩
    refine ⟨front.length, ?_, ?_, ?_⟩
    · rw [List.length_append]
      omega
    · rwa [List.take_left]
    · rwa [List.drop_left]

/-- A path of the form `/…`, with no newline but perhaps one at its end. -/
def Plain (path : List Char) : Prop :=
  ∃ text, '\n' ∉ text ∧ (path = '/' :: text ∨ path = '/' :: (text ++ ['\n']))

/-- A path of the form `before…after`, with a segment between that is not empty. -/
def Fits (before after path : List Char) : Prop :=
  ∃ name, name ≠ [] ∧ '/' ∉ name ∧
    (path = before ++ (name ++ after) ∨ path = before ++ (name ++ (after ++ ['\n'])))

theorem accepts_plain_iff : accepts [.literal ['/'], .rest] path = true ↔ Plain path := by
  simp only [accepts_literal_iff, accepts_rest_iff, accepts_nil_iff]
  constructor
  · rintro ⟨_, rfl, text, _, rfl, clean, rfl | rfl⟩
    · exact ⟨text, clean, .inl (by simp)⟩
    · exact ⟨text, clean, .inr rfl⟩
  · rintro ⟨text, clean, rfl | rfl⟩
    · exact ⟨text, rfl, text, [], by simp, clean, .inl rfl⟩
    · exact ⟨text ++ ['\n'], rfl, text, ['\n'], rfl, clean, .inr rfl⟩

theorem accepts_fits_iff {before after : List Char} :
    accepts [.literal before, .segment, .literal after] path = true ↔ Fits before after path := by
  simp only [accepts_literal_iff, accepts_segment_iff, accepts_nil_iff]
  constructor
  · rintro ⟨_, rfl, name, _, rfl, some_, clean, _, rfl, rfl | rfl⟩
    · exact ⟨name, some_, clean, .inl (by simp)⟩
    · exact ⟨name, some_, clean, .inr rfl⟩
  · rintro ⟨name, some_, clean, rfl | rfl⟩
    · exact ⟨_, rfl, name, after, rfl, some_, clean, [], by simp, .inl rfl⟩
    · exact ⟨_, rfl, name, _, rfl, some_, clean, ['\n'], rfl, .inr rfl⟩

theorem accepts_text_iff : accepts [.literal text] path = true ↔
    path = text ∨ path = text ++ ['\n'] := by
  simp only [accepts_literal_iff, accepts_nil_iff]
  constructor
  · rintro ⟨_, rfl, rfl | rfl⟩
    · exact .inl (List.append_nil _)
    · exact .inr rfl
  · rintro (rfl | rfl)
    · exact ⟨[], (List.append_nil _).symm, .inl rfl⟩
    · exact ⟨['\n'], rfl, .inr rfl⟩

end PathPattern

end S3Manager.Library
