import S3Manager.Python.Error

/-! The sanitizers of `utils.py` that stand between a request and S3. -/

set_option autoImplicit false

namespace S3Manager.Utils

open Python Library

/-- `sanitize_path`: blanks are trimmed before the traversal check, slashes
after it, and the trimming is not repeated. -/
def sanitizePath (path : Str) : Result Str :=
  if path.isEmpty then .ok []
  else
    let path := strip path
    if containsSub path ['.', '.'] || startsWith path ['/'] then
      raise .valueError (lit "Invalid path: path traversal not allowed")
    else
      let path := stripSlash path
      if path.any isControl then
        raise .valueError (lit "Invalid path: contains invalid characters")
      else .ok path

def sanitizeSearchPrefix (term : Str) : Result Str :=
  if term.isEmpty then .ok []
  else
    let term := strip term
    if term.isEmpty then .ok []
    else if term.any isControl then
      raise .valueError (lit "Invalid search: control characters not allowed")
    else .ok term

section Bucket

def isBucketAlnum (c : Char) : Bool :=
  ('a' ≤ c && c ≤ 'z') || ('0' ≤ c && c ≤ '9')

/-- The pattern `^[a-z0-9][a-z0-9\-\.]*[a-z0-9]$|^[a-z0-9]$`. -/
def matchesBucketPattern (s : Str) : Bool :=
  s.all (fun c => isBucketAlnum c || c == '-' || c == '.') &&
    (s.head?.any isBucketAlnum) && (s.getLast?.any isBucketAlnum)

variable (unicode : Unicode)

def sanitizeBucketName (bucketName : Str) : Result Str :=
  if bucketName.isEmpty then raise .valueError (lit "Bucket name cannot be empty")
  else
    let bucketName := strip bucketName
    if bucketName.length < 3 || bucketName.length > 63 then
      raise .valueError (lit "Bucket name must be between 3 and 63 characters")
    else if !matchesBucketPattern (unicode.lower bucketName) then
      raise .valueError (lit "Invalid bucket name format")
    else .ok (unicode.lower bucketName)

end Bucket

section PathLaws

theorem sanitizePath_eq_ok_iff {path key : Str} (nonempty : path ≠ []) :
    sanitizePath path = .ok key ↔
      ¬ ['.', '.'] <:+: strip path ∧ (∀ rest, strip path ≠ '/' :: rest) ∧
        key = rstripSlash (strip path) ∧ ∀ c ∈ key, isControl c = false := by
  have shown : path.isEmpty = false := by simpa using nonempty
  simp only [sanitizePath, shown, Bool.false_eq_true, if_false]
  by_cases dots : ['.', '.'] <:+: strip path
  · have found : containsSub (strip path) ['.', '.'] = true := containsSub_iff.mpr dots
    simp only [found, Bool.true_or, if_true, raise, reduceCtorEq, false_iff]
    exact fun claim => claim.1 dots
  by_cases absolute : ∃ rest, strip path = '/' :: rest
  · have starts : startsWith (strip path) ['/'] = true := startsWith_slash_iff.mpr absolute
    obtain ⟨rest, shape⟩ := absolute
    simp only [starts, Bool.or_true, if_true, raise, reduceCtorEq, false_iff]
    exact fun claim => claim.2.1 rest shape
  · have relative : ∀ rest, strip path ≠ '/' :: rest := by simpa using absolute
    have starts : startsWith (strip path) ['/'] = false := by
      rw [← Bool.not_eq_true]
      exact fun found => absolute (startsWith_slash_iff.mp found)
    have dotless : containsSub (strip path) ['.', '.'] = false := by
      rw [← Bool.not_eq_true, containsSub_iff]
      exact dots
    rw [dotless, starts, stripSlash_of_head relative]
    by_cases control : (rstripSlash (strip path)).any isControl
    · obtain ⟨c, member, bad⟩ := List.any_eq_true.mp control
      simp only [Bool.or_self, Bool.false_eq_true, if_false, control, if_true, raise,
        reduceCtorEq, false_iff]
      rintro ⟨-, -, rfl, clean⟩
      exact absurd bad (by simp [clean c member])
    · have clean : ∀ c ∈ rstripSlash (strip path), isControl c = false := by
        simpa using control
      simp only [Bool.or_self, Bool.false_eq_true, if_false, control, Except.ok.injEq]
      constructor
      · rintro rfl
        exact ⟨dots, relative, rfl, clean⟩
      · rintro ⟨-, -, rfl, -⟩
        rfl

@[simp] theorem sanitizePath_nil : sanitizePath [] = .ok [] := rfl

theorem sanitizePath_last {path key : Str} (accepted : sanitizePath path = .ok key) (init : Str) :
    key ≠ init ++ ['/'] := by
  by_cases nonempty : path = []
  · subst nonempty
    obtain rfl : ([] : Str) = key := by simpa using accepted
    simp
  · obtain ⟨-, -, rfl, -⟩ := (sanitizePath_eq_ok_iff nonempty).mp accepted
    exact rstripSlash_last

theorem sanitizePath_head {path key : Str} (accepted : sanitizePath path = .ok key)
    {c : Char} {rest : Str} (split : key = c :: rest) : isSpace c = false ∧ c ≠ '/' := by
  by_cases nonempty : path = []
  · subst nonempty
    obtain rfl : ([] : Str) = key := by simpa using accepted
    simp at split
  · obtain ⟨-, relative, shape, -⟩ := (sanitizePath_eq_ok_iff nonempty).mp accepted
    obtain ⟨rest', full⟩ := rdropWhile_head isSlash (shape.symm.trans split)
    refine ⟨trimBy_head_not isSpace full, ?_⟩
    rintro rfl
    exact relative rest' full

end PathLaws

end S3Manager.Utils
