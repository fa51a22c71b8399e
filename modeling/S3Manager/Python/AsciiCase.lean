import S3Manager.Python.Text

/-! Small letters in ASCII: what `Char.toLower` does to code points, blanks and texts. -/

set_option autoImplicit false

namespace S3Manager.Python

open Library

theorem toLower_toNat (c : Char) :
    c.toLower.toNat = if 65 ≤ c.toNat ∧ c.toNat ≤ 90 then c.toNat + 32 else c.toNat := by
  by_cases upper : c.val ≥ 'A'.val ∧ c.val ≤ 'Z'.val
  · have low : 65 ≤ c.toNat := upper.1
    have high : c.toNat ≤ 90 := upper.2
    have shifted : c.toLower.val = c.val + ('a'.val - 'A'.val) :=
      congrArg Char.val (dif_pos upper)
    rw [if_pos ⟨low, high⟩]
    show c.toLower.val.toNat = c.val.toNat + 32
    rw [shifted, UInt32.toNat_add]
    have high : c.val.toNat ≤ 90 := high
    have offset : ('a'.val - 'A'.val).toNat = 32 := by decide
    omega
  · have outside : ¬ (65 ≤ c.toNat ∧ c.toNat ≤ 90) := upper
    have kept : c.toLower = c := dif_neg upper
    rw [kept, if_neg outside]

theorem isSpace_toLower (c : Char) : isSpace c.toLower = isSpace c := by
  have value := toLower_toNat c
  split at value
  · next upper =>
      have notBefore : isSpace c = false := by
        simp only [isSpace, Bool.or_eq_false_iff, Bool.and_eq_false_iff, decide_eq_false_iff_not,
          beq_eq_false_iff_ne]
        omega
      rw [notBefore]
      simp only [isSpace, Bool.or_eq_false_iff, Bool.and_eq_false_iff, decide_eq_false_iff_not,
        beq_eq_false_iff_ne]
      omega
  · rw [Char.toNat_inj.mp value]

theorem toLower_toLower (c : Char) : c.toLower.toLower = c.toLower := by
  have once := toLower_toNat c
  have twice := toLower_toNat c.toLower
  apply Char.toNat_inj.mp
  split at once <;> split at twice <;> omega

theorem toLower_dot {c : Char} (dot : c.toLower = '.') : c = '.' := by
  have value := toLower_toNat c
  rw [dot] at value
  apply Char.toNat_inj.mp
  have code : '.'.toNat = 46 := rfl
  split at value <;> omega

theorem toLower_of_small {c : Char} (outside : c.toNat < 65 ∨ 90 < c.toNat) : c.toLower = c := by
  have value := toLower_toNat c
  apply Char.toNat_inj.mp
  split at value <;> omega

theorem ascii_of_toLower {c : Char} (lower : c.toLower.toNat < 128) : c.toNat < 128 := by
  have value := toLower_toNat c
  split at value <;> omega

theorem strip_map_toLower (text : Str) :
    strip (text.map Char.toLower) = (strip text).map Char.toLower := by
  have same : (isSpace ∘ Char.toLower) = isSpace := funext isSpace_toLower
  simp only [strip, trimBy, List.rdropWhile, List.dropWhile_map, ← List.map_reverse, same]
end S3Manager.Python
