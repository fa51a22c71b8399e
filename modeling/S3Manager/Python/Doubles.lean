import S3Manager.Python.Text

/-! Doubles that come from a natural number, and from one divided by a power of two: how they are
rounded, and the texts of `repr` and `f"{value:.1f}"`. A quotient `size / scale` stands for the
double, which is exact because the division only moves the exponent. -/

set_option autoImplicit false

namespace S3Manager.Python

/-- The natural number next to `count / unit`, and of two the even one. -/
def roundHalfEven (count unit : Nat) : Nat :=
  let whole := count / unit
  let twice := 2 * (count % unit)
  if twice < unit ∨ (twice = unit ∧ whole % 2 = 0) then whole else whole + 1

/-- `float(size)`: a double has 53 bits. Sizes from 2 ^ 1024 on, which have none, do not occur. -/
def double (size : Nat) : Nat :=
  let step := Nat.pow 2 (size.log2 - 52)
  roundHalfEven size step * step

section Rounding

variable {count unit size : Nat}

/-- At most half a unit away. -/
theorem roundHalfEven_near (positive : 0 < unit) :
    2 * (roundHalfEven count unit * unit) ≤ 2 * count + unit ∧
      2 * count ≤ 2 * (roundHalfEven count unit * unit) + unit := by
  have parts : unit * (count / unit) + count % unit = count := Nat.div_add_mod count unit
  have small : count % unit < unit := Nat.mod_lt count positive
  dsimp only [roundHalfEven]
  split_ifs with down
  · rw [Nat.mul_comm (count / unit)]
    omega
  · rw [Nat.add_mul, Nat.mul_comm (count / unit)]
    omega

@[simp] theorem roundHalfEven_one : roundHalfEven count 1 = count := by
  simp [roundHalfEven, Nat.mod_one]

theorem double_near :
    2 * double size ≤ 2 * size + Nat.pow 2 (size.log2 - 52) ∧
      2 * size ≤ 2 * double size + Nat.pow 2 (size.log2 - 52) :=
  roundHalfEven_near (Nat.two_pow_pos _)

/-- A size of 53 bits is a double itself. -/
theorem double_small (small : size < Nat.pow 2 53) : double size = size := by
  have few : size.log2 - 52 = 0 := by
    rcases Nat.eq_zero_or_pos size with rfl | positive
    · rfl
    · have := (Nat.log2_lt positive.ne').mpr small
      omega
  simp [double, few]

end Rounding

/-- `f"{value:.1f}"` -/
def oneDecimal (size scale : Nat) : Str :=
  let tenths := roundHalfEven (10 * size) scale
  lit (toString (tenths / 10)) ++ '.' :: lit (toString (tenths % 10))

section Shortest

variable (size scale : Nat)

/-- Whether `digits * 10 ^ exponent` is read as the double `size / scale`: it is nearer to it than
to the doubles beside it, or as near and its last bit is zero. Both sides are taken times
`scale * 2 ^ 54`; below a power of two the doubles are closer together. -/
def readsAs (digits : Nat) (exponent : Int) : Bool :=
  let fine := Nat.pow 2 54
  let shown := digits * Nat.pow 10 exponent.toNat * (scale * fine)
  let unit := Nat.pow 10 (-exponent).toNat
  let above := Nat.pow 2 (size.log2 + 1)
  let below := if size = Nat.pow 2 size.log2 then above / 2 else above
  let low := (size * fine - below) * unit
  let high := (size * fine + above) * unit
  let even := size.log2 < 52 || (size / Nat.pow 2 (size.log2 - 52)) % 2 == 0
  low < shown && shown < high || even && (shown == low || shown == high)

/-- The exponent of the first decimal digit of `size / scale`. -/
def decimalPlace : Int :=
  if scale ≤ size then ((Nat.toDigits 10 (size / scale)).length : Int) - 1
  else
    -- The smallest power of ten that takes the quotient to one or above.
    -((((List.range 400).find? fun power => decide (scale ≤ size * Nat.pow 10 power)).getD 0 : Nat) : Int)

/-- The shortest decimal that is read as the double, and of two the nearer one: 17 digits are
always enough. Above a power of two the doubles are wider apart, so that the next decimal may be
read as the double where the nearest is not. -/
def shortest : Nat × Int :=
  let decimals := (List.range 17).flatMap fun count =>
    let exponent := decimalPlace size scale - count
    let nearest :=
      roundHalfEven (size * Nat.pow 10 (-exponent).toNat) (scale * Nat.pow 10 exponent.toNat)
    [(nearest, exponent), (nearest + 1, exponent)]
  (decimals.find? fun decimal => readsAs size scale decimal.1 decimal.2).getD (0, 0)

/-- `repr` of the double `size / scale` -/
def floatRepr : Str :=
  if size = 0 then lit "0.0"
  else
    let (number, exponent) := shortest size scale
    let written := Nat.toDigits 10 number
    let point : Int := written.length + exponent
    let digits := (written.reverse.dropWhile fun c => c == '0').reverse
    if point ≤ -4 ∨ 16 < point then
      let fraction := if digits.length = 1 then [] else '.' :: digits.drop 1
      let power := Nat.toDigits 10 (point - 1).natAbs
      digits.take 1 ++ fraction ++ 'e' :: (if point - 1 < 0 then '-' else '+') ::
        (List.replicate (2 - power.length) '0' ++ power)
    else if point ≤ 0 then lit "0." ++ List.replicate (-point).toNat '0' ++ digits
    else
      let whole := digits.take point.toNat
      let fraction := digits.drop point.toNat
      whole ++ List.replicate (point.toNat - whole.length) '0' ++ '.' ::
        (if fraction.isEmpty then ['0'] else fraction)

end Shortest

example : floatRepr 104857601 1048576 = lit "100.00000095367432" := by decide +kernel

end S3Manager.Python
