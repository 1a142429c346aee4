import Mathlib.Algebra.Order.Archimedean.Basic
import Mathlib.Data.Int.Log
import Mathlib.Data.Rat.Floor

/-
  This file defines IEEE-754 binary64 numbers by their values:
  a finite number is the rational it denotes, and every
  operation is the exact one followed by rounding to nearest,
  ties to even.  The two zeros are one value here, since no
  comparison tells them apart.

  Key definitions include:
    * `F64`
    * `F64.round`
    * `F64.add`
    * `F64.sub`
    * `F64.mul`
    * `F64.div`
    * `F64.max`
    * `F64.gt`
    * `F64.toUInt64`
-/

------------------------------------------------------------
-- Values and Rounding
------------------------------------------------------------

/- A binary64 number. -/
inductive F64 where
  | nan : F64
  | inf (neg : Bool) : F64
  | fin (q : ℚ) : F64
deriving DecidableEq

namespace F64

/- The integer nearest to `q`, the even one of two. -/
def roundHalfEven (q : ℚ) : ℤ :=
  let f := ⌊q⌋
  if q - f < 1 / 2 then
    f
  else if 1 / 2 < q - f then
    f + 1
  else if f % 2 = 0 then
    f
  else
    f + 1

/-
  The exponent of the last place of the binary64 numbers next
  to `q`, subnormals included.
-/
def ulpExponent (q : ℚ) : ℤ :=
  Max.max (Int.log 2 |q| - 52) (-1074)

/- The binary64 number nearest to `q`. -/
def round (q : ℚ) : F64 :=
  let ulp : ℚ := 2 ^ ulpExponent q
  let v : ℚ := roundHalfEven (q / ulp) * ulp
  if (2 : ℚ) ^ (1024 : ℤ) ≤ |v| then
    .inf (v < 0)
  else
    .fin v

/- `n as f64`. -/
def ofNat (n : Nat) : F64 :=
  round n

------------------------------------------------------------
-- Operations
------------------------------------------------------------

/- `-x`. -/
def neg : F64 → F64
  | .nan => .nan
  | .inf s => .inf !s
  | .fin q => .fin (-q)

/- `x + y`. -/
def add : F64 → F64 → F64
  | .nan, _ => .nan
  | _, .nan => .nan
  | .inf s, .inf t => if s = t then .inf s else .nan
  | .inf s, .fin _ => .inf s
  | .fin _, .inf t => .inf t
  | .fin p, .fin q => round (p + q)

/- `x - y`. -/
def sub (x y : F64) : F64 :=
  x.add y.neg

/- `x * y`. -/
def mul : F64 → F64 → F64
  | .nan, _ => .nan
  | _, .nan => .nan
  | .inf s, .inf t => .inf (s != t)
  | .inf s, .fin q =>
      if q = 0 then .nan else .inf (s != decide (q < 0))
  | .fin p, .inf t =>
      if p = 0 then .nan else .inf (decide (p < 0) != t)
  | .fin p, .fin q => round (p * q)

/- `x / d` for a divisor that is a nonzero constant of the program. -/
def divConst : F64 → ℚ → F64
  | .nan, _ => .nan
  | .inf s, d => .inf (s != decide (d < 0))
  | .fin p, d => round (p / d)

/- `x > y`; false as soon as one side is not a number. -/
def gt : F64 → F64 → Bool
  | .nan, _ => false
  | _, .nan => false
  | .inf s, .inf t => !s && t
  | .inf s, .fin _ => !s
  | .fin _, .inf t => t
  | .fin p, .fin q => decide (q < p)

/- `f64::max`: a number wins over `NaN`. -/
def max (x y : F64) : F64 :=
  match x, y with
  | .nan, y => y
  | x, .nan => x
  | x, y => if y.gt x then y else x

/- `x as u64`: truncated, saturating, `NaN` to zero. -/
def toUInt64 : F64 → UInt64
  | .nan => 0
  | .inf true => 0
  | .inf false => UInt64.ofNat (2 ^ 64 - 1)
  | .fin q => UInt64.ofNat (Min.min ⌊q⌋.toNat (2 ^ 64 - 1))

/- The sum of a sequence, from the left. -/
def sum (xs : List F64) : F64 :=
  xs.foldl add (.fin 0)

@[simp] theorem gt_fin (p q : ℚ) :
    (F64.fin p).gt (.fin q) = decide (q < p) :=
  rfl

/- Nothing finite passes a limit of `+∞`. -/
@[simp] theorem gt_posInf (x : F64) :
    x.gt (.inf false) = false := by
  cases x with
  | nan => rfl
  | inf s => simp [gt]
  | fin p => rfl

------------------------------------------------------------
-- Whole Numbers
------------------------------------------------------------

theorem roundHalfEven_intCast (n : ℤ) : roundHalfEven (n : ℚ) = n := by
  simp [roundHalfEven]

/- The last place of a number below `2 ^ 53` is no larger than one. -/
theorem ulpExponent_natCast
    {n : Nat}
    (hSmall : n < 2 ^ 53) :
    ∃ k : Nat, ulpExponent (n : ℚ) = -(k : ℤ) := by
  have hLog : (Nat.log 2 n : ℤ) < 53 := by
    rcases Nat.eq_zero_or_pos n with rfl | hPos
    · simp
    · exact_mod_cast Nat.log_lt_of_lt_pow (by omega) hSmall
  have hNonpos : ulpExponent (n : ℚ) ≤ 0 := by
    rw [ulpExponent, abs_of_nonneg (Nat.cast_nonneg n),
      Int.log_natCast]
    omega
  exact ⟨(-ulpExponent (n : ℚ)).toNat, by omega⟩

/- A natural number of at most 53 bits is a binary64 number. -/
theorem round_natCast
    {n : Nat}
    (hSmall : n < 2 ^ 53) :
    round (n : ℚ) = .fin n := by
  rcases ulpExponent_natCast hSmall with ⟨k, hUlp⟩
  have hPlaces :
      (n : ℚ) / 2 ^ ulpExponent (n : ℚ) =
        ((n * 2 ^ k : ℤ) : ℚ) := by
    rw [hUlp, zpow_neg, div_inv_eq_mul, zpow_natCast]
    push_cast
    rfl
  have hValue :
      ((n * 2 ^ k : ℤ) : ℚ) * 2 ^ ulpExponent (n : ℚ) = n := by
    rw [← hPlaces]
    exact div_mul_cancel₀ _ (zpow_ne_zero _ two_ne_zero)
  have hBelow : (n : ℚ) < 2 ^ (1024 : ℤ) := by
    calc (n : ℚ) < 2 ^ (53 : ℤ) := by exact_mod_cast hSmall
      _ ≤ 2 ^ (1024 : ℤ) :=
        zpow_le_zpow_right₀ one_le_two (by omega)
  rw [round, hPlaces, roundHalfEven_intCast, hValue,
    abs_of_nonneg (Nat.cast_nonneg n), if_neg (not_le.mpr hBelow)]

end F64
