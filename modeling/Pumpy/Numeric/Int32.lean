import Mathlib.Algebra.Order.Ring.Int
import Mathlib.Data.Nat.Digits.Defs

/-
  The bit operations of JavaScript on numbers that are whole:
  an operand is taken modulo `2 ^ 32` into the signed range
  before the operation.

  Key definitions include:
    * `toInt32`
    * `shiftLeft`
    * `shiftRight`
    * `bitAnd`
-/

------------------------------------------------------------
-- Operations
------------------------------------------------------------

namespace Js

/- `ToInt32(x)`, as the 32 bits of the result. -/
def toInt32 (x : ℤ) : BitVec 32 :=
  BitVec.ofInt 32 x

/- `x << k`, for `k < 32`. -/
def shiftLeft (x : ℤ) (k : Nat) : ℤ :=
  (toInt32 x <<< k).toInt

/- `x >> k`, for `k < 32`. -/
def shiftRight (x : ℤ) (k : Nat) : ℤ :=
  ((toInt32 x).sshiftRight k).toInt

/- `x & y`. -/
def bitAnd (x y : ℤ) : ℤ :=
  (toInt32 x &&& toInt32 y).toInt

------------------------------------------------------------
-- Small Operands
------------------------------------------------------------

theorem toInt32_toNat
    {n : Nat}
    (hSmall : n < 2 ^ 32) :
    (toInt32 n).toNat = n := by
  simpa [toInt32] using Nat.mod_eq_of_lt hSmall

theorem toInt_of_small
    {w : BitVec 32}
    (hSmall : w.toNat < 2 ^ 31) :
    w.toInt = w.toNat := by
  rw [BitVec.toInt_eq_toNat_cond, if_pos (by omega)]

theorem shiftLeft_ofNat
    {n k : Nat}
    (hSmall : n * 2 ^ k < 2 ^ 31) :
    shiftLeft n k = (n * 2 ^ k : Nat) := by
  have hOperand : n < 2 ^ 32 := by
    have := Nat.le_mul_of_pos_right n (Nat.two_pow_pos k)
    omega
  have hBits : (toInt32 n <<< k).toNat = n * 2 ^ k := by
    rw [BitVec.toNat_shiftLeft, toInt32_toNat hOperand,
      Nat.shiftLeft_eq, Nat.mod_eq_of_lt (by omega)]
  rw [shiftLeft, toInt_of_small (by omega), hBits]

theorem shiftRight_ofNat
    {n : Nat}
    (hSmall : n < 2 ^ 31)
    (k : Nat) :
    shiftRight n k = (n / 2 ^ k : Nat) := by
  have hBits : (toInt32 n).toInt = n := by
    rw [toInt_of_small, toInt32_toNat (by omega)]
    rw [toInt32_toNat (by omega)]
    exact hSmall
  rw [shiftRight, BitVec.toInt_sshiftRight, hBits,
    Int.shiftRight_eq_div_pow]
  norm_cast

theorem bitAnd_ofNat
    {n k : Nat}
    (hSmall : n < 2 ^ 32)
    (hMask : k < 32) :
    bitAnd n (2 ^ k - 1 : Nat) = (n % 2 ^ k : Nat) := by
  have hPow : 2 ^ k ≤ 2 ^ 31 :=
    Nat.pow_le_pow_right (by omega) (by omega)
  have hBits :
      (toInt32 n &&& toInt32 (2 ^ k - 1 : Nat)).toNat =
        n % 2 ^ k := by
    rw [BitVec.toNat_and, toInt32_toNat hSmall,
      toInt32_toNat (by omega), Nat.and_two_pow_sub_one_eq_mod]
  have hLess : n % 2 ^ k < 2 ^ k :=
    Nat.mod_lt n (Nat.two_pow_pos k)
  rw [bitAnd, toInt_of_small (by omega), hBits]

/- A shift to the right makes a positive number smaller. -/
theorem shiftRight_lt
    {x : ℤ}
    {k : Nat}
    (hPos : 0 < x)
    (hShift : 0 < k) :
    (shiftRight x k).toNat < x.toNat := by
  have hPow : 2 ^ 1 ≤ 2 ^ k :=
    Nat.pow_le_pow_right (by omega) hShift
  have hTwo : 2 ≤ (2 : ℤ) ^ k := by
    exact_mod_cast hPow
  have hWrap : (toInt32 x).toInt ≤ x := by
    rw [toInt32, BitVec.toInt_ofInt, Int.bmod_def]
    split <;> omega
  rw [shiftRight, BitVec.toInt_sshiftRight,
    Int.shiftRight_eq_div_pow]
  by_cases hSign : 0 < (toInt32 x).toInt
  · have hHalf : (toInt32 x).toInt / (2 : ℤ) ^ k <
        (toInt32 x).toInt :=
      Int.ediv_lt_self_of_pos_of_ne_one hSign (by omega)
    push_cast
    omega
  · have hHalf : (toInt32 x).toInt / (2 : ℤ) ^ k ≤ 0 :=
      Int.ediv_nonpos_of_nonpos_of_neg (by omega) (by omega)
    push_cast
    omega

end Js
