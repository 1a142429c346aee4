import Mathlib.Algebra.Group.Nat.Defs

/-
  This file defines the machine arithmetic of the engine: the
  plain operators, which panic on overflow in one build
  profile and wrap in the other, the saturating operators,
  and the widened 128-bit ones.

  Key definitions include:
    * `BuildProfile`
    * `BuildProfile.add`
    * `BuildProfile.mul`
    * `saturatingAdd`
    * `saturatingSub`
    * `U128.saturatingMul`
-/

------------------------------------------------------------
-- Plain Operators
------------------------------------------------------------

namespace Pumpy

/- `dev` checks plain arithmetic for overflow, `release` wraps. -/
inductive BuildProfile where
  | dev : BuildProfile
  | release : BuildProfile
deriving DecidableEq, Repr

namespace BuildProfile

/- What a plain `u64` operator gives for the exact result `n`; `none` is a panic. -/
def u64
    (profile : BuildProfile)
    (n : Nat) : Option UInt64 :=
  if n < 2 ^ 64 then
    some (UInt64.ofNat n)
  else
    match profile with
    | dev => none
    | release => some (UInt64.ofNat n)

/- `a + b` on `u64`. -/
def add
    (profile : BuildProfile)
    (a b : UInt64) : Option UInt64 :=
  profile.u64 (a.toNat + b.toNat)

/- `a * b` on `u64`. -/
def mul
    (profile : BuildProfile)
    (a b : UInt64) : Option UInt64 :=
  profile.u64 (a.toNat * b.toNat)

/- What a plain `u32` operator gives for the exact result `n`. -/
def u32
    (profile : BuildProfile)
    (n : Nat) : Option UInt32 :=
  if n < 2 ^ 32 then
    some (UInt32.ofNat n)
  else
    match profile with
    | dev => none
    | release => some (UInt32.ofNat n)

/- A result in range is exact in both profiles. -/
theorem u64_of_lt
    (profile : BuildProfile)
    {n : Nat}
    (hLt : n < 2 ^ 64) :
    profile.u64 n = some (UInt64.ofNat n) := by
  unfold u64
  rw [if_pos hLt]

end BuildProfile

------------------------------------------------------------
-- Saturating and Widened Operators
------------------------------------------------------------

/- `a.saturating_add(b)` on `u64`. -/
def saturatingAdd (a b : UInt64) : UInt64 :=
  UInt64.ofNat (min (a.toNat + b.toNat) (2 ^ 64 - 1))

/- `a.saturating_sub(b)` on `u64`. -/
def saturatingSub (a b : UInt64) : UInt64 :=
  UInt64.ofNat (a.toNat - b.toNat)

/- `u64::MAX`. -/
def u64Max : UInt64 :=
  UInt64.ofNat (2 ^ 64 - 1)

namespace U128

/- `a.saturating_mul(b)` on `u128`. -/
def saturatingMul (a b : Nat) : Nat :=
  min (a * b) (2 ^ 128 - 1)

/- `a.saturating_add(b)` on `u128`. -/
def saturatingAdd (a b : Nat) : Nat :=
  min (a + b) (2 ^ 128 - 1)

/- `a + b` on `u128`, where it does not overflow. -/
def add (a b : Nat) : Option Nat :=
  if a + b < 2 ^ 128 then some (a + b) else none

/- `a - b` on `u128`, where it does not underflow. -/
def sub (a b : Nat) : Option Nat :=
  if b ≤ a then some (a - b) else none

/- `a / b` on `u128`, where `b` is not zero. -/
def div (a b : Nat) : Option Nat :=
  if b = 0 then none else some (a / b)

/- `n as u64`, where it does not truncate. -/
def toU64 (n : Nat) : Option UInt64 :=
  if n < 2 ^ 64 then some (UInt64.ofNat n) else none

/- `n.min(u64::MAX as u128) as u64`. -/
def clampToU64 (n : Nat) : UInt64 :=
  UInt64.ofNat (min n (2 ^ 64 - 1))

end U128

end Pumpy
