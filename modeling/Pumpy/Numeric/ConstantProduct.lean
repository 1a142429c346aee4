import Mathlib.Algebra.Order.Floor.Div
import Mathlib.Tactic.Ring

/-
  Trades against two reserves whose product is kept, in whole
  numbers.  A deposit into one reserve is answered by what
  lets the other one fall to the product's quotient, rounded
  down; the cost of a withdrawal is rounded up.

  Key definitions include:
    * `proceeds`
    * `cost`

  The main results are `cost_le_iff`, `proceeds_of_cost_le`,
  `proceeds_of_lt_cost` and `product_le_iff`.
-/

------------------------------------------------------------
-- Trades
------------------------------------------------------------

namespace ConstantProduct

/- What a deposit of `s` into the reserve `x` takes out of `y`. -/
def proceeds (x y s : Nat) : Nat :=
  y - x * y / (x + s)

/- The deposit into the reserve `x` that takes `t` out of `y`. -/
def cost (x y t : Nat) : Nat :=
  (x * t + (y - t) - 1) / (y - t)

variable {x y s s' t t' : Nat}

------------------------------------------------------------
-- Proceeds
------------------------------------------------------------

theorem quotient_le
    (x y s : Nat) :
    x * y / (x + s) ≤ y := by
  apply Nat.div_le_of_le_mul
  exact Nat.mul_le_mul_right y (Nat.le_add_right x s)

theorem proceeds_le
    (x y s : Nat) :
    proceeds x y s ≤ y :=
  Nat.sub_le _ _

/- What stays in the reserve is the quotient. -/
theorem sub_proceeds
    (x y s : Nat) :
    y - proceeds x y s = x * y / (x + s) :=
  Nat.sub_sub_self (quotient_le x y s)

/- A larger deposit does not take out less. -/
theorem proceeds_mono
    (hPos : 0 < x + s)
    (hLe : s ≤ s') :
    proceeds x y s ≤ proceeds x y s' := by
  unfold proceeds
  have hQuotient : x * y / (x + s') ≤ x * y / (x + s) :=
    Nat.div_le_div_left (Nat.add_le_add_left hLe x) hPos
  omega

/- A deposit that pays for `t` takes out `t`. -/
theorem le_proceeds
    (hReserve : t ≤ y)
    (hPays : x * t ≤ (y - t) * s) :
    t ≤ proceeds x y s := by
  have hProduct : x * y ≤ (x + s) * (y - t) := by
    calc
      x * y = x * t + x * (y - t) := by
        rw [← Nat.mul_add, Nat.add_sub_cancel' hReserve]
      _ ≤ (y - t) * s + x * (y - t) :=
        Nat.add_le_add_right hPays _
      _ = (x + s) * (y - t) := by ring
  have hQuotient : x * y / (x + s) ≤ y - t :=
    Nat.div_le_of_le_mul hProduct
  unfold proceeds
  omega

/- A deposit that does not pay more than `t` takes out no more. -/
theorem proceeds_le_of
    (hPos : 0 < x + s)
    (hShort : (y - t) * s ≤ x * t) :
    proceeds x y s ≤ t := by
  by_cases hReserve : t ≤ y
  · have hProduct : (y - t) * (x + s) ≤ x * y := by
      calc
        (y - t) * (x + s) = (y - t) * s + x * (y - t) := by ring
        _ ≤ x * t + x * (y - t) := Nat.add_le_add_right hShort _
        _ = x * y := by
          rw [← Nat.mul_add, Nat.add_sub_cancel' hReserve]
    have hQuotient : y - t ≤ x * y / (x + s) :=
      (Nat.le_div_iff_mul_le hPos).mpr hProduct
    unfold proceeds
    omega
  · have hBound := proceeds_le x y s
    omega

------------------------------------------------------------
-- Costs
------------------------------------------------------------

/- A cost is covered by what pays for the withdrawal. -/
theorem cost_le_iff
    (hReserve : t < y) :
    cost x y t ≤ s ↔ x * t ≤ (y - t) * s := by
  have hPos : 0 < y - t := Nat.sub_pos_of_lt hReserve
  exact ceilDiv_le_iff_le_mul hPos

theorem cost_mono
    (hReserve : t' < y)
    (hLe : t ≤ t') :
    cost x y t ≤ cost x y t' := by
  refine (cost_le_iff (Nat.lt_of_le_of_lt hLe hReserve)).mpr ?_
  calc
    x * t ≤ x * t' := Nat.mul_le_mul_left x hLe
    _ ≤ (y - t') * cost x y t' :=
      (cost_le_iff hReserve).mp (Nat.le_refl _)
    _ ≤ (y - t) * cost x y t' :=
      Nat.mul_le_mul_right _ (Nat.sub_le_sub_left hLe y)

/- Who pays the cost takes out `t`. -/
theorem proceeds_of_cost_le
    (hReserve : t < y)
    (hCost : cost x y t ≤ s) :
    t ≤ proceeds x y s :=
  le_proceeds (Nat.le_of_lt hReserve)
    ((cost_le_iff hReserve).mp hCost)

/- Who pays less takes out no more. -/
theorem proceeds_of_lt_cost
    (hPos : 0 < x + s)
    (hReserve : t < y)
    (hCost : s < cost x y t) :
    proceeds x y s ≤ t := by
  have hShort : ¬x * t ≤ (y - t) * s := by
    rw [← cost_le_iff hReserve]
    exact Nat.not_le.mpr hCost
  exact proceeds_le_of hPos (Nat.le_of_lt (Nat.not_le.mp hShort))

/- What `t` yields on the way in is not more than it costs on the way out. -/
theorem proceeds_le_cost
    (hReserve : t < y) :
    proceeds y x t ≤ cost x y t := by
  apply proceeds_le_of (Nat.add_pos_left (Nat.zero_lt_of_lt hReserve) t)
  have hPays : x * t ≤ (y - t) * cost x y t :=
    (cost_le_iff hReserve).mp (Nat.le_refl _)
  calc
    (x - cost x y t) * t ≤ x * t :=
      Nat.mul_le_mul_right t (Nat.sub_le x _)
    _ ≤ (y - t) * cost x y t := hPays
    _ ≤ y * cost x y t :=
      Nat.mul_le_mul_right _ (Nat.sub_le y t)

------------------------------------------------------------
-- The Product
------------------------------------------------------------

/- A product kept by the quotient is kept exactly. -/
theorem le_mul_div_iff
    {n d : Nat} :
    n ≤ d * (n / d) ↔ d ∣ n := by
  constructor
  · intro hLe
    have hEq : d * (n / d) = n :=
      Nat.le_antisymm (Nat.mul_div_le n d) hLe
    exact Dvd.intro _ hEq
  · intro hDvd
    exact Nat.le_of_eq (Nat.mul_div_cancel' hDvd).symm

/-
  With at most `r` taken out, the product is kept exactly if
  the quotient has no rest, or `r` stays short of the proceeds.
-/
theorem product_le_iff
    {r : Nat}
    (hPos : 0 < x + s) :
    x * y ≤ (x + s) * (y - min (proceeds x y s) r) ↔
      x + s ∣ x * y ∨ x * y / (x + s) + r < y := by
  have hQuotient := quotient_le x y s
  rcases Nat.lt_or_ge r (proceeds x y s) with hShort | hAll
  · have hLt : x * y / (x + s) + r < y := by
      unfold proceeds at hShort
      omega
    have hRest : x * y / (x + s) + 1 ≤ y - r := by omega
    have hKept : x * y ≤ (x + s) * (y - r) :=
      calc
        x * y ≤ (x + s) * (x * y / (x + s) + 1) :=
          Nat.le_of_lt (Nat.lt_mul_div_succ _ hPos)
        _ ≤ (x + s) * (y - r) := Nat.mul_le_mul_left _ hRest
    rw [Nat.min_eq_right (Nat.le_of_lt hShort)]
    exact iff_of_true hKept (.inr hLt)
  · rw [Nat.min_eq_left hAll, sub_proceeds, le_mul_div_iff]
    have hNot : ¬x * y / (x + s) + r < y := by
      unfold proceeds at hAll
      omega
    exact (or_iff_left hNot).symm

end ConstantProduct
