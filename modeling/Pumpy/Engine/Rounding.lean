import Pumpy.Engine.Quotes

/-
  Where the quotes promise what the pool does not have.  A
  quote rounds the new reserve down, so it takes one unit too
  much out of the pool wherever the division leaves a rest;
  and a purchase the pool cannot make has a finite cost where
  the pool is complete or its real tokens are short.

  Key definitions include:
    * `Bought`
    * `NeverBeatsCurve`
    * `SentinelExact`

  The main results are `neverBeatsCurve_iff` and
  `sentinelExact_iff`.
-/

------------------------------------------------------------
-- The Product
------------------------------------------------------------

namespace Pumpy

open ConstantProduct

/- The pool after a purchase with `s`, as the quote promises it. -/
structure Bought
    (bc : BondingCurveParams)
    (s : UInt64)
    (bc' : BondingCurveParams) : Prop where
  virtualSol :
    bc'.virtualSolReserves.toNat =
      bc.virtualSolReserves.toNat + s.toNat
  virtualTokens :
    bc'.virtualTokenReserves.toNat =
      bc.virtualTokenReserves.toNat - (bc.tokensForSol s).toNat
  realSol :
    bc'.realSolReserves.toNat = bc.realSolReserves.toNat + s.toNat
  realTokens :
    bc'.realTokenReserves.toNat =
      bc.realTokenReserves.toNat - (bc.tokensForSol s).toNat

/-
  No quote lets the product of the reserves fall, and who buys
  with `s` and sells at once is not quoted more than `s`.
-/
structure NeverBeatsCurve
    (bc : BondingCurveParams)
    (s t : UInt64) : Prop where
  buying :
    bc.virtualSolReserves.toNat * bc.virtualTokenReserves.toNat ≤
      (bc.virtualSolReserves.toNat + s.toNat) *
        (bc.virtualTokenReserves.toNat - (bc.tokensForSol s).toNat)
  selling :
    bc.virtualSolReserves.toNat * bc.virtualTokenReserves.toNat ≤
      (bc.virtualSolReserves.toNat - (bc.solForTokens t).toNat) *
        (bc.virtualTokenReserves.toNat + t.toNat)
  roundTrip :
    ∀ bc',
      Bought bc s bc' → bc'.solForTokens (bc.tokensForSol s) ≤ s

/-
  The reserves after a deposit of `n` into `x` divide evenly, or
  at most `r` is paid of the reserve `y`, and that is less than
  what the quotient leaves.
-/
def PaidExactly (x y r n : Nat) : Prop :=
  x + n ∣ x * y ∨ x * y / (x + n) + r < y

section Product

variable {bc : BondingCurveParams} {s t : UInt64}

theorem trades_of_open
    (hOpen : bc.complete = false)
    (hAmount : 0 < s) :
    ¬(s = 0 ∨ bc.complete = true) := by
  rintro (rfl | hComplete)
  · exact absurd hAmount (UInt64.lt_irrefl _)
  · rw [hOpen] at hComplete
    cases hComplete

/- A purchase keeps the product exactly if it is paid exactly. -/
theorem buying_iff
    (hOpen : bc.complete = false)
    (hAmount : 0 < s) :
    bc.virtualSolReserves.toNat * bc.virtualTokenReserves.toNat ≤
        (bc.virtualSolReserves.toNat + s.toNat) *
          (bc.virtualTokenReserves.toNat - (bc.tokensForSol s).toNat) ↔
      PaidExactly bc.virtualSolReserves.toNat
        bc.virtualTokenReserves.toNat bc.realTokenReserves.toNat
        s.toNat := by
  have hPos : 0 < s.toNat := UInt64.lt_iff_toNat_lt.mp hAmount
  rw [tokensForSol_toNat, if_neg (trades_of_open hOpen hAmount)]
  exact product_le_iff (Nat.add_pos_right _ hPos)

theorem selling_iff
    (hOpen : bc.complete = false)
    (hAmount : 0 < t) :
    bc.virtualSolReserves.toNat * bc.virtualTokenReserves.toNat ≤
        (bc.virtualSolReserves.toNat - (bc.solForTokens t).toNat) *
          (bc.virtualTokenReserves.toNat + t.toNat) ↔
      PaidExactly bc.virtualTokenReserves.toNat
        bc.virtualSolReserves.toNat bc.realSolReserves.toNat
        t.toNat := by
  have hPos : 0 < t.toNat := UInt64.lt_iff_toNat_lt.mp hAmount
  rw [solForTokens_toNat, if_neg (trades_of_open hOpen hAmount),
    Nat.mul_comm bc.virtualSolReserves.toNat,
    Nat.mul_comm (bc.virtualSolReserves.toNat - _)]
  exact product_le_iff (Nat.add_pos_right _ hPos)

/- What a purchase takes is there. -/
theorem tokensForSol_le_virtual
    (bc : BondingCurveParams)
    (s : UInt64) :
    (bc.tokensForSol s).toNat ≤ bc.virtualTokenReserves.toNat := by
  rw [tokensForSol_toNat]
  split
  · exact Nat.zero_le _
  · exact Nat.le_trans (Nat.min_le_left _ _) (proceeds_le _ _ _)

/- Where a purchase keeps the product, selling at once gains nothing. -/
theorem roundTrip_of_buying
    (hBuying :
      bc.virtualSolReserves.toNat * bc.virtualTokenReserves.toNat ≤
        (bc.virtualSolReserves.toNat + s.toNat) *
          (bc.virtualTokenReserves.toNat - (bc.tokensForSol s).toNat))
    {bc' : BondingCurveParams}
    (hBought : Bought bc s bc') :
    bc'.solForTokens (bc.tokensForSol s) ≤ s := by
  have hTaken := tokensForSol_le_virtual bc s
  rw [UInt64.le_iff_toNat_le, solForTokens_toNat]
  split
  · exact Nat.zero_le _
  · rename_i hTrades
    have hPos := toNat_pos (not_or.mp hTrades).1
    apply Nat.le_trans (Nat.min_le_left _ _)
    apply proceeds_le_of (by omega)
    rw [hBought.virtualSol, hBought.virtualTokens, Nat.add_sub_cancel]
    have hBack :
        bc.virtualSolReserves.toNat * (bc.tokensForSol s).toNat +
            bc.virtualSolReserves.toNat *
              (bc.virtualTokenReserves.toNat -
                (bc.tokensForSol s).toNat) ≤
          (bc.virtualTokenReserves.toNat -
                (bc.tokensForSol s).toNat) * s.toNat +
            bc.virtualSolReserves.toNat *
              (bc.virtualTokenReserves.toNat -
                (bc.tokensForSol s).toNat) := by
      rw [← Nat.mul_add, Nat.add_sub_cancel' hTaken]
      refine Nat.le_trans hBuying (Nat.le_of_eq ?_)
      ring
    exact Nat.le_of_add_le_add_right hBack

end Product

/-
  On an open pool the quotes never beat the curve exactly if
  neither division leaves a rest that the caps do not absorb.
-/
theorem neverBeatsCurve_iff
    (bc : BondingCurveParams)
    (s t : UInt64)
    (hOpen : bc.complete = false)
    (hSol : 0 < s)
    (hTokens : 0 < t) :
    NeverBeatsCurve bc s t ↔
      PaidExactly bc.virtualSolReserves.toNat
          bc.virtualTokenReserves.toNat bc.realTokenReserves.toNat
          s.toNat ∧
        PaidExactly bc.virtualTokenReserves.toNat
          bc.virtualSolReserves.toNat bc.realSolReserves.toNat
          t.toNat := by
  constructor
  · intro hNever
    exact ⟨(buying_iff hOpen hSol).mp hNever.buying,
      (selling_iff hOpen hTokens).mp hNever.selling⟩
  · intro hPaid
    have hBuying := (buying_iff hOpen hSol).mpr hPaid.1
    exact ⟨hBuying, (selling_iff hOpen hTokens).mpr hPaid.2,
      fun bc' hBought => roundTrip_of_buying hBuying hBought⟩

/- The pool after one SOL was spent on it. -/
def tradedPool : BondingCurveParams where
  virtualSolReserves := 31000000000
  virtualTokenReserves := 1038387096774193
  realSolReserves := 1000000000
  realTokenReserves := 758487096774193
  tokenTotalSupply := 1000000000000000
  complete := false

/- The pool after one million lamports more. -/
def tradedPoolNext : BondingCurveParams where
  virtualSolReserves := 31001000000
  virtualTokenReserves := 1038353601496725
  realSolReserves := 1001000000
  realTokenReserves := 758453601496725
  tokenTotalSupply := 1000000000000000
  complete := false

/- Who buys with a million lamports is quoted one more back. -/
theorem not_neverBeatsCurve :
    ¬∀ (bc : BondingCurveParams) (s t : UInt64),
      bc.complete = false → 0 < s → 0 < t → NeverBeatsCurve bc s t := by
  intro hAll
  have hNever :=
    hAll tradedPool 1000000 1000000 rfl (by decide) (by decide)
  have hBought : Bought tradedPool 1000000 tradedPoolNext := by
    constructor
    · decide
    · decide +kernel
    · decide
    · decide +kernel
  have hBack := hNever.roundTrip tradedPoolNext hBought
  exact absurd hBack (by decide +kernel)

/- A deposit that doubles the reserve of a pool is paid exactly. -/
theorem neverBeatsCurve_evenPool :
    NeverBeatsCurve
      { samplePool with realSolReserves := 30000000000 }
      30000000000 1073000000000000 :=
  (neverBeatsCurve_iff _ 30000000000 1073000000000000 rfl (by decide)
    (by decide)).mpr
    ⟨.inl (by decide +kernel), .inl (by decide +kernel)⟩

------------------------------------------------------------
-- The Sentinel
------------------------------------------------------------

/- No deposit is quoted `t` tokens. -/
def Undeliverable (bc : BondingCurveParams) (t : UInt64) : Prop :=
  ∀ s, bc.tokensForSol s < t

/-
  The cost of a purchase the pool cannot make is `u64::MAX`, and
  so is every maximal cost that is computed from it.
-/
def SentinelExact (bc : BondingCurveParams) (t : UInt64) : Prop :=
  Undeliverable bc t →
    bc.solCostForTokens t = u64Max ∧
      ∀ (profile : BuildProfile) (slippageBps : UInt64) bounds,
        bc.calculatePriceImpact profile t slippageBps = some bounds →
          bounds.1 = u64Max

/-
  The pool is open, and it holds `t` tokens, or has fewer on
  its curve, or its curve asks for more than a `u64` holds.
-/
def SentinelGiven (bc : BondingCurveParams) (t : UInt64) : Prop :=
  bc.complete = false ∧
    (t ≤ bc.realTokenReserves ∨ bc.virtualTokenReserves ≤ t ∨
      (bc.virtualTokenReserves.toNat - t.toNat) * (2 ^ 64 - 2) <
        bc.virtualSolReserves.toNat * t.toNat)

section Sentinel

variable {bc : BondingCurveParams} {t : UInt64}

/- A cost of `u64::MAX` is a maximal cost of `u64::MAX`. -/
theorem calculatePriceImpact_of_max
    {profile : BuildProfile} {slippageBps : UInt64}
    {bounds : UInt64 × UInt64}
    (hCost : bc.solCostForTokens t = u64Max)
    (hBounds :
      bc.calculatePriceImpact profile t slippageBps = some bounds) :
    bounds.1 = u64Max := by
  rcases (BondingCurveParams.calculatePriceImpact_inv hBounds).1 with
    ⟨_, hMax⟩ | ⟨hNotMax, _⟩
  · exact hMax
  · exact absurd hCost hNotMax

/- A complete pool delivers nothing, at no cost. -/
theorem not_sentinelExact_of_complete
    (hAmount : 0 < t)
    (hComplete : bc.complete = true) :
    ¬SentinelExact bc t := by
  intro hExact
  have hNone : Undeliverable bc t := by
    intro s
    have hZero : bc.tokensForSol s = 0 := by
      unfold BondingCurveParams.tokensForSol
      rw [if_pos (.inr hComplete)]
    rw [hZero]
    exact hAmount
  have hCost := (hExact hNone).1
  unfold BondingCurveParams.solCostForTokens at hCost
  rw [if_pos (.inr hComplete)] at hCost
  cases hCost

/- An open pool that does not hold `t` tokens does not deliver them. -/
theorem undeliverable_of_short
    (hReal : bc.realTokenReserves < t) :
    Undeliverable bc t := by
  intro s
  exact UInt64.lt_of_le_of_lt (tokensForSol_le bc s) hReal

/- On the curve, a cost is the sentinel only where it is out of range. -/
theorem solCostForTokens_eq_max_iff
    (hOpen : bc.complete = false)
    (hAmount : 0 < t)
    (hVirtual : t < bc.virtualTokenReserves) :
    bc.solCostForTokens t = u64Max ↔
      (bc.virtualTokenReserves.toNat - t.toNat) * (2 ^ 64 - 2) <
        bc.virtualSolReserves.toNat * t.toNat := by
  have hReserve := UInt64.lt_iff_toNat_lt.mp hVirtual
  have hCovers :=
    cost_le_iff (x := bc.virtualSolReserves.toNat)
      (s := 2 ^ 64 - 2) hReserve
  have hMax : u64Max.toNat = 2 ^ 64 - 1 := rfl
  rw [← UInt64.toNat_inj, solCostForTokens_toNat,
    if_neg (trades_of_open hOpen hAmount),
    if_neg (Nat.not_le.mpr hReserve), hMax, ← Nat.not_le, ← hCovers]
  omega

/- An open pool delivers what it holds at a cost in range. -/
theorem delivers_of_cost
    (hOpen : bc.complete = false)
    (hAmount : 0 < t)
    (hReal : t ≤ bc.realTokenReserves)
    (hVirtual : t < bc.virtualTokenReserves)
    (hCost : bc.solCostForTokens t ≠ u64Max) :
    ¬Undeliverable bc t := by
  intro hNone
  have hReserve := UInt64.lt_iff_toNat_lt.mp hVirtual
  have hHeld := UInt64.le_iff_toNat_le.mp hReal
  have hPos : 0 < u64Max := by decide
  have hAll := hNone u64Max
  rw [UInt64.lt_iff_toNat_lt, tokensForSol_toNat,
    if_neg (trades_of_open hOpen hPos)] at hAll
  have hCovers :
      cost bc.virtualSolReserves.toNat bc.virtualTokenReserves.toNat
          t.toNat ≤
        u64Max.toNat := by
    have hIn := mt (solCostForTokens_eq_max_iff hOpen hAmount hVirtual).mpr
      hCost
    have hSmall := (cost_le_iff hReserve).mpr (Nat.not_lt.mp hIn)
    exact Nat.le_trans hSmall (by decide)
  have hDelivers := proceeds_of_cost_le hReserve hCovers
  omega

end Sentinel

/-
  The sentinel marks all purchases the pool cannot make exactly
  if the pool is open and holds the tokens, or their price is
  out of range.
-/
theorem sentinelExact_iff
    (bc : BondingCurveParams)
    (t : UInt64)
    (hAmount : 0 < t) :
    SentinelExact bc t ↔ SentinelGiven bc t := by
  constructor
  · intro hExact
    cases hOpen : bc.complete with
    | true => exact absurd hExact (not_sentinelExact_of_complete hAmount hOpen)
    | false =>
        refine ⟨hOpen, ?_⟩
        by_cases hReal : t ≤ bc.realTokenReserves
        · exact .inl hReal
        · right
          by_cases hVirtual : bc.virtualTokenReserves ≤ t
          · exact .inl hVirtual
          · right
            have hCost :=
              (hExact (undeliverable_of_short
                (UInt64.not_le.mp hReal))).1
            exact (solCostForTokens_eq_max_iff hOpen hAmount
              (UInt64.not_le.mp hVirtual)).mp hCost
  · rintro ⟨hOpen, hGiven⟩ hNone
    have hCost : bc.solCostForTokens t = u64Max := by
      by_cases hVirtual : bc.virtualTokenReserves ≤ t
      · unfold BondingCurveParams.solCostForTokens
        rw [if_neg (trades_of_open hOpen hAmount)]
        dsimp only
        rw [if_pos (UInt64.le_iff_toNat_le.mp hVirtual)]
      · have hReserve := UInt64.not_le.mp hVirtual
        rcases hGiven with hReal | hVirtual' | hLarge
        · by_contra hFinite
          exact delivers_of_cost hOpen hAmount hReal hReserve hFinite
            hNone
        · exact absurd hVirtual' hVirtual
        · exact (solCostForTokens_eq_max_iff hOpen hAmount
            hReserve).mpr hLarge
    exact ⟨hCost, fun _ _ _ hBounds =>
      calculatePriceImpact_of_max hCost hBounds⟩

/- A token that has graduated is quoted at no cost. -/
theorem not_sentinelExact :
    ¬∀ (bc : BondingCurveParams) (t : UInt64),
      0 < t → SentinelExact bc t := by
  intro hAll
  have hExact :=
    hAll { samplePool with complete := true } 1000000 (by decide)
  exact not_sentinelExact_of_complete (by decide) rfl hExact

theorem sentinelExact_samplePool :
    SentinelExact samplePool 1000000 :=
  (sentinelExact_iff samplePool 1000000 (by decide)).mpr
    ⟨rfl, .inl (by decide)⟩

end Pumpy
