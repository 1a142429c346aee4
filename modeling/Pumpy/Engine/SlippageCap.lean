import Pumpy.Engine.PositionLimit

/-
  The bounds of a trade and the slippage they leave.  The
  engine takes the slippage of a quote with plain `u64`
  products, which overflow where a pool is nearly sold out; and
  an order's own bound replaces the computed one without being
  held to the slippage the configuration allows.

  Key definitions include:
    * `exactBounds`
    * `BoundsExact`
    * `Order.fits`
    * `CapHeld`
    * `Order.withinCap`

  The main results are `exactWhenChecked_iff` and
  `capHeld_iff`.
-/

------------------------------------------------------------
-- Exact Bounds
------------------------------------------------------------

namespace Pumpy

open Interleaving

/- The bounds from the quotes `c` and `o`, in exact arithmetic. -/
def exactBounds (c o bps : Nat) : UInt64 × UInt64 :=
  (UInt64.ofNat (min (c + c * bps / 10000) (2 ^ 64 - 1)),
    UInt64.ofNat (o - o * bps / 10000))

/- The manager, built in the profile. -/
def OrderManager.built
    (om : OrderManager)
    (profile : BuildProfile) : OrderManager :=
  { om with
    decisionEngine := { om.decisionEngine with profile := profile } }

/-
  In every build the bounds of the order are the exact ones, on
  the snapshot and without one.
-/
structure BoundsExact
    (om : OrderManager)
    (o : Order)
    (bc : BondingCurveParams) : Prop where
  curve :
    ∀ profile,
      bc.calculatePriceImpact profile o.amount o.slippageBps =
        some
          (exactBounds (bc.solCostForTokens o.amount).toNat
            (bc.solForTokens o.amount).toNat o.slippageBps.toNat)
  fallback :
    ∀ profile,
      (om.built profile).dynamicBounds o none =
        some
          (exactBounds o.amount.toNat o.amount.toNat
            o.slippageBps.toNat)

/- What the gate checks before it computes bounds. -/
structure OrderManager.Checked
    (om : OrderManager)
    (o : Order) : Prop where
  amount : o.amount ≠ 0
  slippage : o.slippageBps ≤ om.config.maxSlippageBps
  position : (solOf o.amount).gt om.config.maxPositionSizeSol = false

/- An order that has passed these checks has exact bounds. -/
def ExactWhenChecked
    (om : OrderManager)
    (o : Order)
    (bc : BondingCurveParams) : Prop :=
  om.Checked o → BoundsExact om o bc

/-
  The products of the slippage with the quotes, and with the
  amount, are numbers of a `u64`, and so is the amount with its
  slippage.
-/
structure Order.fits
    (o : Order)
    (bc : BondingCurveParams) : Prop where
  cost :
    bc.solCostForTokens o.amount = u64Max ∨
      (bc.solCostForTokens o.amount).toNat * o.slippageBps.toNat <
        2 ^ 64
  out :
    (bc.solForTokens o.amount).toNat * o.slippageBps.toNat < 2 ^ 64
  scaled : o.amount.toNat * o.slippageBps.toNat < 2 ^ 64
  total :
    o.amount.toNat + o.amount.toNat * o.slippageBps.toNat / 10000 <
      2 ^ 64

section Exact

variable {profile : BuildProfile} {n bps : UInt64}
variable {om : OrderManager} {o : Order} {bc : BondingCurveParams}

/- A product in range is exact in every build. -/
theorem mul_of_lt
    (profile : BuildProfile)
    (hFits : n.toNat * bps.toNat < 2 ^ 64) :
    ∃ m : UInt64,
      profile.mul n bps = some m ∧
        (m / 10000).toNat = n.toNat * bps.toNat / 10000 := by
  have hMul := profile.u64_of_lt hFits
  refine ⟨_, hMul, ?_⟩
  rw [toNat_slippage hMul, slippageOn, Nat.mod_eq_of_lt hFits]

/- A product out of range panics where it is checked. -/
theorem mul_dev_of_le
    (hLarge : 2 ^ 64 ≤ n.toNat * bps.toNat) :
    BuildProfile.dev.mul n bps = none :=
  u64_eq_none_iff.mpr ⟨rfl, hLarge⟩

theorem saturatingAdd_max
    (bps : Nat) :
    u64Max =
      UInt64.ofNat
        (min (u64Max.toNat + u64Max.toNat * bps / 10000)
          (2 ^ 64 - 1)) := by
  have hMax : u64Max.toNat = 2 ^ 64 - 1 := rfl
  rw [hMax, Nat.min_eq_right (by omega)]
  rfl

theorem calculatePriceImpact_of_fits
    (profile : BuildProfile)
    (hFits : o.fits bc) :
    bc.calculatePriceImpact profile o.amount o.slippageBps =
      some
        (exactBounds (bc.solCostForTokens o.amount).toNat
          (bc.solForTokens o.amount).toNat o.slippageBps.toNat) := by
  rcases mul_of_lt profile hFits.out with ⟨cut, hCut, hCutEq⟩
  unfold BondingCurveParams.calculatePriceImpact exactBounds
  dsimp only
  rw [hCut]
  by_cases hMax : bc.solCostForTokens o.amount = u64Max
  · rw [if_pos hMax, hMax, ← saturatingAdd_max, ← hCutEq]
    rfl
  · rcases mul_of_lt profile (hFits.cost.resolve_left hMax) with
      ⟨buffer, hBuffer, hBufferEq⟩
    rw [if_neg hMax, hBuffer, ← hBufferEq, ← hCutEq]
    rfl

theorem fallback_of_fits
    (profile : BuildProfile)
    (hFits : o.fits bc) :
    (om.built profile).dynamicBounds o none =
      some
        (exactBounds o.amount.toNat o.amount.toNat
          o.slippageBps.toNat) := by
  have hTotal := hFits.total
  rcases mul_of_lt profile hFits.scaled with ⟨scaled, hScaled, hEq⟩
  have hAdd :
      profile.add o.amount (scaled / 10000) =
        some
          (UInt64.ofNat
            (o.amount.toNat +
              o.amount.toNat * o.slippageBps.toNat / 10000)) := by
    unfold BuildProfile.add
    rw [hEq]
    exact profile.u64_of_lt hTotal
  have hDynamic :
      (om.built profile).dynamicBounds o none =
        (profile.mul o.amount o.slippageBps).bind fun scaled =>
          (profile.add o.amount (scaled / 10000)).map fun mc =>
            (mc, saturatingSub o.amount (scaled / 10000)) :=
    rfl
  rw [hDynamic, hScaled, Option.bind_some, hAdd, Option.map_some]
  unfold exactBounds saturatingSub
  rw [hEq, Nat.min_eq_left (by omega)]

/- The factor of the bound that a dev build computes is exact. -/
theorem scaled_of_boundsExact
    (hExact : BoundsExact om o bc) :
    o.amount.toNat * o.slippageBps.toNat < 2 ^ 64 := by
  by_contra hLarge
  have hFallback := hExact.fallback .dev
  rcases Option.bind_eq_some_iff.mp hFallback with ⟨_, hMul, _⟩
  have hNone :
      (om.built .dev).decisionEngine.profile.mul o.amount
          o.slippageBps =
        none :=
    mul_dev_of_le (Nat.not_lt.mp hLarge)
  rw [hNone] at hMul
  cases hMul

/- Bounds that are exact where products are checked fit. -/
theorem fits_of_boundsExact
    (hExact : BoundsExact om o bc) :
    o.fits bc where
  cost := by
    by_contra hNot
    rcases not_or.mp hNot with ⟨hMax, hLarge⟩
    rcases (BondingCurveParams.calculatePriceImpact_inv
        (hExact.curve .dev)).1 with
      ⟨hIs, _⟩ | ⟨_, buffer, hMul, _⟩
    · exact hMax hIs
    · rw [mul_dev_of_le (Nat.not_lt.mp hLarge)] at hMul
      cases hMul
  out := by
    by_contra hLarge
    rcases (BondingCurveParams.calculatePriceImpact_inv
        (hExact.curve .dev)).2 with
      ⟨cut, hMul, _⟩
    rw [mul_dev_of_le (Nat.not_lt.mp hLarge)] at hMul
    cases hMul
  scaled := scaled_of_boundsExact hExact
  total := by
    by_contra hLarge
    have hFallback := hExact.fallback .dev
    rcases Option.bind_eq_some_iff.mp hFallback with
      ⟨scaled, hMul, hRest⟩
    rcases Option.map_eq_some_iff.mp hRest with ⟨mc, hAdd, _⟩
    have hEq := toNat_slippage hMul
    rw [slippageOn, Nat.mod_eq_of_lt (scaled_of_boundsExact hExact)]
      at hEq
    have hNone :
        (om.built .dev).decisionEngine.profile.add o.amount
            (scaled / 10000) =
          none := by
      refine u64_eq_none_iff.mpr ⟨rfl, ?_⟩
      rw [hEq]
      exact Nat.not_lt.mp hLarge
    rw [hNone] at hAdd
    cases hAdd

end Exact

/-
  The bounds of the orders that pass the checks are exact
  exactly if the products of these orders fit.
-/
theorem exactWhenChecked_iff
    (om : OrderManager)
    (o : Order)
    (bc : BondingCurveParams) :
    ExactWhenChecked om o bc ↔ (om.Checked o → o.fits bc) := by
  constructor
  · intro hExact hChecked
    exact fits_of_boundsExact (hExact hChecked)
  · intro hFits hChecked
    exact ⟨fun profile => calculatePriceImpact_of_fits profile
        (hFits hChecked),
      fun profile => fallback_of_fits profile (hFits hChecked)⟩

/- All but sixteen units of its tokens are asked of this pool. -/
def nearlySoldOut : BondingCurveParams where
  virtualSolReserves := 30000000000
  virtualTokenReserves := 1000000016
  realSolReserves := 0
  realTokenReserves := 1000000000
  tokenTotalSupply := 1000000000000000
  complete := false

/- The slippage on the cost of an order the gate takes overflows. -/
theorem not_exactWhenChecked :
    ¬∀ (om : OrderManager) (o : Order) (bc : BondingCurveParams),
      ExactWhenChecked om o bc := by
  intro hAll
  have hChecked :
      sampleManager.Checked (sampleOrder "a" 1000000000) := by
    constructor
    · decide
    · decide
    · decide +kernel
  have hExact :=
    hAll sampleManager (sampleOrder "a" 1000000000) nearlySoldOut
      hChecked
  have hCurve := hExact.curve .dev
  have hPanics :
      nearlySoldOut.calculatePriceImpact .dev 1000000000 100 = none := by
    decide +kernel
  rw [show nearlySoldOut.calculatePriceImpact .dev
      (sampleOrder "a" 1000000000).amount
      (sampleOrder "a" 1000000000).slippageBps = none from hPanics]
    at hCurve
  cases hCurve

------------------------------------------------------------
-- The Cap
------------------------------------------------------------

/-
  The trade leaves no more slippage than the configuration
  allows on the quote of the order's amount.
-/
def OrderManager.caps
    (om : OrderManager)
    (o : Order)
    (bc : BondingCurveParams)
    (d : TradeData) : Prop :=
  let c := (bc.solCostForTokens o.amount).toNat
  let out := (bc.solForTokens o.amount).toNat
  match d.side with
  | .buy => d.bound ≤ c + c * om.config.maxSlippageBps.toNat / 10000
  | .sell =>
      out - out * om.config.maxSlippageBps.toNat / 10000 ≤ d.bound

/- Every trade a pass submits on the snapshot keeps to the cap. -/
def CapHeld
    (om : OrderManager)
    (o : Order)
    (bc : BondingCurveParams) : Prop :=
  ∀ h t,
    (om.processOrder o).After h t →
      AllowedIn h → SnapshotIn h (some bc) →
        ∀ c ∈ h, ∀ tx, c.1.carries = some tx →
          ∀ d ∈ tx.trades, om.caps o bc d

/- The order's own bound, if it has one, keeps to the cap. -/
def Order.withinCap
    (o : Order)
    (om : OrderManager)
    (bc : BondingCurveParams) : Prop :=
  ∀ bound,
    o.explicitBound = some bound → om.caps o bc (o.tradeData bound)

section Cap

variable {om : OrderManager} {o : Order} {bc : BondingCurveParams}
variable {maxCost minOutput : UInt64}

/- Slippage grows with its rate, and wrapping only lowers it. -/
theorem slippageOn_le
    {n bps cap : Nat}
    (hLe : bps ≤ cap) :
    slippageOn n bps ≤ n * cap / 10000 := by
  unfold slippageOn
  apply Nat.div_le_div_right
  calc
    n * bps % 2 ^ 64 ≤ n * bps := Nat.mod_le _ _
    _ ≤ n * cap := Nat.mul_le_mul_left n hLe

theorem saturatingSub_toNat
    (a b : UInt64) :
    (saturatingSub a b).toNat = a.toNat - b.toNat := by
  have hLt := a.toNat_lt
  unfold saturatingSub
  rw [UInt64.toNat_ofNat']
  omega

/- The bounds that are computed keep to the cap. -/
theorem caps_of_priceImpact
    {profile : BuildProfile} {dynamicMaxCost dynamicMinOutput : UInt64}
    (hSlippage : o.slippageBps ≤ om.config.maxSlippageBps)
    (hImpact :
      bc.calculatePriceImpact profile o.amount o.slippageBps =
        some (dynamicMaxCost, dynamicMinOutput)) :
    om.caps o bc
      (o.tradeData
        (OrderManager.sideBound o.side dynamicMaxCost
          dynamicMinOutput)) := by
  have hRate := UInt64.le_iff_toNat_le.mp hSlippage
  rcases BondingCurveParams.calculatePriceImpact_inv hImpact with
    ⟨hCost, cut, hCut, rfl⟩
  unfold OrderManager.caps Order.tradeData OrderManager.sideBound
  cases o.side with
  | buy =>
      dsimp only
      rcases hCost with ⟨hMax, rfl⟩ | ⟨_, buffer, hBuffer, rfl⟩
      · rw [hMax]
        exact Nat.le_add_right _ _
      · have hSlip :=
          slippageOn_le (n := (bc.solCostForTokens o.amount).toNat) hRate
        rw [toNat_saturatingAdd, toNat_slippage hBuffer]
        omega
  | sell =>
      dsimp only
      have hSlip :=
        slippageOn_le (n := (bc.solForTokens o.amount).toNat) hRate
      rw [saturatingSub_toNat, toNat_slippage hCut]
      omega

/- An order the gate allows has slippage the configuration allows. -/
theorem slippage_of_mayAllow
    {snapshot : Option BondingCurveParams}
    (hMay : om.mayAllow o snapshot) :
    o.slippageBps ≤ om.config.maxSlippageBps := by
  rcases hMay with ⟨_, _, score, active, hPass⟩
  unfold DecisionContext.verdict at hPass
  split_ifs at hPass
  rename_i hSlippage _ _ _ _
  exact UInt64.not_lt.mp hSlippage

/- The bound of a trade is the order's own, or the computed one. -/
theorem caps_iff
    (hMay : om.mayAllow o (some bc)) :
    (∀ maxCost minOutput,
      om.slippageBounds o (some bc) = some (maxCost, minOutput) →
        om.caps o bc
          (o.tradeData
            (OrderManager.sideBound o.side maxCost minOutput))) ↔
      o.withinCap om bc := by
  constructor
  · intro hCaps bound hOwn
    rcases hMay with ⟨hDemo, _, score, active, hVerdict⟩
    have hAllow :
        (om.decisionEngine.evaluate
          (om.gateContext o score (some bc) active)).CanReturn .allow :=
      canReturn_allow_iff.mpr ⟨hDemo, hVerdict⟩
    rcases feasible_of_allowed hAllow with
      ⟨maxCost, minOutput, hBounds, _⟩
    rw [← sideBound_of_explicit hBounds hOwn]
    exact hCaps maxCost minOutput hBounds
  · intro hWithin maxCost minOutput hBounds
    cases hOwn : o.explicitBound with
    | some bound =>
        rw [sideBound_of_explicit hBounds hOwn]
        exact hWithin bound hOwn
    | none =>
        rw [slippageBounds_eq] at hBounds
        rcases Option.map_eq_some_iff.mp hBounds with
          ⟨⟨dynamicMaxCost, dynamicMinOutput⟩, hImpact, hEq⟩
        cases hEq
        have hComputed :
            OrderManager.sideBound o.side
                (o.maxCost.getD dynamicMaxCost)
                (o.minOutput.getD dynamicMinOutput) =
              OrderManager.sideBound o.side dynamicMaxCost
                dynamicMinOutput := by
          unfold Order.explicitBound at hOwn
          unfold OrderManager.sideBound
          cases hSide : o.side with
          | buy =>
              rw [hSide] at hOwn
              dsimp only at hOwn ⊢
              rw [hOwn, Option.getD_none]
          | sell =>
              rw [hSide] at hOwn
              dsimp only at hOwn ⊢
              rw [hOwn, Option.getD_none]
        rw [hComputed]
        exact caps_of_priceImpact (slippage_of_mayAllow hMay) hImpact

end Cap

/-
  The trades of an order keep to the cap exactly if the gate
  refuses it on the snapshot, or its own bound keeps to it.
-/
theorem capHeld_iff
    (om : OrderManager)
    (o : Order)
    (bc : BondingCurveParams) :
    CapHeld om o bc ↔
      (om.mayAllow o (some bc) → o.withinCap om bc) := by
  unfold CapHeld
  rw [passTrades_iff]
  constructor
  · intro hCaps hMay
    exact (caps_iff hMay).mp (hCaps hMay)
  · intro hWithin hMay
    exact (caps_iff hMay).mpr (hWithin hMay)

/- A buy whose own bound is all of a `u64` passes the gate. -/
theorem not_capHeld :
    ¬∀ (om : OrderManager) (o : Order) (bc : BondingCurveParams),
      CapHeld om o bc := by
  intro hAll
  have hHeld :=
    hAll sampleManager
      { sampleOrder "a" 1000000 with maxCost := some u64Max } samplePool
  have hMay :
      sampleManager.mayAllow
        { sampleOrder "a" 1000000 with maxCost := some u64Max }
        (some samplePool) :=
    ⟨rfl, by decide, 0, [], by decide +kernel⟩
  have hWithin := (caps_iff hMay).mp (passTrades_iff.mp hHeld hMay)
  have hBound := hWithin u64Max rfl
  have hCap :
      u64Max.toNat ≤
        (samplePool.solCostForTokens 1000000).toNat +
          (samplePool.solCostForTokens 1000000).toNat *
            sampleManager.config.maxSlippageBps.toNat / 10000 :=
    hBound
  exact absurd hCap (by decide +kernel)

end Pumpy
