import Pumpy.Engine.Bounds
import Pumpy.Engine.Quotes

/-
  The position limit and what a buy can spend.  The gate holds
  the order's amount against the limit as if it were lamports,
  but the pass buys that many tokens: what the wallet commits
  is the price of the tokens, or the order's own bound, and
  the limit bounds it only where these happen to be small.

  Key definitions include:
    * `OrderManager.withinLimit`
    * `PositionHolds`
    * `Order.commitment`

  The main results are `not_positionHolds` and
  `positionHolds_iff`.
-/

------------------------------------------------------------
-- The Limit
------------------------------------------------------------

namespace Pumpy

open Interleaving

/-
  The lamports are at most the position limit, increased by the
  slippage the configuration allows.
-/
def OrderManager.withinLimit
    (om : OrderManager)
    (lamports : Nat) : Prop :=
  match om.config.maxPositionSizeSol with
  | .nan => False
  | .inf neg => neg = false
  | .fin q =>
      (lamports : ℚ) ≤
        q * 1000000000 *
          (1 + (om.config.maxSlippageBps.toNat : ℚ) / 10000)

/-
  Every buy that a pass of the order encodes, once the gate has
  allowed it on the snapshot, spends no more than the limit.
-/
def PositionHolds
    (om : OrderManager)
    (o : Order)
    (snapshot : Option BondingCurveParams) : Prop :=
  ∀ h t,
    (om.processOrder o).After h t →
      AllowedIn h → SnapshotIn h snapshot →
        ∀ c ∈ h, ∀ tx, c.1.carries = some tx →
          ∀ d ∈ tx.trades, d.side = .buy → om.withinLimit d.bound

------------------------------------------------------------
-- Commitments
------------------------------------------------------------

namespace BondingCurveParams

/-
  The lamports the pool asks for `t` tokens, rounded up: all of
  a `u64` where it does not have them.
-/
def price (params : BondingCurveParams) (t : Nat) : Nat :=
  if t = 0 ∨ params.complete = true then
    0
  else if params.virtualTokenReserves.toNat ≤ t then
    2 ^ 64 - 1
  else
    min
      ((params.virtualSolReserves.toNat * t +
          (params.virtualTokenReserves.toNat - t) - 1) /
        (params.virtualTokenReserves.toNat - t))
      (2 ^ 64 - 1)

end BondingCurveParams

/-
  The slippage on `n` lamports; the product is one of `u64`, and
  wraps where it does not panic.
-/
def slippageOn (n slippageBps : Nat) : Nat :=
  n * slippageBps % 2 ^ 64 / 10000

/-
  The lamports a buy commits: its own bound, or the price of
  the tokens with slippage, or without a snapshot the number of
  the tokens with slippage.
-/
def Order.commitment
    (o : Order)
    (snapshot : Option BondingCurveParams) : Nat :=
  match o.maxCost, snapshot with
  | some maxCost, _ => maxCost.toNat
  | none, some params =>
      let price := params.price o.amount.toNat
      if price = 2 ^ 64 - 1 then
        2 ^ 64 - 1
      else
        min (price + slippageOn price o.slippageBps.toNat) (2 ^ 64 - 1)
  | none, none =>
      (o.amount.toNat +
        slippageOn o.amount.toNat o.slippageBps.toNat) % 2 ^ 64

/- The slippage of the amount is more than a checked `u64` holds. -/
def OrderManager.overflows
    (om : OrderManager)
    (o : Order) : Prop :=
  om.decisionEngine.profile = .dev ∧
    (2 ^ 64 ≤ o.amount.toNat * o.slippageBps.toNat ∨
      2 ^ 64 ≤
        o.amount.toNat +
          slippageOn o.amount.toNat o.slippageBps.toNat)

/- The gate can allow the order on the snapshot. -/
def OrderManager.mayAllow
    (om : OrderManager)
    (o : Order)
    (snapshot : Option BondingCurveParams) : Prop :=
  om.demoMode = false ∧ om.pubkeyFromStr o.mint ≠ none ∧
    ∃ score active,
      (om.gateContext o score snapshot active).verdict
        om.decisionEngine.profile = .pass

section Commitments

variable {profile : BuildProfile} {a b n : UInt64}

/- What a plain operator gives is the exact result, modulo `2 ^ 64`. -/
theorem toNat_of_u64
    {m : Nat}
    (hSome : profile.u64 m = some n) :
    n.toNat = m % 2 ^ 64 := by
  unfold BuildProfile.u64 at hSome
  split at hSome
  · cases hSome
    exact UInt64.toNat_ofNat'
  · split at hSome
    · cases hSome
    · cases hSome
      exact UInt64.toNat_ofNat'

theorem u64_eq_none_iff
    {m : Nat} :
    profile.u64 m = none ↔ profile = .dev ∧ 2 ^ 64 ≤ m := by
  unfold BuildProfile.u64
  cases profile with
  | dev => simp
  | release => simp

theorem toNat_solCostForTokens
    (params : BondingCurveParams)
    (amount : UInt64) :
    (params.solCostForTokens amount).toNat =
      params.price amount.toNat := by
  have hZero : amount = 0 ↔ amount.toNat = 0 := by
    rw [← UInt64.toNat_inj]
    rfl
  rw [solCostForTokens_toNat]
  simp only [hZero]
  rfl

/- The slippage that a checked or wrapping product gives. -/
theorem toNat_slippage
    {buffer slippageBps : UInt64}
    (hMul : profile.mul n slippageBps = some buffer) :
    (buffer / 10000).toNat =
      slippageOn n.toNat slippageBps.toNat := by
  rw [UInt64.toNat_div, toNat_of_u64 hMul]
  rfl

theorem toNat_saturatingAdd :
    (saturatingAdd a b).toNat =
      min (a.toNat + b.toNat) (2 ^ 64 - 1) := by
  unfold saturatingAdd
  rw [UInt64.toNat_ofNat']
  omega

variable {om : OrderManager} {o v : Order}
variable {snapshot : Option BondingCurveParams}
variable {maxCost minOutput : UInt64}

/- The bound a buy is given is what it commits. -/
theorem toNat_maxCost
    (hBounds : om.slippageBounds v snapshot = some (maxCost, minOutput)) :
    maxCost.toNat = v.commitment snapshot := by
  rw [slippageBounds_eq] at hBounds
  rcases Option.map_eq_some_iff.mp hBounds with ⟨dyn, hDynamic, hEq⟩
  cases hEq
  unfold Order.commitment
  cases hOwn : v.maxCost with
  | some own => rfl
  | none =>
      dsimp only [Option.getD_none]
      cases snapshot with
      | some params =>
          dsimp only
          rw [← toNat_solCostForTokens]
          have hFull : u64Max.toNat = 2 ^ 64 - 1 := rfl
          rcases (BondingCurveParams.calculatePriceImpact_inv
              hDynamic).1 with
            ⟨hMax, hCost⟩ | ⟨hNotMax, buffer, hMul, hCost⟩
          · rw [hCost, hMax, hFull, if_pos rfl]
          · have hNe :
                (params.solCostForTokens v.amount).toNat ≠
                  2 ^ 64 - 1 :=
              fun hEq => hNotMax (UInt64.toNat_inj.mp hEq)
            rw [if_neg hNe, hCost, toNat_saturatingAdd,
              toNat_slippage hMul]
      | none =>
          rcases Option.bind_eq_some_iff.mp hDynamic with
            ⟨scaled, hMul, hRest⟩
          rcases Option.map_eq_some_iff.mp hRest with ⟨mc, hAdd, hDyn⟩
          cases hDyn
          rw [toNat_of_u64 hAdd, toNat_slippage hMul]

/- Without a snapshot there are no bounds where the slippage overflows. -/
theorem slippageBounds_none_iff :
    om.slippageBounds v none = none ↔ om.overflows v := by
  rw [slippageBounds_eq, Option.map_eq_none_iff]
  unfold OrderManager.dynamicBounds OrderManager.overflows
  constructor
  · intro hNone
    cases hMul :
        om.decisionEngine.profile.mul v.amount v.slippageBps with
    | none =>
        rcases u64_eq_none_iff.mp hMul with ⟨hDev, hLarge⟩
        exact ⟨hDev, .inl hLarge⟩
    | some scaled =>
        rw [hMul] at hNone
        have hAdd := Option.map_eq_none_iff.mp hNone
        rcases u64_eq_none_iff.mp hAdd with ⟨hDev, hLarge⟩
        rw [toNat_slippage hMul] at hLarge
        exact ⟨hDev, .inr hLarge⟩
  · rintro ⟨hDev, hLarge⟩
    cases hMul :
        om.decisionEngine.profile.mul v.amount v.slippageBps with
    | none => rfl
    | some scaled =>
        refine Option.map_eq_none_iff.mpr (u64_eq_none_iff.mpr ⟨hDev, ?_⟩)
        rw [toNat_slippage hMul]
        rcases hLarge with hProduct | hSum
        · have hNone : om.decisionEngine.profile.u64 _ = none :=
            u64_eq_none_iff.mpr ⟨hDev, hProduct⟩
          unfold BuildProfile.mul at hMul
          rw [hNone] at hMul
          cases hMul
        · exact hSum

end Commitments

------------------------------------------------------------
-- When the Limit Bounds
------------------------------------------------------------

/-
  What a buy commits is within the limit, or the slippage on
  its amount overflows, and nothing is built.
-/
def OrderManager.affords
    (om : OrderManager)
    (o : Order)
    (snapshot : Option BondingCurveParams) : Prop :=
  (snapshot = none ∧ om.overflows o) ∨
    om.withinLimit (o.commitment snapshot)

section Bounds

variable {om : OrderManager} {o : Order}
variable {snapshot : Option BondingCurveParams}

/-
  The trades of the passes that the gate allows on a snapshot
  are one trade, under the bound of the order's side.
-/
theorem passTrades_iff
    {P : TradeData → Prop} :
    (∀ h t,
      (om.processOrder o).After h t →
        AllowedIn h → SnapshotIn h snapshot →
          ∀ c ∈ h, ∀ tx, c.1.carries = some tx →
            ∀ d ∈ tx.trades, P d) ↔
      (om.mayAllow o snapshot →
        ∀ maxCost minOutput,
          om.slippageBounds o snapshot = some (maxCost, minOutput) →
            P (o.tradeData
              (OrderManager.sideBound o.side maxCost minOutput))) := by
  constructor
  · rintro hAll ⟨hDemo, hParses, score, active, hVerdict⟩ maxCost
      minOutput hBounds
    rcases Option.ne_none_iff_exists'.mp hParses with ⟨mint, hMint⟩
    have hAllow :
        (om.decisionEngine.evaluate
          (om.gateContext { o with status := .validating } score
            snapshot active)).CanReturn .allow :=
      canReturn_allow_iff.mpr ⟨hDemo, hVerdict⟩
    rcases exists_trading_pass hMint hAllow hBounds with
      ⟨h, t, hPass, hTrading⟩
    rcases hTrading.trades with ⟨c, hMem, hCarries⟩
    rcases Option.ne_none_iff_exists'.mp hCarries with ⟨tx, hTx⟩
    rcases exists_gatedAt hPass hTrading.allowed with
      ⟨mint', snapshot', h₁, h₂, _, hGated⟩
    have hSnapshot := hGated.snapshot_eq hTrading.given
    subst hSnapshot
    have hTrades :=
      hGated.trades (hGated.encodes (always_executeApproved hBounds)) c
        hMem tx hTx
    exact hAll h t hPass hTrading.allowed hTrading.given c hMem tx hTx _
      (by rw [hTrades]; exact List.mem_cons_self)
  · intro hBound h t hPass hAllowed hGiven c hMem tx hCarries d hTrade
    rcases exists_gatedAt hPass hAllowed with
      ⟨mint, snapshot', h₁, h₂, hMint, hGated⟩
    have hSnapshot := hGated.snapshot_eq hGiven
    subst hSnapshot
    rcases hGated.allowed with ⟨score, active, hAllow⟩
    cases hBounds :
        om.slippageBounds { o with status := .validating } snapshot' with
    | none =>
        -- Bounds that overflow: the pass ends before it builds a trade.
        have hNothing :
            ∀ bound : UInt64,
              tx.trades =
                [Order.tradeData { o with status := .validating }
                  bound] :=
          fun bound =>
            hGated.trades
              (hGated.encodes
                (always_executeApproved_of_panic hBounds bound))
              c hMem tx hCarries
        have hZero := hNothing 0
        rw [hNothing 1] at hZero
        cases hZero
    | some bounds =>
        rcases bounds with ⟨maxCost, minOutput⟩
        have hEncodes := hGated.encodes (always_executeApproved hBounds)
        rw [hGated.trades hEncodes c hMem tx hCarries] at hTrade
        have hData := List.mem_singleton.mp hTrade
        rcases canReturn_allow_iff.mp hAllow with ⟨hDemo, hVerdict⟩
        have hMay : om.mayAllow o snapshot' := by
          refine ⟨hDemo, ?_, score, active, hVerdict⟩
          rw [hMint]
          exact Option.some_ne_none mint
        rw [hData]
        exact hBound hMay maxCost minOutput hBounds

/- A buy that is afforded stays within the limit. -/
theorem positionHolds_of_affords
    (hBuy : o.side = .buy)
    (hAffords : om.mayAllow o snapshot → om.affords o snapshot) :
    PositionHolds om o snapshot := by
  refine passTrades_iff.mpr ?_
  intro hMay maxCost minOutput hBounds _
  have hBound :
      (o.tradeData
        (OrderManager.sideBound o.side maxCost minOutput)).bound =
        o.commitment snapshot := by
    simp only [Order.tradeData, hBuy, OrderManager.sideBound]
    exact toNat_maxCost hBounds
  rw [hBound]
  rcases hAffords hMay with ⟨hNone, hOverflows⟩ | hWithin
  · subst hNone
    rw [slippageBounds_none_iff.mpr hOverflows] at hBounds
    cases hBounds
  · exact hWithin

/- A buy that stays within the limit is afforded. -/
theorem affords_of_positionHolds
    (hBuy : o.side = .buy)
    (hHolds : PositionHolds om o snapshot)
    (hMay : om.mayAllow o snapshot) :
    om.affords o snapshot := by
  cases hBounds : om.slippageBounds o snapshot with
  | none =>
      left
      cases snapshot with
      | none => exact ⟨rfl, slippageBounds_none_iff.mp hBounds⟩
      | some params =>
          rcases hMay with ⟨hDemo, _, score, active, hVerdict⟩
          have hAllow :
              (om.decisionEngine.evaluate
                (om.gateContext o score (some params)
                  active)).CanReturn .allow :=
            canReturn_allow_iff.mpr ⟨hDemo, hVerdict⟩
          rcases feasible_of_allowed hAllow with ⟨_, _, hSome, _⟩
          rw [hBounds] at hSome
          cases hSome
  | some bounds =>
      right
      rcases bounds with ⟨maxCost, minOutput⟩
      have hWithin :=
        passTrades_iff.mp hHolds hMay maxCost minOutput hBounds hBuy
      rw [← toNat_maxCost hBounds]
      simpa [Order.tradeData, OrderManager.sideBound, hBuy] using hWithin

end Bounds

/- One token, of three, for twice what the pool holds in SOL. -/
def thinPool : BondingCurveParams where
  virtualSolReserves := 60000000000
  virtualTokenReserves := 3000000000
  realSolReserves := 0
  realTokenReserves := 3000000000
  tokenTotalSupply := 1000000000000000
  complete := false

/- A buy the gate takes for one of 1 SOL commits 30 SOL and more. -/
theorem not_positionHolds :
    ¬∀ (om : OrderManager) (o : Order)
      (snapshot : Option BondingCurveParams),
      o.side = .buy → PositionHolds om o snapshot := by
  intro hAll
  have hHolds :=
    hAll sampleManager (sampleOrder "a" 1000000000) (some thinPool) rfl
  have hMay :
      sampleManager.mayAllow (sampleOrder "a" 1000000000)
        (some thinPool) := by
    refine ⟨rfl, by decide, 0, [], by decide +kernel⟩
  rcases affords_of_positionHolds rfl hHolds hMay with
    ⟨hNone, _⟩ | hWithin
  · cases hNone
  · have hCommits :
        (sampleOrder "a" 1000000000).commitment (some thinPool) =
          30300000000 := by
      decide +kernel
    rw [hCommits] at hWithin
    have hLimit :
        ((30300000000 : Nat) : ℚ) ≤
          10 * 1000000000 * (1 + ((500 : Nat) : ℚ) / 10000) :=
      hWithin
    norm_num at hLimit

/-
  A buy stays within the position limit, in all passes on a
  snapshot, exactly if the gate refuses it there, or what it
  commits is within the limit, or nothing is built.
-/
theorem positionHolds_iff
    (om : OrderManager)
    (o : Order)
    (snapshot : Option BondingCurveParams)
    (hBuy : o.side = .buy) :
    PositionHolds om o snapshot ↔
      (om.mayAllow o snapshot → om.affords o snapshot) :=
  ⟨affords_of_positionHolds hBuy, positionHolds_of_affords hBuy⟩

/- A small buy on a pool as it starts stays within the limit. -/
theorem positionHolds_samplePool :
    sampleManager.mayAllow (sampleOrder "a" 1000000)
        (some samplePool) ∧
      PositionHolds sampleManager (sampleOrder "a" 1000000)
        (some samplePool) := by
  refine ⟨⟨rfl, by decide, 0, [], by decide +kernel⟩, ?_⟩
  refine (positionHolds_iff sampleManager _ _ rfl).mpr fun _ => ?_
  right
  have hCommits :
      (sampleOrder "a" 1000000).commitment (some samplePool) = 28 := by
    decide +kernel
  rw [hCommits]
  have hLimit :
      ((28 : Nat) : ℚ) ≤
        10 * 1000000000 * (1 + ((500 : Nat) : ℚ) / 10000) := by
    norm_num
  exact hLimit

end Pumpy
