import Pumpy.Engine.Ops
import Pumpy.Numeric.Text

/-
  This file defines the decision engine
  (rust-engine/src/decision/mod.rs): the rules a trade request
  is checked against, the reject streak, and the auto-pause
  latch.

  Key definitions include:
    * `DecisionContext`
    * `DecisionContext.verdict`
    * `DecisionEngine`
    * `DecisionEngine.evaluate`
    * `DecisionEngine.resetPause`
-/

------------------------------------------------------------
-- Rules
------------------------------------------------------------

namespace Pumpy

open Interleaving

/- The inputs of one evaluation. -/
structure DecisionContext where
  walletId : String
  order : Order
  demoMode : Bool
  maxPositionSizeSol : F64
  maxPortfolioExposureSol : F64
  maxDailyLossSol : F64
  maxSlippageBps : UInt64
  maxSandwichRiskScore : UInt32
  sandwichRiskScore : UInt32
  currentPortfolioExposureSol : F64
  currentDailyLossSol : F64
  configVersion : String
  bondingCurveParams : Option BondingCurveParams

/- What the rules say of a request, a panic included. -/
inductive Verdict where
  | pass : Verdict
  | violates (reason : String) : Verdict
  | panics : Verdict
deriving DecidableEq

namespace DecisionContext

/- The size of the trade in SOL. -/
def tradeSol (ctx : DecisionContext) : F64 :=
  solOf ctx.order.amount

/- The exposure the trade would bring the portfolio to. -/
def projectedExposure (ctx : DecisionContext) : F64 :=
  ctx.currentPortfolioExposureSol.add ctx.tradeSol

/- The rule on the order's explicit bounds, given the dynamic ones. -/
def boundsVerdict
    (ctx : DecisionContext)
    (dynamicMaxCost dynamicMinOutput : UInt64) : Verdict :=
  match ctx.order.maxCost.filter (· < dynamicMaxCost) with
  | some maxCost =>
      .violates
        ("explicit max_sol_cost=" ++ toString maxCost ++
          " is below computed price-impact cost=" ++
          toString dynamicMaxCost ++
          "; pool depth has moved, increase slippage tolerance" ++
          " or reduce size")
  | none =>
      match ctx.order.minOutput.filter (dynamicMinOutput < ·) with
      | some minOutput =>
          .violates
            ("explicit min_sol_output=" ++ toString minOutput ++
              " exceeds computed pool output=" ++
              toString dynamicMinOutput ++
              "; pool depth has moved, reduce minimum or size")
      | none => .pass

/- The dynamic slippage rule; skipped without a snapshot. -/
def curveVerdict
    (profile : BuildProfile)
    (ctx : DecisionContext) : Verdict :=
  match ctx.bondingCurveParams with
  | none => .pass
  | some params =>
      match params.calculatePriceImpact profile ctx.order.amount
          ctx.order.slippageBps with
      | none => .panics
      | some (dynamicMaxCost, dynamicMinOutput) =>
          ctx.boundsVerdict dynamicMaxCost dynamicMinOutput

/- The rules after the demo-mode guard, in the order they apply. -/
def verdict
    (profile : BuildProfile)
    (ctx : DecisionContext) : Verdict :=
  if ctx.order.amount = 0 then
    .violates "amount must be greater than zero"
  else if ctx.maxSlippageBps < ctx.order.slippageBps then
    .violates
      ("slippage_bps=" ++ toString ctx.order.slippageBps ++
        " exceeds allowed maximum of " ++
        toString ctx.maxSlippageBps)
  else if ctx.tradeSol.gt ctx.maxPositionSizeSol then
    .violates
      ("trade size " ++ ctx.tradeSol.toFixed 4 ++
        " SOL exceeds max position size " ++
        ctx.maxPositionSizeSol.toFixed 4 ++ " SOL")
  else if ctx.projectedExposure.gt ctx.maxPortfolioExposureSol then
    .violates
      ("projected portfolio exposure " ++
        ctx.projectedExposure.toFixed 4 ++
        " SOL would exceed limit " ++
        ctx.maxPortfolioExposureSol.toFixed 4 ++ " SOL")
  else if ctx.currentDailyLossSol.gt ctx.maxDailyLossSol then
    .violates
      ("daily loss " ++ ctx.currentDailyLossSol.toFixed 4 ++
        " SOL has exceeded limit " ++
        ctx.maxDailyLossSol.toFixed 4 ++ " SOL")
  else if ctx.maxSandwichRiskScore < ctx.sandwichRiskScore then
    .violates
      ("sandwich risk score=" ++ toString ctx.sandwichRiskScore ++
        " exceeds max=" ++ toString ctx.maxSandwichRiskScore)
  else
    ctx.curveVerdict profile

end DecisionContext

------------------------------------------------------------
-- The Engine
------------------------------------------------------------

/- The fixed part of a decision engine. -/
structure DecisionEngine where
  autoPauseThreshold : UInt32
  profile : BuildProfile

namespace DecisionEngine

/- The reason of every halt by the auto-pause latch. -/
def autoPauseReason (de : DecisionEngine) : String :=
  "wallet auto-paused after " ++ toString de.autoPauseThreshold ++
    " consecutive rejections; resume via the Wallets page or" ++
    " admin API"

def demoReason : String :=
  "no real wallet configured (demo mode); set WALLET_PRIVATE_KEY" ++
    " or KEYPAIR_PATH to enable live trading"

/- Log a decision and return it. -/
def emit
    (ctx : DecisionContext)
    (decision : Decision) : OmProg Decision := do
  Do.emit
    { decision := decision
      walletId := ctx.walletId
      orderId := ctx.order.id
      configVersion := ctx.configVersion }
  pure decision

/- The end of a reject, once its streak count is known. -/
def countReject
    (de : DecisionEngine)
    (ctx : DecisionContext)
    (decision : Decision)
    (count : UInt32) : OmProg Decision :=
  if de.autoPauseThreshold ≤ count then do
    let wasPaused ← Do.swapAutoPaused true
    if wasPaused then
      emit ctx decision
    else do
      Do.storeNeedsDbPause true
      emit ctx (.halt de.autoPauseReason)
  else
    emit ctx decision

/- Count a reject; latch auto-pause at the threshold. -/
def onReject
    (de : DecisionEngine)
    (ctx : DecisionContext)
    (decision : Decision) : OmProg Decision := do
  let prev ← Do.fetchAddConsecutiveRejects 1
  match de.profile.u32 (prev.toNat + 1) with
  | none => .crash
  | some count => de.countReject ctx decision count

/- Evaluate a trade request. -/
def evaluate
    (de : DecisionEngine)
    (ctx : DecisionContext) : OmProg Decision := do
  let autoPaused ← Do.loadAutoPaused
  if autoPaused then
    emit ctx (.halt de.autoPauseReason)
  else if ctx.demoMode then
    emit ctx (.halt demoReason)
  else
    match ctx.verdict de.profile with
    | .violates reason => de.onReject ctx (.reject reason)
    | .panics => .crash
    | .pass => do
        Do.storeConsecutiveRejects 0
        emit ctx .allow

/- Reset all auto-pause state. -/
def resetPause : OmProg Unit := do
  Do.storeConsecutiveRejects 0
  Do.storeAutoPaused false
  Do.storeNeedsDbPause false

end DecisionEngine

end Pumpy
