import Pumpy.Engine.OrderManager
import Pumpy.Engine.System

/-
  This file defines the pass of `OrderManager` itself
  (rust-engine/src/order/manager.rs), written beside the one of
  `OrderManagerMinimal` with finalizers and bounds of its own.

  Key definitions include:
    * `Full.resolveSlippageBounds`
    * `Full.executeWithMevProtection`
    * `Full.finalizeOrder`
    * `Full.processOrder`
    * `Full.recordTrade`
-/

------------------------------------------------------------
-- Trade Rows
------------------------------------------------------------

namespace Pumpy

open Interleaving

/- A row of `trades` with the column `trace_id`. -/
structure TracedTradeRow where
  row : TradeRow
  traceId : Option String
deriving DecidableEq

/- The row `OrderManagerMinimal::record_trade` inserts. -/
def recordTradeMinimal (order : Order) : TracedTradeRow where
  row := order.trade
  traceId := none

namespace OrderManager.Full

/- The row `OrderManager::record_trade` inserts. -/
def recordTrade (order : Order) : TracedTradeRow where
  row := order.trade
  traceId := order.traceId

------------------------------------------------------------
-- Execution
------------------------------------------------------------

/-
  The bounds `(max_cost, min_output)` from the snapshot, else
  the amount with its slippage; the order's own are not looked
  at.
-/
def resolveSlippageBounds
    (om : OrderManager)
    (order : Order)
    (snapshot : Option BondingCurveParams) :
    Option (UInt64 × UInt64) :=
  let profile := om.decisionEngine.profile
  match snapshot with
  | some params =>
      params.calculatePriceImpact profile order.amount
        order.slippageBps
  | none => do
      let scaled ← profile.mul order.amount order.slippageBps
      let mc ← profile.add order.amount (scaled / 10000)
      some (mc, saturatingSub order.amount (scaled / 10000))

/- The bundles carry the order's own bounds where it has them. -/
def executeViaJito
    (om : OrderManager)
    (jito : JitoClient)
    (mint : Pubkey)
    (order : Order)
    (dynamicMaxCost dynamicMinOutput : UInt64) :
    OmProg (Except String String) :=
  om.executeViaJitoMinimal jito mint order
    (order.maxCost.getD dynamicMaxCost)
    (order.minOutput.getD dynamicMinOutput)

/- The body of the pass's deadline. -/
def executeWithMevProtection
    (om : OrderManager)
    (mint : Pubkey)
    (order : Order)
    (snapshot : Option BondingCurveParams) :
    OmProg (Except String String) :=
  match resolveSlippageBounds om order snapshot with
  | none => .crash
  | some (dynamicMaxCost, dynamicMinOutput) =>
      match om.mevEnabled, om.jitoClient with
      | true, some jito => do
          let result ←
            executeViaJito om jito mint order dynamicMaxCost
              dynamicMinOutput
          match result with
          | .ok sig => do
              Do.count .jitoBundlesLanded
              pure (.ok sig)
          | .error e =>
              om.afterJitoError mint order dynamicMaxCost
                dynamicMinOutput e
      | _, _ =>
          om.executeDirect mint order dynamicMaxCost
            dynamicMinOutput

------------------------------------------------------------
-- Outcomes
------------------------------------------------------------

/- Tell the outcome, then give the order up to its maps. -/
def finalizeOrder
    (order : Order) : OmProg (Except OrderError Unit) := do
  let updated ← Do.updateOrder order
  match updated with
  | .error e => pure (.error (.databaseError e))
  | .ok () => do
      Do.eventSend order.event
      if order.status = .executed then do
        let _ ← Do.insertTrade order
        leave order
      else
        leave order
where
  leave (order : Order) : OmProg (Except OrderError Unit) := do
    Do.activeLock
    let _ ← Do.activeRemove order.id
    Do.dec .activeOrders
    Do.historyInsert order
    Do.activeUnlock
    pure (.ok ())

/- Put the order, already counted up, back into the queue. -/
def requeue
    (order : Order)
    (backoff : Duration) : OmProg (Except OrderError Unit) := do
  let updatedAt ← Do.utcNow
  let order := { order with status := .pending, updatedAt := updatedAt }
  Do.sleep backoff
  let _ ← Do.orderSend order
  Do.activeLock
  let _ ← Do.activeRemove order.id
  Do.dec .activeOrders
  Do.activeUnlock
  pure (.ok ())

/- `retry_delay * 2u32.pow(retry_count.saturating_sub(1))`. -/
def retryBackoff
    (om : OrderManager)
    (order : Order) : Option Duration := do
  let exponent := order.retryCount.toNat - 1
  let factor ← om.decisionEngine.profile.u32 (2 ^ exponent)
  Duration.mulU32 om.config.retryDelay factor

/- The outcome of an execution. -/
def settle
    (om : OrderManager)
    (order : Order) :
    Except String String → OmProg (Except OrderError Unit)
  | .ok sig => do
      let executedAt ← Do.utcNow
      let updatedAt ← Do.utcNow
      Do.count .ordersExecuted
      finalizeOrder
        { order with
          status := .executed
          executedAt := some executedAt
          signature := some sig
          updatedAt := updatedAt }
  | .error e =>
      if order.retryCount < om.config.maxRetries
          ∧ isRetriableError e = true then
        let order := { order with retryCount := order.retryCount + 1 }
        match retryBackoff om order with
        | none => .crash
        | some backoff => requeue order backoff
      else do
        let updatedAt ← Do.utcNow
        Do.count .ordersFailed
        finalizeOrder
          { order with
            status := .failed
            error := some e
            updatedAt := updatedAt }

/- Execute an approved order under the deadline. -/
def executeApproved
    (om : OrderManager)
    (mint : Pubkey)
    (order : Order)
    (snapshot : Option BondingCurveParams) :
    OmProg (Except OrderError Unit) := do
  let updatedAt ← Do.utcNow
  let order :=
    { order with status := .executing, updatedAt := updatedAt }
  let updated ← Do.updateOrder order
  match updated with
  | .error e => pure (.error (.databaseError e))
  | .ok () => do
      Do.eventSend order.event
      let result ←
        (executeWithMevProtection om mint order snapshot).timeout
          Op.isAwait (.sys .timer) (fun fired => fired)
      settle om order (result.getD om.timedOut)

------------------------------------------------------------
-- Passes
------------------------------------------------------------

/- End a pass without an execution; `raised` is what it returns. -/
def failOrder
    (order : Order)
    (reason : String)
    (afterwards : OmProg Unit)
    (raised : OrderError) : OmProg (Except OrderError Unit) := do
  let updatedAt ← Do.utcNow
  let finalized ←
    finalizeOrder
      { order with
        status := .failed
        error := some reason
        updatedAt := updatedAt }
  match finalized with
  | .error e => pure (.error e)
  | .ok () => do
      afterwards
      pure (.error raised)

/- The pass of an order whose mint is an address. -/
def gateAndExecute
    (om : OrderManager)
    (mint : Pubkey)
    (order : Order) : OmProg (Except OrderError Unit) := do
  let riskScore ← Do.analyzeSandwichRisk order.mint [order.mint]
  let curve ← Do.getBondingCurveParams mint
  let snapshot := curve.toOption
  let active ← Do.activeValues
  let decision ←
    om.decisionEngine.evaluate
      (om.gateContext order riskScore snapshot active)
  raiseDbPause decision
    "consecutive_reject threshold exceeded (execution gate)"
  if decision.isAllow then
    executeApproved om mint order snapshot
  else
    let reason :=
      "DecisionEngine " ++ decision.label ++ ": " ++ decision.reason
    failOrder order reason (Do.count .ordersRejected)
      (.executionError reason)

/-
  One pass of an order.  `parseError` prints the error of
  `Pubkey::from_str`.
-/
def processOrder
    (om : OrderManager)
    (parseError : String → String)
    (order : Order) : OmProg (Except OrderError Unit) := do
  let order := { order with status := .validating }
  Do.activeInsert order
  Do.inc .activeOrders
  Do.dec .pendingOrders
  match om.pubkeyFromStr order.mint with
  | none =>
      failOrder order ("Invalid mint: " ++ parseError order.mint)
        (pure ()) (.executionError "Invalid mint")
  | some mint => gateAndExecute om mint order

end OrderManager.Full

end Pumpy
