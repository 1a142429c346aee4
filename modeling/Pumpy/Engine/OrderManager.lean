import Pumpy.Engine.Decision

/-
  This file defines the order manager as programs over its
  operations (rust-engine/src/order/manager.rs,
  mev/jito.rs, pumpfun/mod.rs, database.rs).  The passes are
  those of `OrderManagerMinimal`, which every execution
  worker runs.

  Key definitions include:
    * `OrderManager`
    * `OrderManager.submitOrder`
    * `OrderManager.cancelOrder`
    * `OrderManager.processOrder`
    * `OrderManager.executeViaJitoMinimal`
    * `OrderManager.finalizeOrderMinimal`
    * `pauseWallet`
-/

------------------------------------------------------------
-- Configuration
------------------------------------------------------------

namespace Pumpy

open Interleaving

structure OrderManagerConfig where
  maxPendingOrders : Nat
  orderTimeout : Duration
  maxRetries : UInt32
  retryDelay : Duration
  maxPositionSizeSol : F64
  maxPortfolioExposureSol : F64
  maxDailyLossSol : F64
  maxSandwichRiskScore : UInt32
  maxSlippageBps : UInt64

structure JitoClient where
  simRpcUrl : Option String

/-
  An order manager: its configuration and identity.
  `pubkeyFromStr` is `Pubkey::from_str` of the Solana SDK.
-/
structure OrderManager where
  config : OrderManagerConfig
  mevEnabled : Bool
  jitoClient : Option JitoClient
  demoMode : Bool
  decisionEngine : DecisionEngine
  payer : Pubkey
  walletPubkey : String
  configVersionHash : String
  pubkeyFromStr : String → Option Pubkey

/-
  Transient failures are worth a retry, deterministic ones
  are not.  Only ASCII letters lower to the letters looked
  for.
-/
def isRetriableError (err : String) : Bool :=
  let lower := err.toList.map Char.toLower
  !containsText "invalid mint".toList lower
    && !containsText "insufficient funds".toList lower
    && !containsText "insufficient lamports".toList lower
    && !containsText "already processed".toList lower

/- `{:?}` of a duration of whole seconds. -/
def debugSecs (d : Duration) : String :=
  toString (d / 1000000000) ++ "s"

/- `d * k`; `none` where the multiplication panics. -/
def Duration.mulU32 (d : Duration) (k : UInt32) : Option Duration :=
  if d * k.toNat < 2 ^ 64 * 1000000000 then
    some (d * k.toNat)
  else
    none

/- `active.values().map(..).sum::<f64>()`. -/
def exposureOf (active : List Order) : F64 :=
  F64.sum (active.map fun o => solOf o.amount)

/- The exposure of the other active orders. -/
def exposureWithout (active : List Order) (order : Order) : F64 :=
  ((exposureOf active).sub (solOf order.amount)).max (.fin 0)

namespace OrderManager

------------------------------------------------------------
-- Submission
------------------------------------------------------------

/- The context of the gate at submission. -/
def submitContext
    (om : OrderManager)
    (order : Order)
    (active : List Order) : DecisionContext where
  walletId := om.walletPubkey
  order := order
  demoMode := om.demoMode
  maxPositionSizeSol := om.config.maxPositionSizeSol
  maxPortfolioExposureSol := om.config.maxPortfolioExposureSol
  maxDailyLossSol := om.config.maxDailyLossSol
  maxSlippageBps := om.config.maxSlippageBps
  maxSandwichRiskScore := om.config.maxSandwichRiskScore
  sandwichRiskScore := 0
  currentPortfolioExposureSol := exposureOf active
  currentDailyLossSol := .fin 0
  configVersion := om.configVersionHash
  bondingCurveParams := none

/-
  Lift the latch if the wallet row reads "enabled": an
  operator is taken to have resumed the wallet.
-/
def selfHealingResume : OmProg Unit := do
  let autoPaused ← Do.isAutoPaused
  if autoPaused then do
    let dbStatus ← Do.getWalletStatus
    if dbStatus = some .enabled then
      DecisionEngine.resetPause
    else
      pure ()
  else
    pure ()

/- The reason a pause is written with. -/
def haltReason (decision : Decision) (default : String) : String :=
  match decision with
  | .halt reason => reason
  | _ => default

/- Start writing the pause if this engine has just latched. -/
def raiseDbPause
    (decision : Decision)
    (default : String) : OmProg Unit := do
  let needsDbPause ← Do.swapNeedsDbPause false
  if needsDbPause then do
    let rejectCount ← Do.loadConsecutiveRejects
    Do.spawnPauseWallet (haltReason decision default) rejectCount
  else
    pure ()

/- Store an approved order and put it into the queue. -/
def enqueue
    (om : OrderManager)
    (order : Order) : OmProg (Except OrderError OrderId) := do
  let createdAt ← Do.utcNow
  let updatedAt ← Do.utcNow
  let order :=
    { order with
      status := .pending
      createdAt := createdAt
      updatedAt := updatedAt }
  let stored ← Do.insertOrder order
  match stored with
  | .error e => pure (.error (.databaseError e))
  | .ok () => do
      let pushed ← Do.pendingPush om.config.maxPendingOrders order
      if pushed then do
        Do.count .ordersSubmitted
        Do.inc .pendingOrders
        let sent ← Do.orderSend order
        if sent then
          pure (.ok order.id)
        else
          pure (.error .channelError)
      else
        pure (.error .queueFull)

/- Submit a new order for execution. -/
def submitOrder
    (om : OrderManager)
    (order : Order) : OmProg (Except OrderError OrderId) := do
  let id ← Do.newUuid
  let order := { order with id := id }
  let active ← Do.activeValues
  let decision ←
    om.decisionEngine.evaluate (om.submitContext order active)
  selfHealingResume
  raiseDbPause decision "consecutive_reject threshold exceeded"
  match decision with
  | .allow => om.enqueue order
  | .reject reason => pure (.error (.executionError reason))
  | .halt reason => pure (.error (.executionError reason))

------------------------------------------------------------
-- Cancellation
------------------------------------------------------------

/- The part of `cancel_order` that holds the active map. -/
def cancelActive
    (orderId : OrderId) : OmProg (Except OrderError Unit) := do
  Do.activeLock
  let removed ← Do.activeRemove orderId
  match removed with
  | none => do
      Do.activeUnlock
      pure (.ok ())
  | some order => do
      let updatedAt ← Do.utcNow
      let order :=
        { order with status := .cancelled, updatedAt := updatedAt }
      let updated ← Do.updateOrder order
      match updated with
      | .error e => do
          Do.activeUnlock
          pure (.error (.databaseError e))
      | .ok () => do
          Do.dec .activeOrders
          Do.count .ordersCancelled
          Do.eventSend order.event
          Do.activeUnlock
          pure (.ok ())

/- Cancel an existing order. -/
def cancelOrder
    (orderId : OrderId) : OmProg (Except OrderError Unit) := do
  let dropped ← Do.pendingRetain orderId
  if dropped then do
    Do.dec .pendingOrders
    Do.count .ordersCancelled
    cancelActive orderId
  else
    cancelActive orderId

------------------------------------------------------------
-- Transactions
------------------------------------------------------------

/- The bound of the order's side, of the two computed. -/
def sideBound
    (side : OrderSide)
    (maxCost minOutput : UInt64) : UInt64 :=
  match side with
  | .buy => maxCost
  | .sell => minOutput

/- The trade instruction of an order with a given bound. -/
def tradeInstruction
    (om : OrderManager)
    (mint : Pubkey)
    (order : Order)
    (bound : UInt64) : Instruction :=
  match order.side with
  | .buy => buildBuyInstruction om.payer mint order.amount bound
  | .sell => buildSellInstruction om.payer mint order.amount bound

/-
  `build_buy_transaction_with_tip` and its sell counterpart:
  the trade, then the tip, over a fresh blockhash.
-/
def buildTransactionWithTip
    (om : OrderManager)
    (mint : Pubkey)
    (order : Order)
    (bound : UInt64)
    (tip : Option Instruction) :
    OmProg (Except String Transaction) := do
  let client ← Do.getClient
  match client with
  | .error e => pure (.error e)
  | .ok () => do
      let blockhash ← Do.getLatestBlockhash
      match blockhash with
      | .error e => pure (.error e)
      | .ok recentBlockhash =>
          pure (.ok
            { instructions :=
                om.tradeInstruction mint order bound :: tip.toList
              payer := om.payer
              recentBlockhash := recentBlockhash })

/- `buy_token` and `sell_token`, by the order's side. -/
def executeDirect
    (om : OrderManager)
    (mint : Pubkey)
    (order : Order)
    (maxCost minOutput : UInt64) :
    OmProg (Except String String) := do
  let built ←
    om.buildTransactionWithTip mint order
      (sideBound order.side maxCost minOutput) none
  match built with
  | .error e => pure (.error e)
  | .ok tx => Do.sendAndConfirmTransaction tx

------------------------------------------------------------
-- Jito Bundles
------------------------------------------------------------

/- `compute_dynamic_tip`. -/
def computeDynamicTip
    (tradeValueLamports : UInt64)
    (tipPercent : F64)
    (floorLamports ceilingLamports : UInt64) : UInt64 :=
  let raw :=
    ((F64.ofNat tradeValueLamports.toNat).mul tipPercent).toUInt64
  min (max raw floorLamports) ceilingLamports

/- Simulation is on unless the setting says otherwise. -/
def simEnabledFromStr : Option String → Bool
  | none => true
  | some v => v != "false" && v != "0"

/- `execute_simulation_gate`: skipped without a simulation node. -/
def executeSimulationGate
    (jito : JitoClient)
    (tx : Transaction) : OmProg (Except String Unit) :=
  match jito.simRpcUrl with
  | none => pure (.ok ())
  | some _ => do
      let simulated ← Do.simulateTransaction tx
      match simulated with
      | .error simErr =>
          pure (.error ("simulation_rejected: " ++ simErr))
      | .ok () => pure (.ok ())

/- The simulation before the first bundle, if it is enabled. -/
def simulateFirst
    (om : OrderManager)
    (jito : JitoClient)
    (mint : Pubkey)
    (order : Order)
    (bound : UInt64)
    (tip : Option Instruction)
    (simEnabled : Bool) : OmProg (Except String Unit) :=
  if simEnabled then do
    let built ← om.buildTransactionWithTip mint order bound tip
    match built with
    | .error e => pure (.error e)
    | .ok simTx => executeSimulationGate jito simTx
  else
    pure (.ok ())

/- Poll a bundle `n` times; true if it is reported failed. -/
def pollBundleFailed (bundleId : String) : Nat → OmProg Bool
  | 0 => pure false
  | n + 1 => do
      Do.sleep 1000000000
      let status ← Do.getBundleStatus bundleId
      match status with
      | .error _ => pollBundleFailed bundleId n
      | .ok status =>
          if status = "confirmed" ∨ status = "finalized" then
            pure false
          else if status = "failed" then
            pure true
          else
            pollBundleFailed bundleId n

/- The pause before every bundle attempt but the first. -/
def waitBeforeRetry (jitoAttempt : Nat) : OmProg Unit :=
  if 0 < jitoAttempt then
    Do.sleep 2000000000
  else
    pure ()

/-
  `n` bundle attempts, the first being number `jitoAttempt`.
  A bundle that is not reported failed counts as sent, with
  its identifier for a signature.
-/
def bundleAttempts
    (om : OrderManager)
    (mint : Pubkey)
    (order : Order)
    (bound : UInt64)
    (tip : Option Instruction) :
    Nat → Nat → OmProg (Except String String)
  | 0, _ =>
      pure (.error
        ("Jito bundle failed after 2 attempt(s) for order " ++
          order.id))
  | n + 1, jitoAttempt => do
      waitBeforeRetry jitoAttempt
      let built ← om.buildTransactionWithTip mint order bound tip
      match built with
      | .error e => pure (.error e)
      | .ok tradeTx => do
          let reply ← Do.sendBundle tradeTx
          match reply with
          | .error _ =>
              om.bundleAttempts mint order bound tip n
                (jitoAttempt + 1)
          | .ok bundleId => do
              let bundleFailed ← pollBundleFailed bundleId 5
              if bundleFailed then
                om.bundleAttempts mint order bound tip n
                  (jitoAttempt + 1)
              else
                pure (.ok bundleId)

/- Submit a trade as a Jito bundle. -/
def executeViaJitoMinimal
    (om : OrderManager)
    (jito : JitoClient)
    (mint : Pubkey)
    (order : Order)
    (maxCost minOutput : UInt64) :
    OmProg (Except String String) := do
  let tipPercent ← Do.getConfigValue "JITO_TIP_PERCENT"
  let tipFloor ← Do.getConfigValue "JITO_TIP_FLOOR_LAMPORTS"
  let tipCeiling ← Do.getConfigValue "JITO_TIP_CEILING_LAMPORTS"
  let tipLamports :=
    computeDynamicTip order.amount
      ((tipPercent.bind F64.parse).getD (F64.round (1 / 1000)))
      ((tipFloor.bind parseU64).getD 5000)
      ((tipCeiling.bind parseU64).getD 10000000)
  let tipAccount ← Do.chooseTipAccount
  let tip :=
    tipAccount.map fun account =>
      Instruction.systemTransfer om.payer account tipLamports
  let bound := sideBound order.side maxCost minOutput
  let simSetting ← Do.getConfigValue "JITO_SIMULATION_ENABLED"
  let gate ←
    om.simulateFirst jito mint order bound tip
      (simEnabledFromStr simSetting)
  match gate with
  | .error e => pure (.error e)
  | .ok () => om.bundleAttempts mint order bound tip 2 0

------------------------------------------------------------
-- Execution
------------------------------------------------------------

/- What follows a failed bundle: nothing if simulation rejected it. -/
def afterJitoError
    (om : OrderManager)
    (mint : Pubkey)
    (order : Order)
    (maxCost minOutput : UInt64)
    (e : String) : OmProg (Except String String) :=
  if "simulation_rejected:".toList.isPrefixOf e.toList then
    pure (.error e)
  else
    om.executeDirect mint order maxCost minOutput

/- The body of the pass's deadline. -/
def executeTrade
    (om : OrderManager)
    (mint : Pubkey)
    (order : Order)
    (maxCost minOutput : UInt64) :
    OmProg (Except String String) :=
  match om.mevEnabled, om.jitoClient with
  | true, some jito => do
      let result ←
        om.executeViaJitoMinimal jito mint order maxCost minOutput
      match result with
      | .ok sig => do
          Do.count .jitoBundlesLanded
          pure (.ok sig)
      | .error e => om.afterJitoError mint order maxCost minOutput e
  | _, _ => om.executeDirect mint order maxCost minOutput

/-
  The bounds `(max_cost, min_output)` of a pass: the order's
  own where it has them, else from the snapshot, else the
  amount with its slippage.
-/
def slippageBounds
    (om : OrderManager)
    (order : Order)
    (snapshot : Option BondingCurveParams) :
    Option (UInt64 × UInt64) := do
  let profile := om.decisionEngine.profile
  let (dynamicMaxCost, dynamicMinOutput) ←
    match snapshot with
    | some params =>
        params.calculatePriceImpact profile order.amount
          order.slippageBps
    | none => do
        let scaled ← profile.mul order.amount order.slippageBps
        let mc ← profile.add order.amount (scaled / 10000)
        some (mc, saturatingSub order.amount (scaled / 10000))
  some (order.maxCost.getD dynamicMaxCost,
    order.minOutput.getD dynamicMinOutput)

/- Give the order up to its maps, and its outcome to the database. -/
def finalizeOrderMinimal
    (order : Order) : OmProg (Except OrderError Unit) := do
  let updated ← Do.updateOrder order
  match updated with
  | .error e => pure (.error (.databaseError e))
  | .ok () => do
      if order.status = .executed then do
        let _ ← Do.insertTrade order
        leave order
      else
        leave order
where
  leave (order : Order) : OmProg (Except OrderError Unit) := do
    Do.eventSend order.event
    Do.activeLock
    let _ ← Do.activeRemove order.id
    Do.dec .activeOrders
    Do.historyInsert order
    Do.activeUnlock
    pure (.ok ())

/- Put the order back into the queue after a back-off. -/
def requeue
    (order : Order)
    (backoff : Duration) : OmProg (Except OrderError Unit) := do
  let order :=
    { order with
      retryCount := order.retryCount + 1
      status := .pending }
  Do.sleep backoff
  let _ ← Do.orderSend order
  Do.activeLock
  let _ ← Do.activeRemove order.id
  Do.dec .activeOrders
  Do.activeUnlock
  pure (.ok ())

/- `retry_delay * 2u32.pow(retry_count)`. -/
def retryBackoff
    (om : OrderManager)
    (order : Order) : Option Duration := do
  let factor ←
    om.decisionEngine.profile.u32 (2 ^ order.retryCount.toNat)
  Duration.mulU32 om.config.retryDelay factor

/- The outcome of an execution. -/
def settle
    (om : OrderManager)
    (order : Order) :
    Except String String → OmProg (Except OrderError Unit)
  | .ok sig => do
      let executedAt ← Do.utcNow
      let updatedAt ← Do.utcNow
      Do.count .ordersExecuted
      finalizeOrderMinimal
        { order with
          status := .executed
          executedAt := some executedAt
          signature := some sig
          updatedAt := updatedAt }
  | .error e =>
      if order.retryCount < om.config.maxRetries
          ∧ isRetriableError e = true then
        match om.retryBackoff order with
        | none => .crash
        | some backoff => requeue order backoff
      else do
        let updatedAt ← Do.utcNow
        Do.count .ordersFailed
        finalizeOrderMinimal
          { order with
            status := .failed
            error := some e
            updatedAt := updatedAt }

/- The result of a pass whose deadline has passed. -/
def timedOut (om : OrderManager) : Except String String :=
  .error ("Order timed out after " ++ debugSecs om.config.orderTimeout)

/- Execute an approved order under the deadline. -/
def executeApproved
    (om : OrderManager)
    (mint : Pubkey)
    (order : Order)
    (snapshot : Option BondingCurveParams) :
    OmProg (Except OrderError Unit) := do
  let updatedAt ← Do.utcNow
  let order :=
    { order with status := .executing, updatedAt := updatedAt }
  Do.eventSend order.event
  match om.slippageBounds order snapshot with
  | none => .crash
  | some (maxCost, minOutput) => do
      let result ←
        (om.executeTrade mint order maxCost minOutput).timeout
          Op.isAwait (.sys .timer) (fun fired => fired)
      om.settle order (result.getD om.timedOut)

------------------------------------------------------------
-- Passes
------------------------------------------------------------

/- The context of the gate at execution. -/
def gateContext
    (om : OrderManager)
    (order : Order)
    (riskScore : UInt32)
    (snapshot : Option BondingCurveParams)
    (active : List Order) : DecisionContext where
  walletId := om.walletPubkey
  order := order
  demoMode := om.demoMode
  maxPositionSizeSol := om.config.maxPositionSizeSol
  maxPortfolioExposureSol := om.config.maxPortfolioExposureSol
  maxDailyLossSol := om.config.maxDailyLossSol
  maxSlippageBps := om.config.maxSlippageBps
  maxSandwichRiskScore := om.config.maxSandwichRiskScore
  sandwichRiskScore := riskScore
  currentPortfolioExposureSol := exposureWithout active order
  currentDailyLossSol := .fin 0
  configVersion := om.configVersionHash
  bondingCurveParams := snapshot

/- End the pass of an order that will not be executed. -/
def failOrder
    (order : Order)
    (reason : String) : OmProg (Except OrderError Unit) := do
  let updatedAt ← Do.utcNow
  finalizeOrderMinimal
    { order with
      status := .failed
      error := some reason
      updatedAt := updatedAt }

/- The pass of an order whose mint is an address. -/
def gateAndExecute
    (om : OrderManager)
    (mint : Pubkey)
    (order : Order) : OmProg (Except OrderError Unit) := do
  let riskScore ← Do.analyzeSandwichRisk order.mint [order.mint]
  let curve ← Do.getBondingCurveParams mint
  let snapshot := curve.toOption
  let active ← Do.activeValues
  let decision ←
    om.decisionEngine.evaluate
      (om.gateContext order riskScore snapshot active)
  raiseDbPause decision
    "consecutive_reject threshold exceeded (execution gate)"
  if decision.isAllow then
    om.executeApproved mint order snapshot
  else
    failOrder order
      ("DecisionEngine " ++ decision.label ++ ": " ++
        decision.reason)

/- One pass of an order. -/
def processOrder
    (om : OrderManager)
    (order : Order) : OmProg (Except OrderError Unit) := do
  let order := { order with status := .validating }
  Do.activeInsert order
  Do.inc .activeOrders
  Do.dec .pendingOrders
  match om.pubkeyFromStr order.mint with
  | none => failOrder order "Invalid mint address"
  | some mint => om.gateAndExecute mint order

end OrderManager

------------------------------------------------------------
-- Pause Writes
------------------------------------------------------------

/- Persist an auto-pause; failed statements are only logged. -/
def pauseWallet
    (_reason : String)
    (rejectCount : UInt32) : OmProg Unit := do
  let _ ← Do.updateRegistryStatus .paused
  let _ ← Do.updateConfigStatus .paused
  let _ ← Do.upsertWalletAlert rejectCount.toInt32
  pure ()

end Pumpy
