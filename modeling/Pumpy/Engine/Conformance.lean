import Pumpy.Engine.Lifecycle

/-
  The programs of the order manager follow its life cycle.
  One lemma per program says in which phase it returns, with
  which value; a caller uses the lemma and never unfolds the
  callee.

  The main result is `OrderManager.follows`.
-/

------------------------------------------------------------
-- Evaluation
------------------------------------------------------------

namespace Pumpy

open Interleaving

namespace OrderManager

variable {om : OrderManager}
variable {α : Type}

/- A neutral operation leaves the task in its phase. -/
theorem wp_idle
    {op : Op}
    {k : op.Resp → OmProg α}
    {g : Phase}
    {Q : α → Phase → Prop}
    (hNeutral : op.neutral = true)
    (hOpen : g.ended = false)
    (hRest : ∀ r, om.lifecycle.Wp (k r) g Q) :
    om.lifecycle.Wp (.act op k) g Q :=
  fun r => ⟨g, .idle hNeutral hOpen, hRest r⟩

/- What a gate puts into the context of its evaluation. -/
structure Asks
    (om : OrderManager)
    (gate : Gate)
    (o : Order)
    (active : List Order)
    (ctx : DecisionContext) : Prop where
  order : ctx.order = o
  demoMode : ctx.demoMode = om.demoMode
  maxPosition :
    ctx.maxPositionSizeSol = om.config.maxPositionSizeSol
  maxExposure :
    ctx.maxPortfolioExposureSol = om.config.maxPortfolioExposureSol
  maxDailyLoss : ctx.maxDailyLossSol = om.config.maxDailyLossSol
  maxSlippage : ctx.maxSlippageBps = om.config.maxSlippageBps
  exposure : ctx.currentPortfolioExposureSol = gate.exposure active o
  dailyLoss : ctx.currentDailyLossSol = .fin 0

theorem asks_submitContext
    (om : OrderManager)
    (o : Order)
    (active : List Order) :
    om.Asks .submission o active (om.submitContext o active) :=
  ⟨rfl, rfl, rfl, rfl, rfl, rfl, rfl, rfl⟩

theorem asks_gateContext
    (om : OrderManager)
    (o : Order)
    (riskScore : UInt32)
    (snapshot : Option BondingCurveParams)
    (active : List Order) :
    om.Asks .execution o active
      (om.gateContext o riskScore snapshot active) :=
  ⟨rfl, rfl, rfl, rfl, rfl, rfl, rfl, rfl⟩

/- A request that passes the rules is cleared by its gate. -/
theorem Asks.cleared
    {gate : Gate}
    {o : Order}
    {active : List Order}
    {ctx : DecisionContext}
    {profile : BuildProfile}
    (hAsks : om.Asks gate o active ctx)
    (hDemo : ctx.demoMode = false)
    (hPass : ctx.verdict profile = .pass) :
    om.Cleared gate o active := by
  rcases hAsks with ⟨rfl, hD, hP, hE, hL, hS, hX, hZ⟩
  unfold DecisionContext.verdict at hPass
  split at hPass
  · cases hPass
  rename_i hAmount
  split at hPass
  · cases hPass
  rename_i hSlippage
  split at hPass
  · cases hPass
  rename_i hPosition
  split at hPass
  · cases hPass
  rename_i hExposure
  split at hPass
  · cases hPass
  rename_i hLoss
  refine ⟨hD ▸ hDemo, hAmount, ?_, ?_, ?_, ?_⟩
  · rw [← hS]
    exact UInt64.not_lt.mp hSlippage
  · simpa [hP, DecisionContext.tradeSol] using hPosition
  · simpa [DecisionContext.projectedExposure,
      DecisionContext.tradeSol, hX, hE] using hExposure
  · simpa [hL, hZ] using hLoss

/- Logging a decision ends the evaluation. -/
theorem wp_emit
    {gate : Gate}
    {o : Order}
    {active : List Order}
    {ctx : DecisionContext}
    {stage : EvalStage}
    {d : Decision}
    (hOrder : ctx.order = o)
    (hMay : om.MayReturn stage d) :
    om.lifecycle.Wp (DecisionEngine.emit ctx d)
      (.deciding gate o active stage)
      (fun d g => g = .decided gate o active d) := by
  intro r
  exact ⟨_, .emit (by rw [hOrder]) hMay, rfl⟩

theorem wp_countReject
    {gate : Gate}
    {o : Order}
    {active : List Order}
    {ctx : DecisionContext}
    (de : DecisionEngine)
    (reason : String)
    (count : UInt32)
    (hOrder : ctx.order = o) :
    om.lifecycle.Wp (de.countReject ctx (.reject reason) count)
      (.deciding gate o active .counted)
      (fun d g => g = .decided gate o active d) := by
  unfold DecisionEngine.countReject
  split
  · intro wasPaused
    refine ⟨_, .latch, ?_⟩
    cases wasPaused with
    | true => exact wp_emit hOrder trivial
    | false =>
        intro r
        exact ⟨_, .flag, wp_emit hOrder trivial⟩
  · exact wp_emit hOrder trivial

theorem wp_onReject
    {gate : Gate}
    {o : Order}
    {active : List Order}
    {ctx : DecisionContext}
    (de : DecisionEngine)
    (reason : String)
    (hOrder : ctx.order = o) :
    om.lifecycle.Wp (de.onReject ctx (.reject reason))
      (.deciding gate o active .opened)
      (fun d g => g = .decided gate o active d) := by
  unfold DecisionEngine.onReject
  intro prev
  refine ⟨_, .reject, ?_⟩
  dsimp only [Prog.bind]
  split
  · trivial
  · exact wp_countReject de reason _ hOrder

/- An evaluation clears what it allows. -/
theorem wp_evaluate
    {gate : Gate}
    {o : Order}
    {active : List Order}
    {ctx : DecisionContext}
    (de : DecisionEngine)
    (hAsks : om.Asks gate o active ctx) :
    om.lifecycle.Wp (de.evaluate ctx)
      (.deciding gate o active .start)
      (fun d g => g = .decided gate o active d) := by
  unfold DecisionEngine.evaluate
  intro autoPaused
  refine ⟨_, .load, ?_⟩
  cases autoPaused with
  | true => exact wp_emit hAsks.order trivial
  | false =>
      dsimp only [Prog.bind]
      by_cases hDemo : ctx.demoMode = true
      · have hMay : om.demoMode = true := hAsks.demoMode ▸ hDemo
        simp only [hDemo, if_true]
        exact wp_emit hAsks.order hMay
      · simp only [hDemo]
        cases hVerdict : ctx.verdict de.profile with
        | pass =>
            intro r
            refine ⟨_, .clear ?_, wp_emit hAsks.order trivial⟩
            exact hAsks.cleared (by simpa using hDemo) hVerdict
        | violates reason =>
            exact wp_onReject de reason hAsks.order
        | panics => trivial

------------------------------------------------------------
-- Submission
------------------------------------------------------------

theorem wp_selfHealingResume
    {o : Order}
    {active : List Order}
    {d : Decision} :
    om.lifecycle.Wp selfHealingResume (.healing o active d .check)
      (fun _ g => g = .raising .submission o active d) := by
  unfold selfHealingResume
  intro autoPaused
  refine ⟨_, .check, ?_⟩
  cases autoPaused with
  | false => exact rfl
  | true =>
      intro dbStatus
      refine ⟨_, .status, ?_⟩
      by_cases hEnabled : dbStatus = some .enabled
      · simp only [hEnabled, if_true]
        intro _
        refine ⟨_, .resetCount, fun _ => ?_⟩
        refine ⟨_, .resetLatch, fun _ => ?_⟩
        exact ⟨_, .resetFlag, rfl⟩
      · simp only [Prog.bind, hEnabled, if_false]
        exact rfl

theorem wp_raiseDbPause
    {gate : Gate}
    {o : Order}
    {active : List Order}
    {d : Decision}
    (decision : Decision)
    (default : String) :
    om.lifecycle.Wp (raiseDbPause decision default)
      (.raising gate o active d)
      (fun _ g => g = .settled gate o active d) := by
  unfold raiseDbPause
  intro needsDbPause
  refine ⟨_, .take, ?_⟩
  cases needsDbPause with
  | false => exact rfl
  | true =>
      exact wp_idle rfl rfl fun rejectCount _ => ⟨_, .issue, rfl⟩

theorem wp_enqueue
    {o : Order} :
    om.lifecycle.Wp (om.enqueue o) (.accepting o)
      (fun _ g => g = .finished) := by
  unfold enqueue
  refine wp_idle rfl rfl fun createdAt => ?_
  refine wp_idle rfl rfl fun updatedAt => ?_
  intro stored
  refine ⟨_, .store rfl rfl, ?_⟩
  cases stored with
  | error e => exact rfl
  | ok u =>
      intro pushed
      refine ⟨_, .push rfl, ?_⟩
      cases pushed with
      | false => exact rfl
      | true =>
          refine wp_idle rfl rfl fun _ => ?_
          refine wp_idle rfl rfl fun _ => ?_
          intro sent
          refine ⟨_, .send rfl, ?_⟩
          cases sent <;> exact rfl

theorem wp_submitOrder
    (o : Order) :
    om.lifecycle.Wp (om.submitOrder o) (.submitting o)
      (fun _ g => g = .finished) := by
  unfold submitOrder
  intro id
  refine ⟨_, .draw, fun active => ?_⟩
  refine ⟨_, .read, ?_⟩
  apply (wp_evaluate _ (om.asks_submitContext _ _)).bind
  rintro decision g rfl
  apply wp_selfHealingResume.bind
  rintro _ g rfl
  apply (wp_raiseDbPause _ _).bind
  rintro _ g rfl
  cases decision with
  | allow => exact wp_enqueue
  | reject reason => exact rfl
  | halt reason => exact rfl

------------------------------------------------------------
-- Cancellation and Pause Writes
------------------------------------------------------------

theorem wp_cancelActive
    (id : OrderId) :
    om.lifecycle.Wp (cancelActive id) (.cancelling id false)
      (fun _ g => g = .finished) := by
  unfold cancelActive
  intro _
  refine ⟨_, .cancelLock, fun removed => ?_⟩
  refine ⟨_, .withdraw, ?_⟩
  cases removed with
  | none =>
      intro _
      exact ⟨_, .cancelUnlock, rfl⟩
  | some order =>
      refine wp_idle rfl rfl fun updatedAt => ?_
      intro updated
      refine ⟨_, .withdrawClose rfl rfl, ?_⟩
      cases updated with
      | error e =>
          intro _
          exact ⟨_, .cancelUnlock, rfl⟩
      | ok u =>
          refine wp_idle rfl rfl fun _ => ?_
          refine wp_idle rfl rfl fun _ _ => ?_
          refine ⟨_, .announce rfl ⟨rfl, rfl⟩, fun _ => ?_⟩
          exact ⟨_, .cancelUnlock, rfl⟩

theorem wp_cancelOrder
    (id : OrderId) :
    om.lifecycle.Wp (cancelOrder id) (.cancelling id false)
      (fun _ g => g = .finished) := by
  unfold cancelOrder
  refine wp_idle rfl rfl fun dropped => ?_
  cases dropped with
  | true =>
      refine wp_idle rfl rfl fun _ => ?_
      exact wp_idle rfl rfl fun _ => wp_cancelActive id
  | false => exact wp_cancelActive id

theorem wp_pauseWallet
    (reason : String)
    (rejectCount : UInt32) :
    om.lifecycle.Wp (pauseWallet reason rejectCount) .pausing
      (fun _ g => g = .pausing) := by
  unfold pauseWallet
  intro r
  refine ⟨_, .pause, ?_⟩
  refine wp_idle rfl rfl fun _ => ?_
  exact wp_idle rfl rfl fun _ => rfl

------------------------------------------------------------
-- Execution
------------------------------------------------------------

/- The phases inside the deadline of a pass. -/
def InExecution (o : Order) (active : List Order) : Phase → Prop :=
  fun g => ∃ live, g = .executing o active live

/- An execution that returns an error has given up all it submitted. -/
def Executed
    (o : Order)
    (active : List Order)
    (r : Except String String) : Phase → Prop :=
  fun g =>
    ∃ live, g = .executing o active live ∧
      (r.isOk = false → live = none)

/- The life cycle inside the deadline. -/
def execution
    (om : OrderManager)
    (o : Order)
    (active : List Order) : Protocol Op Op.Resp Root Phase :=
  om.lifecycle.within (InExecution o active)

section Execution

variable {o order : Order} {active : List Order}
variable {mint : Pubkey}

/- A neutral operation inside the deadline. -/
theorem execution_idle
    {op : Op}
    {k : op.Resp → OmProg α}
    {live : Option String}
    {Q : α → Phase → Prop}
    (hNeutral : op.neutral = true)
    (hRest :
      ∀ r, (om.execution o active).Wp (k r)
        (.executing o active live) Q) :
    (om.execution o active).Wp (.act op k)
      (.executing o active live) Q :=
  fun r => ⟨_, ⟨.idle hNeutral rfl, live, rfl⟩, hRest r⟩

/- Building a transaction submits nothing. -/
theorem execution_buildTransactionWithTip
    {live : Option String}
    (bound : UInt64)
    (tip : Option Instruction)
    (hSame :
      om.tradeInstruction mint order bound =
        om.tradeInstruction mint o bound) :
    (om.execution o active).Wp
      (om.buildTransactionWithTip mint order bound tip)
      (.executing o active live)
      (fun r g =>
        g = .executing o active live ∧
          ∀ tx, r = .ok tx → om.Trades o tx) := by
  unfold buildTransactionWithTip
  refine execution_idle rfl fun client => ?_
  cases client with
  | error e => exact ⟨rfl, fun tx hTx => by cases hTx⟩
  | ok u =>
      refine execution_idle rfl fun blockhash => ?_
      cases blockhash with
      | error e => exact ⟨rfl, fun tx hTx => by cases hTx⟩
      | ok recentBlockhash =>
          refine ⟨rfl, fun tx hTx => ?_⟩
          cases hTx
          exact ⟨mint, bound, congrArg some hSame⟩

/- A direct submission, from where nothing is live. -/
theorem execution_executeDirect
    (maxCost minOutput : UInt64)
    (hSame :
      ∀ bound, om.tradeInstruction mint order bound =
        om.tradeInstruction mint o bound) :
    (om.execution o active).Wp
      (om.executeDirect mint order maxCost minOutput)
      (.executing o active none) (Executed o active) := by
  unfold executeDirect
  apply (execution_buildTransactionWithTip _ none (hSame _)).bind
  rintro built g ⟨rfl, hTrades⟩
  cases built with
  | error e => exact ⟨none, rfl, fun _ => rfl⟩
  | ok tx =>
      intro r
      refine ⟨_, ⟨.direct (hTrades tx rfl), r.toOption, rfl⟩, ?_⟩
      refine ⟨r.toOption, rfl, fun hFail => ?_⟩
      cases r with
      | error e => rfl
      | ok sig => cases hFail

theorem execution_waitBeforeRetry
    (jitoAttempt : Nat) :
    (om.execution o active).Wp (waitBeforeRetry jitoAttempt)
      (.executing o active none)
      (fun _ g => g = .executing o active none) := by
  unfold waitBeforeRetry
  split
  · exact execution_idle rfl fun _ => rfl
  · exact rfl

/- A bundle reported failed is given up. -/
theorem execution_pollBundleFailed
    (bundleId : String)
    (n : Nat) :
    (om.execution o active).Wp (pollBundleFailed bundleId n)
      (.executing o active (some bundleId))
      (fun bundleFailed g =>
        g = .executing o active
          (if bundleFailed then none else some bundleId)) := by
  induction n with
  | zero => exact rfl
  | succ n ih =>
      unfold pollBundleFailed
      refine execution_idle rfl fun _ => ?_
      intro status
      refine ⟨_, ⟨.poll, _, rfl⟩, ?_⟩
      cases status with
      | error e => exact ih
      | ok status =>
          by_cases hFailed : status = "failed"
          · subst hFailed
            exact rfl
          · have hLive :
                (if (Except.ok status : Except String String).toOption
                    = some "failed" then none else some bundleId)
                  = some bundleId := by
              simp [Except.toOption, hFailed]
            dsimp only [Prog.bind]
            rw [hLive]
            split
            · exact rfl
            · exact ih

/- Bundle attempts, from where nothing is live. -/
theorem execution_bundleAttempts
    (bound : UInt64)
    (tip : Option Instruction)
    (hSame :
      om.tradeInstruction mint order bound =
        om.tradeInstruction mint o bound)
    (n jitoAttempt : Nat) :
    (om.execution o active).Wp
      (om.bundleAttempts mint order bound tip n jitoAttempt)
      (.executing o active none) (Executed o active) := by
  induction n generalizing jitoAttempt with
  | zero => exact ⟨none, rfl, fun _ => rfl⟩
  | succ n ih =>
      unfold bundleAttempts
      apply (execution_waitBeforeRetry jitoAttempt).bind
      rintro _ g rfl
      apply (execution_buildTransactionWithTip bound tip hSame).bind
      rintro built g ⟨rfl, hTrades⟩
      cases built with
      | error e => exact ⟨none, rfl, fun _ => rfl⟩
      | ok tradeTx =>
          intro reply
          refine ⟨_, ⟨.bundle (hTrades tradeTx rfl), _, rfl⟩, ?_⟩
          cases reply with
          | error e => exact ih (jitoAttempt + 1)
          | ok bundleId =>
              apply (execution_pollBundleFailed bundleId 5).bind
              rintro bundleFailed g rfl
              cases bundleFailed with
              | true => exact ih (jitoAttempt + 1)
              | false =>
                  exact ⟨some bundleId, rfl, fun hFail => by cases hFail⟩

theorem execution_executeSimulationGate
    {live : Option String}
    (jito : JitoClient)
    (tx : Transaction) :
    (om.execution o active).Wp (executeSimulationGate jito tx)
      (.executing o active live)
      (fun _ g => g = .executing o active live) := by
  unfold executeSimulationGate
  split
  · exact rfl
  · refine execution_idle rfl fun simulated => ?_
    cases simulated <;> exact rfl

theorem execution_simulateFirst
    {live : Option String}
    (jito : JitoClient)
    (bound : UInt64)
    (tip : Option Instruction)
    (simEnabled : Bool)
    (hSame :
      om.tradeInstruction mint order bound =
        om.tradeInstruction mint o bound) :
    (om.execution o active).Wp
      (om.simulateFirst jito mint order bound tip simEnabled)
      (.executing o active live)
      (fun _ g => g = .executing o active live) := by
  unfold simulateFirst
  split
  · apply (execution_buildTransactionWithTip bound tip hSame).bind
    rintro built g ⟨rfl, _⟩
    cases built with
    | error e => exact rfl
    | ok simTx => exact execution_executeSimulationGate jito simTx
  · exact rfl

theorem execution_executeViaJitoMinimal
    (jito : JitoClient)
    (maxCost minOutput : UInt64)
    (hSame :
      ∀ bound, om.tradeInstruction mint order bound =
        om.tradeInstruction mint o bound) :
    (om.execution o active).Wp
      (om.executeViaJitoMinimal jito mint order maxCost minOutput)
      (.executing o active none) (Executed o active) := by
  unfold executeViaJitoMinimal
  refine execution_idle rfl fun tipPercent => ?_
  refine execution_idle rfl fun tipFloor => ?_
  refine execution_idle rfl fun tipCeiling => ?_
  refine execution_idle rfl fun tipAccount => ?_
  refine execution_idle rfl fun simSetting => ?_
  apply (execution_simulateFirst jito _ _ _ (hSame _)).bind
  rintro gate g rfl
  cases gate with
  | error e => exact ⟨none, rfl, fun _ => rfl⟩
  | ok u => exact execution_bundleAttempts _ _ (hSame _) 2 0

theorem execution_executeTrade
    (maxCost minOutput : UInt64)
    (hSame :
      ∀ bound, om.tradeInstruction mint order bound =
        om.tradeInstruction mint o bound) :
    (om.execution o active).Wp
      (om.executeTrade mint order maxCost minOutput)
      (.executing o active none) (Executed o active) := by
  unfold executeTrade
  split
  · rename_i jito _ _
    apply (execution_executeViaJitoMinimal jito _ _ hSame).bind
    rintro result g ⟨live, rfl, hLive⟩
    cases result with
    | ok sig =>
        refine execution_idle rfl fun _ => ?_
        exact ⟨live, rfl, fun hFail => by cases hFail⟩
    | error e =>
        have hNone : live = none := hLive rfl
        subst hNone
        unfold afterJitoError
        dsimp only
        split
        · exact ⟨none, rfl, fun _ => rfl⟩
        · exact execution_executeDirect _ _ hSame
  · exact execution_executeDirect _ _ hSame

end Execution

------------------------------------------------------------
-- Passes
------------------------------------------------------------

/- Leaving the maps ends the pass. -/
theorem wp_leave
    {o : Order}
    (order : Order)
    (hId : order.id = o.id)
    (hStatus : order.status = .executed ∨ order.status = .failed) :
    om.lifecycle.Wp (finalizeOrderMinimal.leave order)
      (.exiting o .arriving) (fun _ g => g = .finished) := by
  unfold finalizeOrderMinimal.leave
  intro _
  refine ⟨_, .announce rfl ⟨hId, hStatus⟩, fun _ => ?_⟩
  refine ⟨_, .exitLock, fun removed => ?_⟩
  refine ⟨_, .exitRemove hId, ?_⟩
  refine wp_idle rfl rfl fun _ _ => ?_
  refine ⟨_, .announce rfl ⟨hId, hStatus⟩, fun _ => ?_⟩
  exact ⟨_, .exitUnlock, rfl⟩

/- The finalizer ends the pass, whatever its statements do. -/
theorem wp_finalizeOrderMinimal
    {g : Phase}
    {o : Order}
    (order : Order)
    (hId : order.id = o.id)
    (hMay : g.mayClose o order.status) :
    om.lifecycle.Wp (finalizeOrderMinimal order) g
      (fun _ g => g = .finished) := by
  unfold finalizeOrderMinimal
  intro updated
  refine ⟨_, .close hId hMay, ?_⟩
  cases updated with
  | error e => exact rfl
  | ok u =>
      have hStatus := Phase.status_of_mayClose hMay
      have hLeave := @wp_leave om o order hId hStatus
      by_cases hExecuted : order.status = .executed
      · simp only [Prog.bind, hExecuted, if_true]
        intro r
        exact ⟨_, .announce rfl ⟨hId, .inl rfl⟩, hLeave⟩
      · simp only [Prog.bind, hExecuted, if_false]
        exact hLeave

theorem wp_failOrder
    {g : Phase}
    {o : Order}
    (order : Order)
    (reason : String)
    (hId : order.id = o.id)
    (hMay : g.mayClose o .failed) :
    om.lifecycle.Wp (failOrder order reason) g
      (fun _ g => g = .finished) := by
  unfold failOrder
  have hOpen := Phase.ended_of_mayClose hMay
  exact wp_idle rfl hOpen fun _ => wp_finalizeOrderMinimal _ hId hMay

theorem wp_requeue
    {o : Order}
    {active : List Order}
    (order : Order)
    (backoff : Duration)
    (hId : order.id = o.id) :
    om.lifecycle.Wp (requeue order backoff)
      (.executing o active none) (fun _ g => g = .finished) := by
  unfold requeue
  refine wp_idle rfl rfl fun _ sent => ?_
  refine ⟨_, .requeue hId, fun _ => ?_⟩
  refine ⟨_, .exitLock, fun removed => ?_⟩
  refine ⟨_, .exitRemove hId, ?_⟩
  refine wp_idle rfl rfl fun _ _ => ?_
  exact ⟨_, .exitUnlock, rfl⟩

theorem wp_settle
    {active : List Order}
    {g : Phase}
    (o order : Order)
    (r : Except String String)
    (hId : order.id = o.id)
    (hPhase : Executed o active r g) :
    om.lifecycle.Wp (om.settle order r) g
      (fun _ g => g = .finished) := by
  rcases hPhase with ⟨live, rfl, hLive⟩
  cases r with
  | ok sig =>
      unfold settle
      refine wp_idle rfl rfl fun _ => ?_
      refine wp_idle rfl rfl fun _ => ?_
      refine wp_idle rfl rfl fun _ => ?_
      exact wp_finalizeOrderMinimal _ hId ⟨rfl, .inl rfl⟩
  | error e =>
      have hNone : live = none := hLive rfl
      subst hNone
      dsimp only [settle]
      split
      · split
        · trivial
        · exact wp_requeue order _ hId
      · refine wp_idle rfl rfl fun _ => ?_
        refine wp_idle rfl rfl fun _ => ?_
        exact wp_finalizeOrderMinimal _ hId ⟨rfl, .inr rfl⟩

theorem wp_executeApproved
    {o : Order}
    {active : List Order}
    (mint : Pubkey)
    (snapshot : Option BondingCurveParams) :
    om.lifecycle.Wp (om.executeApproved mint o snapshot)
      (.executing o active none) (fun _ g => g = .finished) := by
  unfold executeApproved
  refine wp_idle rfl rfl fun updatedAt => ?_
  intro _
  refine ⟨_, .announce rfl ⟨rfl, rfl⟩, ?_⟩
  dsimp only [Prog.bind]
  split
  · trivial
  · rename_i maxCost minOutput _
    refine Protocol.Wp.bind ?_
      fun r g (hPhase : Executed o active (r.getD om.timedOut) g) =>
        wp_settle o _ _ rfl hPhase
    apply Protocol.Wp.timeout (InExecution o active)
    · exact ⟨none, rfl⟩
    · rintro g t ⟨live, rfl⟩ hFired
      refine ⟨_, .deadline, none, ?_, fun _ => rfl⟩
      rw [hFired]
      rfl
    · rintro g t ⟨live, rfl⟩ hFired
      have hMove : om.Move (.executing o active live) (.sys .timer) t
          (.executing o active (if t then none else live)) :=
        .deadline
      rw [hFired] at hMove ⊢
      exact hMove
    · refine (execution_executeTrade _ _ fun _ => ?_).mono
        fun r g hPhase _ => hPhase
      rfl

theorem wp_gateAndExecute
    {o : Order}
    (mint : Pubkey) :
    om.lifecycle.Wp (om.gateAndExecute mint o)
      (.reading .execution o) (fun _ g => g = .finished) := by
  unfold gateAndExecute
  refine wp_idle rfl rfl fun riskScore => ?_
  refine wp_idle rfl rfl fun curve => ?_
  intro active
  refine ⟨_, .read, ?_⟩
  apply (wp_evaluate _ (om.asks_gateContext _ _ _ _)).bind
  rintro decision g rfl
  apply (wp_raiseDbPause _ _).bind
  rintro _ g rfl
  cases decision with
  | allow => exact wp_executeApproved mint _
  | reject reason => exact wp_failOrder _ _ rfl ⟨rfl, rfl⟩
  | halt reason => exact wp_failOrder _ _ rfl ⟨rfl, rfl⟩

theorem wp_processOrder
    (o : Order) :
    om.lifecycle.Wp (om.processOrder o) (.entering o)
      (fun _ g => g = .finished) := by
  unfold processOrder
  intro _
  refine ⟨_, .enter, ?_⟩
  refine wp_idle rfl rfl fun _ => ?_
  refine wp_idle rfl rfl fun _ => ?_
  dsimp only [Prog.bind]
  split
  · exact wp_failOrder _ _ rfl ⟨rfl, rfl⟩
  · exact wp_gateAndExecute _

------------------------------------------------------------
-- Conformance
------------------------------------------------------------

/- Every task of the order manager follows the life cycle. -/
theorem follows
    (om : OrderManager) :
    om.lifecycle.Follows om.machine (fun _ g => g.mayReturn) := by
  intro root
  cases root with
  | submitOrder o =>
      apply (wp_submitOrder o).bind
      rintro r g rfl
      trivial
  | processOrder o =>
      apply (wp_processOrder o).bind
      rintro r g rfl
      trivial
  | cancelOrder id =>
      apply (wp_cancelOrder id).bind
      rintro r g rfl
      trivial
  | pauseWallet reason rejectCount =>
      apply (wp_pauseWallet reason rejectCount).bind
      rintro r g rfl
      trivial

end OrderManager

end Pumpy
