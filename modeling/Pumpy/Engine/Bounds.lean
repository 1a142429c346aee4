import Pumpy.Engine.System

/-
  The trades of a pass.  Whatever the nodes answer, every
  transaction a pass simulates or submits trades the order's
  amount on the order's side under one bound, which the gate
  has checked against the snapshot it was given.

  Key definitions include:
    * `TradeData`
    * `Transaction.trades`
    * `Op.carries`
    * `Encodes`
    * `ConsistentBound`

  The main results are `exists_consistentBound` and
  `exists_trading_pass`.
-/

------------------------------------------------------------
-- Encoded Trades
------------------------------------------------------------

namespace Pumpy

open Interleaving

/- What a trade instruction tells the program on chain. -/
structure TradeData where
  side : OrderSide
  amount : Nat
  bound : Nat
deriving DecidableEq, Repr

/- The arguments of a trade instruction, behind its discriminator. -/
def tradeArgs
    (side : OrderSide)
    (args : List UInt8) : TradeData where
  side := side
  amount := fromLeBytes (args.take 8)
  bound := fromLeBytes (args.drop 8)

/- The trade an instruction encodes. -/
def Instruction.trade : Instruction → Option TradeData
  | pumpFun _ _ data =>
      if data.take 8 = buyDiscriminator then
        some (tradeArgs .buy (data.drop 8))
      else if data.take 8 = sellDiscriminator then
        some (tradeArgs .sell (data.drop 8))
      else
        none
  | systemTransfer _ _ _ => none

/- The trades of a transaction. -/
def Transaction.trades (tx : Transaction) : List TradeData :=
  tx.instructions.filterMap Instruction.trade

/- The transaction an operation simulates or submits. -/
def Op.carries : Op → Option Transaction
  | chain (.simulateTransaction tx) => some tx
  | chain (.sendBundle tx) => some tx
  | chain (.sendAndConfirmTransaction tx) => some tx
  | _ => none

/- The trade of an order under a bound. -/
def Order.tradeData (o : Order) (bound : UInt64) : TradeData where
  side := o.side
  amount := o.amount.toNat
  bound := bound.toNat

theorem tradeArgs_encoded
    (side : OrderSide)
    (amount bound : UInt64) :
    tradeArgs side (toLeBytes amount ++ toLeBytes bound) =
      ⟨side, amount.toNat, bound.toNat⟩ := by
  unfold tradeArgs
  rw [List.take_left' (length_toLeBytes amount),
    List.drop_left' (length_toLeBytes amount),
    fromLeBytes_toLeBytes, fromLeBytes_toLeBytes]

/- An order's trade instruction encodes the order and its bound. -/
theorem trade_tradeInstruction
    (om : OrderManager)
    (mint : Pubkey)
    (o : Order)
    (bound : UInt64) :
    (om.tradeInstruction mint o bound).trade =
      some (o.tradeData bound) := by
  have hBuy : buyDiscriminator.length = 8 := rfl
  have hSell : sellDiscriminator.length = 8 := rfl
  unfold OrderManager.tradeInstruction Order.tradeData
  cases o.side with
  | buy =>
      simp only [buildBuyInstruction, Instruction.trade,
        List.append_assoc]
      rw [List.take_left' hBuy, List.drop_left' hBuy, if_pos rfl,
        tradeArgs_encoded]
  | sell =>
      simp only [buildSellInstruction, Instruction.trade,
        List.append_assoc]
      rw [List.take_left' hSell, List.drop_left' hSell,
        if_neg (by decide), if_pos rfl, tradeArgs_encoded]

------------------------------------------------------------
-- One Trade for a Pass
------------------------------------------------------------

/- The operations of a pass up to the end of its gate. -/
def Op.gates : Op → Bool
  | chain (.getBondingCurveParams _) => true
  | engine (.emit _) => true
  | _ => false

/-
  An operation past the gate: what it carries trades `o` under
  `bound`, once.
-/
structure Encodes (o : Order) (bound : UInt64) (op : Op) : Prop where
  trades :
    ∀ tx, op.carries = some tx → tx.trades = [o.tradeData bound]
  later : op.gates = false

section Encodes

variable {om : OrderManager} {mint : Pubkey} {o : Order}
variable {bound : UInt64} {tip : Option Instruction}
variable {op : Op}

theorem encodes_of_neither
    (hNone : op.carries = none)
    (hLater : op.gates = false) :
    Encodes o bound op := by
  refine ⟨fun tx hCarries => ?_, hLater⟩
  rw [hNone] at hCarries
  cases hCarries

/- Building a transaction submits nothing. -/
theorem always_buildTransactionWithTip :
    (om.buildTransactionWithTip mint o bound tip).Always
      (Encodes o bound) := by
  refine Prog.always_act (encodes_of_neither rfl rfl) fun client => ?_
  cases client with
  | error e => exact Prog.always_done _
  | ok u =>
      refine Prog.always_act (encodes_of_neither rfl rfl)
        fun blockhash => ?_
      cases blockhash with
      | error e => exact Prog.always_done _
      | ok recentBlockhash => exact Prog.always_done _

/- What is built trades the order, whatever the tip. -/
theorem trades_of_built
    {tx : Transaction}
    (hTip : ∀ ix ∈ tip, ix.trade = none)
    (hBuilt :
      (om.buildTransactionWithTip mint o bound tip).CanReturn
        (.ok tx)) :
    tx.trades = [o.tradeData bound] := by
  rcases hBuilt with ⟨client, hBuilt⟩
  cases client with
  | error e => cases hBuilt
  | ok u =>
      rcases hBuilt with ⟨blockhash, hBuilt⟩
      cases blockhash with
      | error e => cases hBuilt
      | ok recentBlockhash =>
          cases hBuilt
          cases tip with
          | none =>
              simp [Transaction.trades, trade_tradeInstruction]
          | some ix =>
              have hNone : ix.trade = none := hTip ix rfl
              simp [Transaction.trades, trade_tradeInstruction, hNone]

theorem always_executeDirect
    {maxCost minOutput : UInt64}
    (hBound : bound = OrderManager.sideBound o.side maxCost minOutput) :
    (om.executeDirect mint o maxCost minOutput).Always
      (Encodes o bound) := by
  subst hBound
  apply Prog.Always.bind always_buildTransactionWithTip
  intro built hBuilt
  cases built with
  | error e => exact Prog.always_done _
  | ok tx =>
      refine Prog.always_act ⟨fun tx' hCarries => ?_, rfl⟩
        fun _ => Prog.always_done _
      cases hCarries
      exact trades_of_built (fun ix hMem => by cases hMem) hBuilt

theorem always_simulateFirst
    {jito : JitoClient} {simEnabled : Bool}
    (hTip : ∀ ix ∈ tip, ix.trade = none) :
    (om.simulateFirst jito mint o bound tip simEnabled).Always
      (Encodes o bound) := by
  unfold OrderManager.simulateFirst
  cases simEnabled with
  | false => exact Prog.always_done _
  | true =>
      apply Prog.Always.bind always_buildTransactionWithTip
      intro built hBuilt
      cases built with
      | error e => exact Prog.always_done _
      | ok simTx =>
          unfold OrderManager.executeSimulationGate
          cases jito.simRpcUrl with
          | none => exact Prog.always_done _
          | some url =>
              refine Prog.always_act ⟨fun tx hCarries => ?_, rfl⟩
                fun simulated => ?_
              · cases hCarries
                exact trades_of_built hTip hBuilt
              · cases simulated <;> exact Prog.always_done _

theorem always_waitBeforeRetry
    (jitoAttempt : Nat) :
    (OrderManager.waitBeforeRetry jitoAttempt).Always
      (Encodes o bound) := by
  unfold OrderManager.waitBeforeRetry
  split
  · exact Prog.always_act (encodes_of_neither rfl rfl)
      fun _ => Prog.always_done _
  · exact Prog.always_done _

theorem always_pollBundleFailed
    (bundleId : String)
    (n : Nat) :
    (OrderManager.pollBundleFailed bundleId n).Always
      (Encodes o bound) := by
  induction n with
  | zero => exact Prog.always_done _
  | succ n ih =>
      refine Prog.always_act (encodes_of_neither rfl rfl) fun _ => ?_
      refine Prog.always_act (encodes_of_neither rfl rfl)
        fun status => ?_
      cases status with
      | error e => exact ih
      | ok status =>
          dsimp only [Prog.bind]
          split
          · exact Prog.always_done _
          · split
            · exact Prog.always_done _
            · exact ih

theorem always_bundleAttempts
    (hTip : ∀ ix ∈ tip, ix.trade = none)
    (n jitoAttempt : Nat) :
    (om.bundleAttempts mint o bound tip n jitoAttempt).Always
      (Encodes o bound) := by
  induction n generalizing jitoAttempt with
  | zero => exact Prog.always_done _
  | succ n ih =>
      apply Prog.Always.bind (always_waitBeforeRetry jitoAttempt)
      intro _ _
      apply Prog.Always.bind always_buildTransactionWithTip
      intro built hBuilt
      cases built with
      | error e => exact Prog.always_done _
      | ok tradeTx =>
          refine Prog.always_act ⟨fun tx hCarries => ?_, rfl⟩
            fun reply => ?_
          · cases hCarries
            exact trades_of_built hTip hBuilt
          · cases reply with
            | error e => exact ih _
            | ok bundleId =>
                apply Prog.Always.bind
                  (always_pollBundleFailed bundleId 5)
                intro failed _
                cases failed with
                | true => exact ih _
                | false => exact Prog.always_done _

theorem always_executeViaJitoMinimal
    {jito : JitoClient} {maxCost minOutput : UInt64}
    (hBound : bound = OrderManager.sideBound o.side maxCost minOutput) :
    (om.executeViaJitoMinimal jito mint o maxCost minOutput).Always
      (Encodes o bound) := by
  subst hBound
  refine Prog.always_act (encodes_of_neither rfl rfl)
    fun tipPercent => ?_
  refine Prog.always_act (encodes_of_neither rfl rfl)
    fun tipFloor => ?_
  refine Prog.always_act (encodes_of_neither rfl rfl)
    fun tipCeiling => ?_
  refine Prog.always_act (encodes_of_neither rfl rfl)
    fun tipAccount => ?_
  refine Prog.always_act (encodes_of_neither rfl rfl)
    fun simSetting => ?_
  have hTip :
      ∀ lamports,
        ∀ ix ∈ tipAccount.map fun account =>
            Instruction.systemTransfer om.payer account lamports,
          ix.trade = none := by
    intro lamports ix hMem
    cases tipAccount with
    | none => cases hMem
    | some account =>
        cases hMem
        rfl
  apply Prog.Always.bind (always_simulateFirst (hTip _))
  intro gate _
  cases gate with
  | error e => exact Prog.always_done _
  | ok u => exact always_bundleAttempts (hTip _) 2 0

theorem always_executeTrade
    {maxCost minOutput : UInt64}
    (hBound : bound = OrderManager.sideBound o.side maxCost minOutput) :
    (om.executeTrade mint o maxCost minOutput).Always
      (Encodes o bound) := by
  unfold OrderManager.executeTrade
  split
  · apply Prog.Always.bind (always_executeViaJitoMinimal hBound)
    intro result _
    cases result with
    | ok sig =>
        exact Prog.always_act (encodes_of_neither rfl rfl)
          fun _ => Prog.always_done _
    | error e =>
        dsimp only
        unfold OrderManager.afterJitoError
        split
        · exact Prog.always_done _
        · exact always_executeDirect hBound
  · exact always_executeDirect hBound

/- What follows an execution carries no transaction. -/
theorem always_finalizeOrderMinimal
    (o' : Order) :
    (OrderManager.finalizeOrderMinimal o').Always (Encodes o bound) := by
  have hLeave :
      (OrderManager.finalizeOrderMinimal.leave o').Always
        (Encodes o bound) := by
    iterate 6
      refine Prog.always_act (encodes_of_neither rfl rfl) fun _ => ?_
    exact Prog.always_done _
  refine Prog.always_act (encodes_of_neither rfl rfl) fun updated => ?_
  cases updated with
  | error e => exact Prog.always_done _
  | ok u =>
      dsimp only [Prog.bind]
      split
      · exact Prog.always_act (encodes_of_neither rfl rfl)
          fun _ => hLeave
      · exact hLeave

theorem always_settle
    (o' : Order)
    (result : Except String String) :
    (om.settle o' result).Always (Encodes o bound) := by
  unfold OrderManager.settle
  split
  · iterate 3
      refine Prog.always_act (encodes_of_neither rfl rfl) fun _ => ?_
    exact always_finalizeOrderMinimal _
  · split
    · split
      · exact Prog.always_crash
      · iterate 6
          refine Prog.always_act (encodes_of_neither rfl rfl)
            fun _ => ?_
        exact Prog.always_done _
    · iterate 2
        refine Prog.always_act (encodes_of_neither rfl rfl)
          fun _ => ?_
      exact always_finalizeOrderMinimal _

theorem always_failOrder
    (o o' : Order)
    (bound : UInt64)
    (reason : String) :
    (OrderManager.failOrder o' reason).Always (Encodes o bound) :=
  Prog.always_act (encodes_of_neither rfl rfl)
    fun _ => always_finalizeOrderMinimal _

theorem always_raiseDbPause
    (o : Order)
    (bound : UInt64)
    (d : Decision)
    (default : String) :
    (OrderManager.raiseDbPause d default).Always (Encodes o bound) := by
  refine Prog.always_act (encodes_of_neither rfl rfl)
    fun needsDbPause => ?_
  cases needsDbPause with
  | false => exact Prog.always_done _
  | true =>
      iterate 2
        refine Prog.always_act (encodes_of_neither rfl rfl)
          fun _ => ?_
      exact Prog.always_done _

/- Every transaction of an approved order carries the same trade. -/
theorem always_executeApproved
    {snapshot : Option BondingCurveParams}
    {maxCost minOutput : UInt64}
    (hBounds : om.slippageBounds o snapshot = some (maxCost, minOutput)) :
    (om.executeApproved mint o snapshot).Always
      (Encodes o (OrderManager.sideBound o.side maxCost minOutput)) := by
  refine Prog.always_act (encodes_of_neither rfl rfl)
    fun updatedAt => ?_
  refine Prog.always_act (encodes_of_neither rfl rfl) fun _ => ?_
  have hSame :
      om.slippageBounds
          { o with status := .executing, updatedAt := updatedAt }
          snapshot =
        some (maxCost, minOutput) :=
    hBounds
  dsimp only [Prog.bind]
  rw [hSame]
  refine Prog.Always.bind ?_ fun result _ => always_settle _ _
  intro op hExecutes
  rcases Prog.canExecute_timeout hExecutes with rfl | hTrade
  · exact encodes_of_neither rfl rfl
  · exact always_executeTrade rfl op hTrade

/- An order whose bounds overflow carries nothing. -/
theorem always_executeApproved_of_panic
    {snapshot : Option BondingCurveParams}
    (hPanics : om.slippageBounds o snapshot = none)
    (bound : UInt64) :
    (om.executeApproved mint o snapshot).Always (Encodes o bound) := by
  refine Prog.always_act (encodes_of_neither rfl rfl)
    fun updatedAt => ?_
  refine Prog.always_act (encodes_of_neither rfl rfl) fun _ => ?_
  have hSame :
      om.slippageBounds
          { o with status := .executing, updatedAt := updatedAt }
          snapshot =
        none :=
    hPanics
  dsimp only [Prog.bind]
  rw [hSame]
  exact Prog.always_crash

end Encodes

------------------------------------------------------------
-- Allowed Orders
------------------------------------------------------------

section Allowed

variable {de : DecisionEngine} {ctx : DecisionContext}
variable {d d' : Decision}

theorem canReturn_emit :
    (DecisionEngine.emit ctx d).CanReturn d' ↔ d = d' := by
  constructor
  · rintro ⟨_, hEq⟩
    exact hEq
  · intro hEq
    exact ⟨(), hEq⟩

/- A reject is never turned into an allow. -/
theorem not_canReturn_onReject_allow
    (reason : String) :
    ¬(de.onReject ctx (.reject reason)).CanReturn .allow := by
  rintro ⟨prev, hReturns⟩
  dsimp only [Prog.bind] at hReturns
  split at hReturns
  · exact hReturns
  · unfold DecisionEngine.countReject at hReturns
    split at hReturns
    · rcases hReturns with ⟨wasPaused, hReturns⟩
      cases wasPaused with
      | true => cases canReturn_emit.mp hReturns
      | false =>
          rcases hReturns with ⟨_, hReturns⟩
          cases canReturn_emit.mp hReturns
    · cases canReturn_emit.mp hReturns

/- What an evaluation may allow is what the rules pass. -/
theorem canReturn_allow_iff :
    (de.evaluate ctx).CanReturn .allow ↔
      ctx.demoMode = false ∧ ctx.verdict de.profile = .pass := by
  constructor
  · rintro ⟨autoPaused, hReturns⟩
    cases autoPaused with
    | true => cases canReturn_emit.mp hReturns
    | false =>
        dsimp only [Prog.bind] at hReturns
        rw [if_neg (by simp)] at hReturns
        cases hDemo : ctx.demoMode with
        | true =>
            rw [if_pos hDemo] at hReturns
            cases canReturn_emit.mp hReturns
        | false =>
            rw [if_neg (by simp [hDemo])] at hReturns
            cases hVerdict : ctx.verdict de.profile with
            | pass => exact ⟨rfl, rfl⟩
            | violates reason =>
                rw [hVerdict] at hReturns
                exact absurd hReturns
                  (not_canReturn_onReject_allow reason)
            | panics =>
                rw [hVerdict] at hReturns
                exact hReturns.elim
  · rintro ⟨hDemo, hVerdict⟩
    refine ⟨false, ?_⟩
    dsimp only [Prog.bind]
    rw [if_neg (by simp), if_neg (by simp [hDemo]), hVerdict]
    exact ⟨(), (), rfl⟩

end Allowed

------------------------------------------------------------
-- Feasible Bounds
------------------------------------------------------------

theorem le_saturatingAdd (a b : UInt64) :
    a ≤ saturatingAdd a b := by
  have hA := a.toNat_lt
  rw [UInt64.le_iff_toNat_le, saturatingAdd, UInt64.toNat_ofNat']
  omega

theorem saturatingSub_le (a b : UInt64) :
    saturatingSub a b ≤ a := by
  have hA := a.toNat_lt
  rw [UInt64.le_iff_toNat_le, saturatingSub, UInt64.toNat_ofNat']
  omega

/- The slippage only widens what the pool quotes. -/
theorem quotes_of_priceImpact
    {params : BondingCurveParams} {profile : BuildProfile}
    {amount slippageBps maxCost minOutput : UInt64}
    (hImpact :
      params.calculatePriceImpact profile amount slippageBps =
        some (maxCost, minOutput)) :
    params.solCostForTokens amount ≤ maxCost ∧
      minOutput ≤ params.solForTokens amount := by
  rcases BondingCurveParams.calculatePriceImpact_inv hImpact with
    ⟨hCost, cut, _, rfl⟩
  refine ⟨?_, saturatingSub_le _ _⟩
  rcases hCost with ⟨hMax, rfl⟩ | ⟨_, buffer, _, rfl⟩
  · rw [hMax]
    exact UInt64.le_refl _
  · exact le_saturatingAdd _ _

section Feasible

variable {om : OrderManager} {o : Order} {score : UInt32}
variable {snapshot : Option BondingCurveParams}
variable {active : List Order} {params : BondingCurveParams}

/- An allowed order has passed the rule on the snapshot. -/
theorem curveVerdict_of_pass
    {profile : BuildProfile} {ctx : DecisionContext}
    (hPass : ctx.verdict profile = .pass) :
    ctx.curveVerdict profile = .pass := by
  unfold DecisionContext.verdict at hPass
  split_ifs at hPass
  exact hPass

/- What the rule on the snapshot says of an order that passes it. -/
theorem bounds_of_curveVerdict
    {profile : BuildProfile} {ctx : DecisionContext}
    (hSnapshot : ctx.bondingCurveParams = some params)
    (hPass : ctx.curveVerdict profile = .pass) :
    ∃ dynamicMaxCost dynamicMinOutput,
      params.calculatePriceImpact profile ctx.order.amount
          ctx.order.slippageBps =
        some (dynamicMaxCost, dynamicMinOutput) ∧
      (∀ maxCost, ctx.order.maxCost = some maxCost →
        dynamicMaxCost ≤ maxCost) ∧
      (∀ minOutput, ctx.order.minOutput = some minOutput →
        minOutput ≤ dynamicMinOutput) := by
  unfold DecisionContext.curveVerdict at hPass
  rw [hSnapshot] at hPass
  dsimp only at hPass
  split at hPass
  · cases hPass
  · rename_i dynamicMaxCost dynamicMinOutput hImpact
    refine ⟨dynamicMaxCost, dynamicMinOutput, hImpact, ?_⟩
    unfold DecisionContext.boundsVerdict at hPass
    split at hPass
    · cases hPass
    · rename_i hMax
      split at hPass
      · cases hPass
      · rename_i hMin
        constructor
        · intro maxCost hExplicit
          rw [hExplicit, Option.filter_some] at hMax
          split at hMax
          · cases hMax
          · rename_i hNot
            simpa using hNot
        · intro minOutput hExplicit
          rw [hExplicit, Option.filter_some] at hMin
          split at hMin
          · cases hMin
          · rename_i hNot
            simpa using hNot

end Feasible

------------------------------------------------------------
-- Passes That Are Allowed
------------------------------------------------------------

/- The evaluation of the pass has returned `Allow`. -/
def AllowedIn (h : List OmCall) : Prop :=
  ∃ rec u, rec.decision = .allow ∧ ⟨.engine (.emit rec), u⟩ ∈ h

/- The pass was given this snapshot, or none. -/
def SnapshotIn
    (h : List OmCall)
    (snapshot : Option BondingCurveParams) : Prop :=
  ∃ mint curve,
    ⟨.chain (.getBondingCurveParams mint), curve⟩ ∈ h ∧
      curve.toOption = snapshot

/- The program's last operation logs the decision it returns. -/
def EmitsLast (p : OmProg Decision) : Prop :=
  ∀ h q rec u,
    p.After h q → ⟨.engine (.emit rec), u⟩ ∈ h →
      q = .done rec.decision

section Emits

variable {de : DecisionEngine} {ctx : DecisionContext}

theorem emitsLast_crash :
    EmitsLast .crash := by
  intro h q rec u hAfter hMem
  cases hAfter
  cases hMem

theorem emitsLast_act
    {op : Op} {k : op.Resp → OmProg Decision}
    (hOther : op.gates = false)
    (hRest : ∀ r, EmitsLast (k r)) :
    EmitsLast (.act op k) := by
  intro h q rec u hAfter hMem
  rcases hAfter.act_inv with ⟨rfl, _⟩ | ⟨r, h', rfl, hLater⟩
  · cases hMem
  · rcases List.mem_cons.mp hMem with hEq | hOld
    · cases hEq
      cases hOther
    · exact hRest r h' q rec u hLater hOld

theorem emitsLast_emit
    (d : Decision) :
    EmitsLast (DecisionEngine.emit ctx d) := by
  intro h q rec u hAfter hMem
  rcases hAfter.act_inv with ⟨rfl, _⟩ | ⟨r, h', rfl, hLater⟩
  · cases hMem
  · rcases hLater.done_inv with ⟨rfl, rfl⟩
    cases List.mem_singleton.mp hMem
    rfl

theorem emitsLast_countReject
    (d : Decision)
    (count : UInt32) :
    EmitsLast (de.countReject ctx d count) := by
  unfold DecisionEngine.countReject
  split
  · refine emitsLast_act rfl fun wasPaused => ?_
    cases wasPaused with
    | true => exact emitsLast_emit d
    | false => exact emitsLast_act rfl fun _ => emitsLast_emit _
  · exact emitsLast_emit d

theorem emitsLast_evaluate :
    EmitsLast (de.evaluate ctx) := by
  refine emitsLast_act rfl fun autoPaused => ?_
  cases autoPaused with
  | true => exact emitsLast_emit _
  | false =>
      dsimp only [Prog.bind]
      rw [if_neg (by simp)]
      split
      · exact emitsLast_emit _
      · split
        · refine emitsLast_act rfl fun prev => ?_
          dsimp only [Prog.bind]
          split
          · exact emitsLast_crash
          · exact emitsLast_countReject _ _
        · exact emitsLast_crash
        · exact emitsLast_act rfl fun _ => emitsLast_emit _

/- Operations that neither carry a trade nor fetch a snapshot. -/
structure Blind (op : Op) : Prop where
  carries : op.carries = none
  fetches : ∀ mint, op ≠ .chain (.getBondingCurveParams mint)

theorem always_blind_emit
    (d : Decision) :
    (DecisionEngine.emit ctx d).Always Blind :=
  Prog.always_act ⟨rfl, fun _ hEq => by cases hEq⟩
    fun _ => Prog.always_done _

theorem always_blind_evaluate :
    (de.evaluate ctx).Always Blind := by
  have hBlind :
      ∀ op : EngineOp, Blind (.engine op) :=
    fun op => ⟨rfl, fun _ hEq => by cases hEq⟩
  refine Prog.always_act (hBlind _) fun autoPaused => ?_
  cases autoPaused with
  | true => exact always_blind_emit _
  | false =>
      dsimp only [Prog.bind]
      rw [if_neg (by simp)]
      split
      · exact always_blind_emit _
      · split
        · refine Prog.always_act (hBlind _) fun prev => ?_
          dsimp only [Prog.bind]
          split
          · exact Prog.always_crash
          · unfold DecisionEngine.countReject
            split
            · refine Prog.always_act (hBlind _) fun wasPaused => ?_
              cases wasPaused with
              | true => exact always_blind_emit _
              | false =>
                  exact Prog.always_act (hBlind _)
                    fun _ => always_blind_emit _
            · exact always_blind_emit _
        · exact Prog.always_crash
        · exact Prog.always_act (hBlind _) fun _ => always_blind_emit _

end Emits

section Passes

variable {om : OrderManager} {o : Order} {α : Type}
variable {p q : OmProg α} {h : List OmCall}

theorem not_allowedIn_nil :
    ¬AllowedIn [] := by
  rintro ⟨rec, u, _, hMem⟩
  cases hMem

/- Before its evaluation has ended a pass is not allowed. -/
theorem AllowedIn.step
    {op : Op} {k : op.Resp → OmProg α}
    (hAfter : (Prog.act op k).After h q)
    (hAllowed : AllowedIn h)
    (hOther : ∀ rec, op ≠ .engine (.emit rec)) :
    ∃ r h',
      h = ⟨op, r⟩ :: h' ∧ (k r).After h' q ∧ AllowedIn h' := by
  rcases hAfter.act_inv with ⟨rfl, _⟩ | ⟨r, h', rfl, hRest⟩
  · exact absurd hAllowed not_allowedIn_nil
  · refine ⟨r, h', rfl, hRest, ?_⟩
    rcases hAllowed with ⟨rec, u, hAllow, hMem⟩
    rcases List.mem_cons.mp hMem with hEq | hOld
    · cases hEq
      exact absurd rfl (hOther rec)
    · exact ⟨rec, u, hAllow, hOld⟩

/- What follows the evaluation of an order that is allowed. -/
def OrderManager.afterAllow
    (om : OrderManager)
    (mint : Pubkey)
    (o : Order)
    (snapshot : Option BondingCurveParams) :
    OmProg (Except OrderError Unit) := do
  OrderManager.raiseDbPause .allow
    "consecutive_reject threshold exceeded (execution gate)"
  om.executeApproved mint o snapshot

theorem always_afterAllow
    {v : Order} {bound : UInt64} {mint : Pubkey}
    {snapshot : Option BondingCurveParams}
    (hApproved :
      (om.executeApproved mint v snapshot).Always (Encodes v bound)) :
    (om.afterAllow mint v snapshot).Always (Encodes v bound) :=
  Prog.Always.bind (always_raiseDbPause _ _ _ _) fun _ _ => hApproved

/-
  What an allowed pass has been given, the executed calls up to
  the end of its evaluation, and those after.
-/
structure GatedAt
    (om : OrderManager)
    (v : Order)
    (mint : Pubkey)
    (snapshot : Option BondingCurveParams)
    (h h₁ h₂ : List OmCall)
    (t : OmProg (Except OrderError Unit)) : Prop where
  split : h = h₁ ++ h₂
  quiet : ∀ c ∈ h₁, c.1.carries = none
  given : ∀ snapshot', SnapshotIn h₁ snapshot' → snapshot = snapshot'
  allowed :
    ∃ score active,
      (om.decisionEngine.evaluate
        (om.gateContext v score snapshot active)).CanReturn .allow
  rest : (om.afterAllow mint v snapshot).After h₂ t

/- A call that neither carries a trade nor fetches goes in front. -/
theorem GatedAt.cons
    {v : Order} {mint : Pubkey}
    {snapshot : Option BondingCurveParams} {h₁ h₂ : List OmCall}
    {t : OmProg (Except OrderError Unit)} {op : Op}
    (r : op.Resp)
    (hBlind : Blind op)
    (hGated : GatedAt om v mint snapshot h h₁ h₂ t) :
    GatedAt om v mint snapshot (⟨op, r⟩ :: h) (⟨op, r⟩ :: h₁) h₂ t := by
  refine ⟨?_, ?_, ?_, hGated.allowed, hGated.rest⟩
  · rw [hGated.split, List.cons_append]
  · intro c' hMem
    rcases List.mem_cons.mp hMem with rfl | hOld
    · exact hBlind.carries
    · exact hGated.quiet c' hOld
  · rintro snapshot' ⟨mint', curve, hMem, hCurve⟩
    rcases List.mem_cons.mp hMem with hEq | hOld
    · cases hEq
      exact absurd rfl (hBlind.fetches mint')
    · exact hGated.given snapshot' ⟨mint', curve, hOld, hCurve⟩

/- The fetch of the snapshot goes in front. -/
theorem GatedAt.fetch
    {v : Order} {mint : Pubkey} {h₁ h₂ : List OmCall}
    {t : OmProg (Except OrderError Unit)}
    {curve : Except String BondingCurveParams}
    (hGated : GatedAt om v mint curve.toOption h h₁ h₂ t)
    (hUnfetched : ∀ snapshot, ¬SnapshotIn h₁ snapshot) :
    GatedAt om v mint curve.toOption
      (⟨.chain (.getBondingCurveParams mint), curve⟩ :: h)
      (⟨.chain (.getBondingCurveParams mint), curve⟩ :: h₁) h₂ t := by
  refine ⟨?_, ?_, ?_, hGated.allowed, hGated.rest⟩
  · rw [hGated.split, List.cons_append]
  · intro c' hMem
    rcases List.mem_cons.mp hMem with rfl | hOld
    · rfl
    · exact hGated.quiet c' hOld
  · rintro snapshot' ⟨mint', curve', hMem, hCurve⟩
    rcases List.mem_cons.mp hMem with hEq | hOld
    · cases hEq
      exact hCurve
    · exact absurd ⟨mint', curve', hOld, hCurve⟩
        (hUnfetched snapshot')

/- What follows the read of the active map. -/
def OrderManager.afterRead
    (om : OrderManager)
    (mint : Pubkey)
    (v : Order)
    (score : UInt32)
    (snapshot : Option BondingCurveParams)
    (active : List Order) : OmProg (Except OrderError Unit) := do
  let decision ←
    om.decisionEngine.evaluate (om.gateContext v score snapshot active)
  OrderManager.raiseDbPause decision
    "consecutive_reject threshold exceeded (execution gate)"
  if decision.isAllow then
    om.executeApproved mint v snapshot
  else
    OrderManager.failOrder v
      ("DecisionEngine " ++ decision.label ++ ": " ++ decision.reason)

theorem later_executeApproved
    {v : Order} {mint : Pubkey}
    (snapshot : Option BondingCurveParams) :
    (om.executeApproved mint v snapshot).Always (·.gates = false) := by
  cases hBounds : om.slippageBounds v snapshot with
  | none =>
      exact fun op hExecutes =>
        (always_executeApproved_of_panic hBounds 0 op hExecutes).later
  | some bounds =>
      exact fun op hExecutes =>
        (always_executeApproved hBounds op hExecutes).later

/- A logged decision is the one its evaluation has returned. -/
theorem evaluated_of_emits
    {v : Order} {mint : Pubkey} {score : UInt32}
    {snapshot : Option BondingCurveParams} {active : List Order}
    {t : OmProg (Except OrderError Unit)} {rec : AuditRecord} {u : Unit}
    (hAfter : (om.afterRead mint v score snapshot active).After h t)
    (hMem : ⟨.engine (.emit rec), u⟩ ∈ h) :
    ∃ h₁ h₂,
      h = h₁ ++ h₂ ∧
        (om.decisionEngine.evaluate
          (om.gateContext v score snapshot active)).After h₁
            (.done rec.decision) ∧
          (rec.decision = .allow →
            (om.afterAllow mint v snapshot).After h₂ t) := by
  rcases Prog.after_bind hAfter with
    ⟨q, hEval, hOpen, _⟩ | ⟨h₁, h₂, d, rfl, hEval, hRest⟩
  · exact absurd (emitsLast_evaluate h q rec u hEval hMem) (hOpen _)
  · have hSame : d = rec.decision := by
      rcases List.mem_append.mp hMem with hEarly | hLater
      · exact Prog.done.inj (emitsLast_evaluate h₁ _ rec u hEval hEarly)
      · have hLate :
            (OrderManager.raiseDbPause d
                "consecutive_reject threshold exceeded (execution gate)"
              >>= fun _ =>
                if d.isAllow then
                  om.executeApproved mint v snapshot
                else
                  OrderManager.failOrder v
                    ("DecisionEngine " ++ d.label ++ ": " ++
                      d.reason)).Always (·.gates = false) := by
          refine Prog.Always.bind
            (fun op hExecutes =>
              (always_raiseDbPause v 0 _ _ op hExecutes).later)
            fun _ _ => ?_
          split
          · exact later_executeApproved snapshot
          · exact fun op hExecutes =>
              (always_failOrder v v 0 _ op hExecutes).later
        cases hLate _ (hRest.canExecute hLater)
    subst hSame
    refine ⟨h₁, h₂, rfl, hEval, fun hAllow => ?_⟩
    rw [hAllow] at hRest
    exact hRest

/- The evaluation of a pass that is allowed, and what follows it. -/
theorem gatedAt_of_evaluated
    {v : Order} {mint : Pubkey} {score : UInt32}
    {snapshot : Option BondingCurveParams} {active : List Order}
    {t : OmProg (Except OrderError Unit)}
    (hAfter : (om.afterRead mint v score snapshot active).After h t)
    (hAllowed : AllowedIn h) :
    ∃ h₁ h₂,
      GatedAt om v mint snapshot h h₁ h₂ t ∧
        ∀ snapshot', ¬SnapshotIn h₁ snapshot' := by
  rcases hAllowed with ⟨rec, u, hAllow, hMem⟩
  rcases evaluated_of_emits hAfter hMem with ⟨h₁, h₂, rfl, hEval, hRest⟩
  rw [hAllow] at hEval
  have hBlind :
      ∀ c ∈ h₁, Blind c.1 :=
    fun c hMem => always_blind_evaluate _ (hEval.canExecute hMem)
  have hUnfetched : ∀ snapshot', ¬SnapshotIn h₁ snapshot' := by
    rintro snapshot' ⟨mint', curve', hMem, _⟩
    exact (hBlind _ hMem).fetches mint' rfl
  exact ⟨h₁, h₂,
    ⟨rfl, fun c hMem => (hBlind c hMem).carries,
      fun snapshot' hGiven => absurd hGiven (hUnfetched snapshot'),
      ⟨score, active, hEval.canReturn⟩, hRest hAllow⟩,
    hUnfetched⟩

/-
  A pass that is allowed has been given a snapshot, or none,
  the rules have passed its order on it, and it executes the
  order on that snapshot.
-/
theorem exists_gatedAt
    {t : OmProg (Except OrderError Unit)}
    (hAfter : (om.processOrder o).After h t)
    (hAllowed : AllowedIn h) :
    ∃ mint snapshot h₁ h₂,
      om.pubkeyFromStr o.mint = some mint ∧
        GatedAt om { o with status := .validating } mint snapshot h h₁
          h₂ t := by
  have hBlind :
      ∀ (op : Op), op.gates = false → op.carries = none → Blind op := by
    intro op hGates hCarries
    refine ⟨hCarries, ?_⟩
    rintro mint rfl
    cases hGates
  rcases hAllowed.step hAfter (fun _ hEq => by cases hEq) with
    ⟨_, h, rfl, hAfter, hAllowed⟩
  rcases hAllowed.step hAfter (fun _ hEq => by cases hEq) with
    ⟨_, h, rfl, hAfter, hAllowed⟩
  rcases hAllowed.step hAfter (fun _ hEq => by cases hEq) with
    ⟨_, h, rfl, hAfter, hAllowed⟩
  dsimp only [Prog.bind] at hAfter
  split at hAfter
  · rcases hAllowed with ⟨rec, u, _, hMem⟩
    have hLate :=
      always_failOrder o _ 0 _ _
        (hAfter.canExecute hMem)
    cases hLate.later
  · rename_i mint hMint
    rcases hAllowed.step hAfter (fun _ hEq => by cases hEq) with
      ⟨score, h, rfl, hAfter, hAllowed⟩
    rcases hAllowed.step hAfter (fun _ hEq => by cases hEq) with
      ⟨curve, h, rfl, hAfter, hAllowed⟩
    rcases hAllowed.step hAfter (fun _ hEq => by cases hEq) with
      ⟨active, h, rfl, hAfter, hAllowed⟩
    rcases gatedAt_of_evaluated hAfter hAllowed with
      ⟨h₁, h₂, hGated, hUnfetched⟩
    have hRead := hGated.cons active (hBlind (.map .activeValues) rfl rfl)
    have hFetched :=
      hRead.fetch fun snapshot hGiven => by
        rcases hGiven with ⟨mint', curve', hMem, hCurve⟩
        rcases List.mem_cons.mp hMem with hEq | hOld
        · cases hEq
        · exact hUnfetched snapshot ⟨mint', curve', hOld, hCurve⟩
    exact ⟨mint, curve.toOption, _, h₂, hMint,
      (((hFetched.cons score (hBlind _ rfl rfl)).cons
        _ (hBlind _ rfl rfl)).cons _ (hBlind _ rfl rfl)).cons
          _ (hBlind _ rfl rfl)⟩

end Passes

------------------------------------------------------------
-- Consistent Bounds
------------------------------------------------------------

/- The bound the order itself states for its side. -/
def Order.explicitBound (o : Order) : Option UInt64 :=
  match o.side with
  | .buy => o.maxCost
  | .sell => o.minOutput

/- The order does not fail its bound against the snapshot. -/
def Feasible
    (o : Order)
    (bound : UInt64)
    (params : BondingCurveParams) : Prop :=
  match o.side with
  | .buy => params.solCostForTokens o.amount ≤ bound
  | .sell => bound ≤ params.solForTokens o.amount

/-
  All transactions of a pass encode the order under one bound:
  the order's own if it states one, and feasible on the
  snapshot if there is one.
-/
structure ConsistentBound
    (o : Order)
    (h : List OmCall)
    (bound : UInt64) : Prop where
  encoded :
    ∀ c ∈ h, ∀ tx, c.1.carries = some tx →
      tx.trades = [o.tradeData bound]
  explicit : ∀ b, o.explicitBound = some b → bound = b
  feasible :
    ∀ params, SnapshotIn h (some params) → Feasible o bound params

section Consistent

variable {om : OrderManager} {o v : Order} {mint : Pubkey}
variable {snapshot : Option BondingCurveParams}
variable {maxCost minOutput : UInt64}

/- The bounds of a pass before the order's own are looked at. -/
def OrderManager.dynamicBounds
    (om : OrderManager)
    (o : Order) :
    Option BondingCurveParams → Option (UInt64 × UInt64)
  | some params =>
      params.calculatePriceImpact om.decisionEngine.profile o.amount
        o.slippageBps
  | none =>
      (om.decisionEngine.profile.mul o.amount o.slippageBps).bind
        fun scaled =>
          (om.decisionEngine.profile.add o.amount (scaled / 10000)).map
            fun mc => (mc, saturatingSub o.amount (scaled / 10000))

theorem slippageBounds_eq
    (om : OrderManager)
    (o : Order)
    (snapshot : Option BondingCurveParams) :
    om.slippageBounds o snapshot =
      (om.dynamicBounds o snapshot).map fun dyn =>
        (o.maxCost.getD dyn.1, o.minOutput.getD dyn.2) := by
  unfold OrderManager.slippageBounds OrderManager.dynamicBounds
  cases snapshot with
  | some params =>
      dsimp only
      cases params.calculatePriceImpact om.decisionEngine.profile
        o.amount o.slippageBps <;> rfl
  | none =>
      dsimp only
      cases om.decisionEngine.profile.mul o.amount o.slippageBps with
      | none => rfl
      | some scaled =>
          cases hSum :
              om.decisionEngine.profile.add o.amount (scaled / 10000) <;>
            simp [hSum]

/- The order's own bound is taken where it has one. -/
theorem sideBound_of_explicit
    {b : UInt64}
    (hBounds : om.slippageBounds v snapshot = some (maxCost, minOutput))
    (hExplicit : v.explicitBound = some b) :
    OrderManager.sideBound v.side maxCost minOutput = b := by
  rw [slippageBounds_eq] at hBounds
  rcases Option.map_eq_some_iff.mp hBounds with ⟨dyn, _, hEq⟩
  cases hEq
  unfold Order.explicitBound at hExplicit
  cases hSide : v.side with
  | buy =>
      rw [hSide] at hExplicit
      dsimp only at hExplicit
      simp [OrderManager.sideBound, hExplicit]
  | sell =>
      rw [hSide] at hExplicit
      dsimp only at hExplicit
      simp [OrderManager.sideBound, hExplicit]

/- On the snapshot it was approved on, a pass has feasible bounds. -/
theorem feasible_of_allowed
    {score : UInt32} {active : List Order}
    {params : BondingCurveParams}
    (hAllow :
      (om.decisionEngine.evaluate
        (om.gateContext v score (some params) active)).CanReturn
          .allow) :
    ∃ maxCost minOutput,
      om.slippageBounds v (some params) = some (maxCost, minOutput) ∧
        Feasible v (OrderManager.sideBound v.side maxCost minOutput)
          params := by
  have hPass := curveVerdict_of_pass (canReturn_allow_iff.mp hAllow).2
  rcases bounds_of_curveVerdict rfl hPass with
    ⟨dynamicMaxCost, dynamicMinOutput, hImpact, hMax, hMin⟩
  rcases quotes_of_priceImpact hImpact with ⟨hCost, hOut⟩
  refine ⟨v.maxCost.getD dynamicMaxCost,
    v.minOutput.getD dynamicMinOutput, ?_, ?_⟩
  · have hDynamic :
        om.dynamicBounds v (some params) =
          some (dynamicMaxCost, dynamicMinOutput) :=
      hImpact
    rw [slippageBounds_eq, hDynamic]
    rfl
  · unfold Feasible OrderManager.sideBound
    cases v.side with
    | buy =>
        dsimp only
        cases hExplicit : v.maxCost with
        | none => exact hCost
        | some maxCost =>
            exact UInt64.le_trans hCost (hMax maxCost hExplicit)
    | sell =>
        dsimp only
        cases hExplicit : v.minOutput with
        | none => exact hOut
        | some minOutput =>
            exact UInt64.le_trans (hMin minOutput hExplicit) hOut

end Consistent

section Given

variable {om : OrderManager} {v : Order} {mint : Pubkey}
variable {snapshot : Option BondingCurveParams}
variable {h h₁ h₂ : List OmCall}
variable {t : OmProg (Except OrderError Unit)}

/- What a pass does after its gate encodes one bound, if it has any. -/
theorem GatedAt.encodes
    {bound : UInt64}
    (hGated : GatedAt om v mint snapshot h h₁ h₂ t)
    (hApproved :
      (om.executeApproved mint v snapshot).Always (Encodes v bound)) :
    ∀ c ∈ h₂, Encodes v bound c.1 :=
  fun c hMem =>
    always_afterAllow hApproved c.1 (hGated.rest.canExecute hMem)

/- The transactions of the pass encode that bound. -/
theorem GatedAt.trades
    {bound : UInt64}
    (hGated : GatedAt om v mint snapshot h h₁ h₂ t)
    (hEncodes : ∀ c ∈ h₂, Encodes v bound c.1) :
    ∀ c ∈ h, ∀ tx, c.1.carries = some tx →
      tx.trades = [v.tradeData bound] := by
  intro c hMem tx hCarries
  rw [hGated.split] at hMem
  rcases List.mem_append.mp hMem with hEarly | hLate
  · rw [hGated.quiet c hEarly] at hCarries
    cases hCarries
  · exact (hEncodes c hLate).trades tx hCarries

/- The snapshot of the pass is the one its gate was given. -/
theorem GatedAt.snapshot_eq
    {snapshot' : Option BondingCurveParams}
    (hGated : GatedAt om v mint snapshot h h₁ h₂ t)
    (hGiven : SnapshotIn h snapshot') :
    snapshot = snapshot' := by
  have hSome : ∃ bound, ∀ c ∈ h₂, Encodes v bound c.1 := by
    cases hBounds : om.slippageBounds v snapshot with
    | some bounds =>
        exact ⟨_, hGated.encodes (always_executeApproved hBounds)⟩
    | none =>
        exact ⟨0, hGated.encodes
          (always_executeApproved_of_panic hBounds 0)⟩
  rcases hSome with ⟨bound, hEncodes⟩
  rcases hGiven with ⟨mint', curve, hMem, hCurve⟩
  rw [hGated.split] at hMem
  rcases List.mem_append.mp hMem with hEarly | hLate
  · exact hGated.given snapshot' ⟨mint', curve, hEarly, hCurve⟩
  · cases (hEncodes _ hLate).later

end Given

/-
  In every pass that is allowed, whatever the outside world
  answers, all transactions encode the order under one bound
  that is feasible on the snapshot the order was approved on.
-/
theorem exists_consistentBound
    (om : OrderManager)
    (o : Order)
    {h : List OmCall}
    {t : OmProg (Except OrderError Unit)}
    (hPass : (om.processOrder o).After h t)
    (hAllowed : AllowedIn h) :
    ∃ bound, ConsistentBound o h bound := by
  rcases exists_gatedAt hPass hAllowed with
    ⟨mint, snapshot, h₁, h₂, _, hGated⟩
  rcases hGated.allowed with ⟨score, active, hAllow⟩
  cases hBounds :
      om.slippageBounds { o with status := .validating } snapshot with
  | some bounds =>
      rcases bounds with ⟨maxCost, minOutput⟩
      have hEncodes := hGated.encodes (always_executeApproved hBounds)
      refine ⟨OrderManager.sideBound o.side maxCost minOutput,
        hGated.trades hEncodes,
        fun b hExplicit => sideBound_of_explicit hBounds hExplicit,
        fun params hGiven => ?_⟩
      have hSnapshot := hGated.snapshot_eq hGiven
      subst hSnapshot
      rcases feasible_of_allowed hAllow with
        ⟨maxCost', minOutput', hSame, hFeasible⟩
      rw [hBounds] at hSame
      cases hSame
      exact hFeasible
  | none =>
      have hEncodes :=
        hGated.encodes
          (always_executeApproved_of_panic
            hBounds (o.explicitBound.getD 0))
      refine ⟨o.explicitBound.getD 0, hGated.trades hEncodes,
        fun b hExplicit => ?_, fun params hGiven => ?_⟩
      · rw [hExplicit]
        rfl
      · have hSnapshot := hGated.snapshot_eq hGiven
        subst hSnapshot
        rcases feasible_of_allowed hAllow with ⟨_, _, hSome, _⟩
        rw [hBounds] at hSome
        cases hSome

------------------------------------------------------------
-- Passes That Trade
------------------------------------------------------------

section Trading

variable {om : OrderManager} {o v : Order} {mint : Pubkey}
variable {snapshot : Option BondingCurveParams}
variable {maxCost minOutput bound : UInt64}

theorem canReturn_built
    (om : OrderManager)
    (mint : Pubkey)
    (o : Order)
    (bound : UInt64)
    (tip : Option Instruction) :
    ∃ tx,
      (om.buildTransactionWithTip mint o bound tip).CanReturn
        (.ok tx) :=
  ⟨_, .ok (), .ok 0, rfl⟩

/- Some answers lead a pass to trade. -/
theorem exists_canExecute_executeTrade
    (om : OrderManager)
    (mint : Pubkey)
    (o : Order)
    (maxCost minOutput : UInt64) :
    ∃ op,
      (om.executeTrade mint o maxCost minOutput).CanExecute op ∧
        op.carries ≠ none := by
  have hDirect :
      ∃ op,
        (om.executeDirect mint o maxCost minOutput).CanExecute op ∧
          op.carries ≠ none := by
    rcases canReturn_built om mint o _ none with
      ⟨tx, hBuilt⟩
    refine ⟨.chain (.sendAndConfirmTransaction tx),
      (Prog.canExecute_bind _ _ _).mpr (.inr ⟨.ok tx, hBuilt, ?_⟩),
      fun hEq => by cases hEq⟩
    exact .inl rfl
  unfold OrderManager.executeTrade
  split
  · rename_i jito _ _
    rcases canReturn_built om mint o _ none with
      ⟨tx, hBuilt⟩
    refine ⟨.chain (.sendBundle tx),
      (Prog.canExecute_bind _ _ _).mpr (.inl ?_),
      fun hEq => by cases hEq⟩
    refine .inr ⟨none, .inr ⟨none, .inr ⟨none, .inr ⟨none,
      .inr ⟨some "false", ?_⟩⟩⟩⟩⟩
    dsimp only [Prog.bind]
    refine (Prog.canExecute_bind _ _ _).mpr
      (.inr ⟨.ok (), rfl, ?_⟩)
    refine (Prog.canExecute_bind _ _ _).mpr (.inr ⟨(), rfl, ?_⟩)
    refine (Prog.canExecute_bind _ _ _).mpr
      (.inr ⟨.ok tx, hBuilt, ?_⟩)
    exact .inl rfl
  · exact hDirect

/- An order with bounds can come to trade. -/
theorem exists_canExecute_executeApproved
    (mint : Pubkey)
    (hBounds : om.slippageBounds o snapshot = some (maxCost, minOutput)) :
    ∃ op,
      (om.executeApproved mint o snapshot).CanExecute op ∧
        op.carries ≠ none := by
  rcases exists_canExecute_executeTrade om mint
      { o with status := .executing, updatedAt := 0 } maxCost
      minOutput with
    ⟨op, hTrade, hCarries⟩
  refine ⟨op, .inr ⟨(0 : Nat), .inr ⟨(), ?_⟩⟩, hCarries⟩
  have hSame :
      om.slippageBounds
          { o with status := .executing, updatedAt := 0 } snapshot =
        some (maxCost, minOutput) :=
    hBounds
  dsimp only [Prog.bind]
  rw [hSame]
  exact (Prog.canExecute_bind _ _ _).mpr
    (.inl (hTrade.timeout ⟨false, rfl⟩))

/- An evaluation that may allow does so in three steps. -/
theorem after_evaluate_allow
    {de : DecisionEngine} {ctx : DecisionContext}
    (hAllow : (de.evaluate ctx).CanReturn .allow) :
    ∃ h, (de.evaluate ctx).After h (.done .allow) ∧ AllowedIn h := by
  rcases canReturn_allow_iff.mp hAllow with ⟨hDemo, hVerdict⟩
  have hAfter :
      (de.evaluate ctx).After
        [⟨.engine .loadAutoPaused, false⟩,
          ⟨.engine (.storeConsecutiveRejects 0), ()⟩,
          ⟨.engine (.emit
            { decision := .allow
              walletId := ctx.walletId
              orderId := ctx.order.id
              configVersion := ctx.configVersion }), ()⟩]
        (.done .allow) := by
    refine .call ?_
    dsimp only [Prog.bind]
    rw [if_neg (by simp), if_neg (by simp [hDemo]), hVerdict]
    exact .call (.call .refl)
  exact ⟨_, hAfter, _, (), rfl, List.mem_cons_of_mem _
    (List.mem_cons_of_mem _ List.mem_cons_self)⟩

/- The calls trade an order the gate has allowed on the snapshot. -/
structure TradesOn
    (h : List OmCall)
    (snapshot : Option BondingCurveParams) : Prop where
  allowed : AllowedIn h
  given : SnapshotIn h snapshot
  trades : ∃ c ∈ h, c.1.carries ≠ none

theorem TradesOn.cons
    {h : List OmCall}
    (hTrades : TradesOn h snapshot)
    (c : OmCall) :
    TradesOn (c :: h) snapshot := by
  rcases hTrades with
    ⟨⟨rec, u, hAllow, hEmit⟩, ⟨mint, curve, hFetch, hCurve⟩,
      ⟨c', hMem, hCarries⟩⟩
  exact
    ⟨⟨rec, u, hAllow, List.mem_cons_of_mem _ hEmit⟩,
      ⟨mint, curve, List.mem_cons_of_mem _ hFetch, hCurve⟩,
      ⟨c', List.mem_cons_of_mem _ hMem, hCarries⟩⟩

/- An order the rules pass, and that has bounds, can trade. -/
theorem exists_trading_gate
    (mint : Pubkey)
    {score : UInt32} {active : List Order}
    (hAllow :
      (om.decisionEngine.evaluate
        (om.gateContext v score snapshot active)).CanReturn .allow)
    (hBounds : om.slippageBounds v snapshot = some (maxCost, minOutput)) :
    ∃ h t,
      (om.gateAndExecute mint v).After h t ∧ TradesOn h snapshot := by
  rcases after_evaluate_allow hAllow with ⟨hEval, hEvaluated, hEmitted⟩
  rcases exists_canExecute_executeApproved mint hBounds with
    ⟨op, hTrades, hCarries⟩
  rcases hTrades.exists_after with ⟨hTrade, k, hTraded⟩
  rcases op.nonempty_resp with ⟨r⟩
  have hCurve :
      ∃ curve : Except String BondingCurveParams,
        curve.toOption = snapshot := by
    cases snapshot with
    | none => exact ⟨.error "", rfl⟩
    | some params => exact ⟨.ok params, rfl⟩
  rcases hCurve with ⟨curve, hCurve⟩
  have hLast : (Prog.act op k).After [⟨op, r⟩] (k r) :=
    .call .refl
  have hGate :
      (om.gateAndExecute mint v).After
        (⟨.chain (.analyzeSandwichRisk v.mint [v.mint]), score⟩ ::
          ⟨.chain (.getBondingCurveParams mint), curve⟩ ::
            ⟨.map .activeValues, active⟩ ::
              (hEval ++
                (⟨.engine (.swapNeedsDbPause false), false⟩ ::
                  (hTrade ++ [⟨op, r⟩]))))
        (k r) := by
    refine .call (.call (.call ?_))
    dsimp only [Prog.bind]
    rw [hCurve]
    refine (Prog.After.bind hEvaluated).trans (.call ?_)
    exact hTraded.trans hLast
  refine ⟨_, k r, hGate, ?_, ⟨mint, curve, by simp, hCurve⟩,
    ⟨⟨op, r⟩, by simp, hCarries⟩⟩
  rcases hEmitted with ⟨rec, u, hRec, hMem⟩
  exact ⟨rec, u, hRec, by simp [hMem]⟩

theorem exists_trading_pass
    {score : UInt32} {active : List Order}
    (hMint : om.pubkeyFromStr o.mint = some mint)
    (hAllow :
      (om.decisionEngine.evaluate
        (om.gateContext { o with status := .validating } score snapshot
          active)).CanReturn .allow)
    (hBounds :
      om.slippageBounds { o with status := .validating } snapshot =
        some (maxCost, minOutput)) :
    ∃ h t, (om.processOrder o).After h t ∧ TradesOn h snapshot := by
  rcases exists_trading_gate mint hAllow hBounds with
    ⟨h, t, hGate, hTrades⟩
  have hPass :
      (om.processOrder o).After
        (⟨.map (.activeInsert { o with status := .validating }), ()⟩ ::
          ⟨.metric (.inc .activeOrders), ()⟩ ::
            ⟨.metric (.dec .pendingOrders), ()⟩ :: h)
        t := by
    refine .call (.call (.call ?_))
    dsimp only [Prog.bind]
    rw [hMint]
    exact hGate
  exact ⟨_, t, hPass, ((hTrades.cons _).cons _).cons _⟩

end Trading

/- A pass that trades on a pool, under one feasible bound. -/
theorem exists_consistentBound_samplePool :
    ∃ h t bound,
      (sampleManager.processOrder (sampleOrder "a" 1000000)).After h t ∧
        TradesOn h (some samplePool) ∧
          ConsistentBound (sampleOrder "a" 1000000) h bound := by
  have hAllow :
      (sampleManager.decisionEngine.evaluate
        (sampleManager.gateContext
          { sampleOrder "a" 1000000 with status := .validating } 0
          (some samplePool) [])).CanReturn .allow :=
    canReturn_allow_iff.mpr ⟨rfl, by decide +kernel⟩
  rcases feasible_of_allowed hAllow with
    ⟨maxCost, minOutput, hBounds, _⟩
  have hTrading :=
    exists_trading_pass (o := sampleOrder "a" 1000000) rfl hAllow
      hBounds
  rcases hTrading with ⟨h, t, hPass, hTrades⟩
  rcases exists_consistentBound sampleManager _ hPass hTrades.allowed
    with ⟨bound, hConsistent⟩
  exact ⟨h, t, bound, hPass, hTrades, hConsistent⟩

end Pumpy
