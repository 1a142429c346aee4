import Pumpy.Engine.Landing
import Pumpy.Engine.Outcomes

/-
  What the order manager puts on record of a trade: the outcome
  in the table of orders, the row in the table of trades, and
  the event it sends.

  Key definitions include:
    * `Deal`
    * `DealMove`
    * `closings`
    * `Ledger`

  The main result is `ledger_of_run`: in every run every order
  is closed once, what is announced and what is recorded as a
  trade agree with that, and a trade is recorded with the reply
  to the submission of the order that stands.
-/

------------------------------------------------------------
-- Phases
------------------------------------------------------------

namespace Pumpy

open Interleaving

/-
  Where a task stands with the trade of its order; `live` is the
  reply to the last submission, unless the pass has given it up.
-/
inductive Deal where
  | asking : Deal
  | drawn (id : OrderId) : Deal
  | passing (o : Order) (live : Option String) : Deal
  -- the table of orders has the outcome
  | closed (o : Order) : Deal
  | apart : Deal

namespace Deal

/- The identifier of an order that the task may still close. -/
def holds : Deal → Option OrderId
  | drawn id => some id
  | passing o _ => some o.id
  | _ => none

end Deal

/- The operations that are not about a trade or its outcome. -/
def Op.aside : Op → Bool
  | .chan (.orderSend _) => false
  | .chan (.eventSend ev) => !ev.status.isOutcome
  | .db (.updateOrder o) => !o.status.isOutcome
  | .db (.insertTrade _) => false
  | .chain (.sendAndConfirmTransaction _) => false
  | .chain (.sendBundle _) => false
  | .chain (.getBundleStatus _) => false
  | .sys .timer => false
  | .sys .newUuid => false
  | _ => true

/- The order as a pass closes it, after its last submission. -/
structure Closes
    (o : Order)
    (live : Option String)
    (o' : Order) : Prop where
  id : o'.id = o.id
  side : o'.side = o.side
  amount : o'.amount = o.amount
  outcome : o'.status.isOutcome = true
  signature :
    o'.status = .executed → ∃ sig, live = some sig ∧
      o'.signature = some sig

/- The moves of the trades. -/
inductive DealMove
    (om : OrderManager) :
    Deal → (op : Op) → op.Resp → Deal → Prop
  | aside
      {g : Deal} {op : Op} {r : op.Resp}
      (hAside : op.aside = true) :
      DealMove om g op r g
  | draw
      {id : OrderId} :
      DealMove om .asking (.sys .newUuid) id (.drawn id)
  | submit
      {id : OrderId} {o : Order} {sent : Bool}
      (hId : o.id = id) :
      DealMove om (.drawn id) (.chan (.orderSend o)) sent .apart
  | resend
      {o o' : Order} {live : Option String} {sent : Bool}
      (hId : o'.id = o.id) :
      DealMove om (.passing o live) (.chan (.orderSend o')) sent .apart
  | bundle
      {o : Order} {live : Option String} {tx : Transaction}
      {r : Except String String}
      (hTrades : om.Trades o tx) :
      DealMove om (.passing o live) (.chain (.sendBundle tx)) r
        (.passing o r.toOption)
  | direct
      {o : Order} {live : Option String} {tx : Transaction}
      {r : Except String String}
      (hTrades : om.Trades o tx) :
      DealMove om (.passing o live)
        (.chain (.sendAndConfirmTransaction tx)) r
        (.passing o r.toOption)
  | poll
      {o : Order} {bundleId : String} {r : Except String String} :
      DealMove om (.passing o (some bundleId))
        (.chain (.getBundleStatus bundleId)) r
        (.passing o
          (if r.toOption = some "failed" then none
            else some bundleId))
  | deadline
      {o : Order} {live : Option String} {fired : Bool} :
      DealMove om (.passing o live) (.sys .timer) fired
        (.passing o (if fired then none else live))
  | close
      {o o' : Order} {live : Option String} {r : Except DbError Unit}
      (hCloses : Closes o live o') :
      DealMove om (.passing o live) (.db (.updateOrder o')) r
        (if r.isOk then .closed o' else .apart)
  | record
      {o : Order} {r : Except DbError Unit}
      (hStatus : o.status = .executed) :
      DealMove om (.closed o) (.db (.insertTrade o)) r (.closed o)
  | tell
      {o : Order} {ev : OrderEvent} {u : Unit}
      (hEvent : ev = o.event) :
      DealMove om (.closed o) (.chan (.eventSend ev)) u .apart

/- The trades of the engine's tasks. -/
def dealing (om : OrderManager) : Protocol Op Op.Resp Root Deal where
  start
    | .submitOrder _ => .asking
    | .processOrder o => .passing o none
    | .cancelOrder _ => .apart
    | .pauseWallet _ _ => .apart
  move := DealMove om
  crash := fun _ => True

section Classes

variable {op : Op}

theorem Op.aside_of_decides
    (hDecides : op.decides = true) :
    op.aside = true := by
  cases op with
  | engine op => rfl
  | _ => cases hDecides

theorem Op.aside_of_raises
    (hRaises : op.raises = true) :
    op.aside = true := by
  rcases op with op | op | op | op | op | op | op <;> cases op <;>
    first
    | rfl
    | cases hRaises

theorem Op.enqueues_of_aside
    (hAside : op.aside = true)
    (r : op.Resp) :
    op.enqueues r = none := by
  cases op with
  | chan op =>
      cases op with
      | orderSend o => cases hAside
      | eventSend ev => rfl
  | _ => rfl

theorem Op.drawn_of_aside
    (hAside : op.aside = true)
    (r : op.Resp) :
    op.drawn r = none := by
  cases op with
  | sys op =>
      cases op with
      | newUuid => cases hAside
      | _ => rfl
  | _ => rfl

end Classes

/- A move hands the identifier on of an order that is not closed. -/
theorem DealMove.hands
    {om : OrderManager} {g g' : Deal} {op : Op} {r : op.Resp}
    (hMove : DealMove om g op r g') :
    Hands Deal.holds g op r g' := by
  cases hMove with
  | aside hAside =>
      exact .keeps (Op.enqueues_of_aside hAside r)
        (Op.drawn_of_aside hAside r) rfl
  | draw => exact .draws rfl rfl rfl rfl
  | @submit id o sent hId =>
      cases sent with
      | false => exact .drops rfl rfl rfl
      | true => exact .sends rfl rfl (congrArg some hId.symm) rfl
  | @resend o o' live sent hId =>
      cases sent with
      | false => exact .drops rfl rfl rfl
      | true => exact .sends rfl rfl (congrArg some hId.symm) rfl
  | bundle hTrades => exact .keeps rfl rfl rfl
  | direct hTrades => exact .keeps rfl rfl rfl
  | poll => exact .keeps rfl rfl rfl
  | deadline => exact .keeps rfl rfl rfl
  | @close o o' live r hCloses =>
      cases r with
      | error e => exact .drops rfl rfl rfl
      | ok u => exact .drops rfl rfl rfl
  | record hStatus => exact .keeps rfl rfl rfl
  | tell hEvent => exact .keeps rfl rfl rfl

------------------------------------------------------------
-- Executions
------------------------------------------------------------

namespace OrderManager

variable {om : OrderManager} {α : Type} {g : Deal} {id : OrderId}

/- The trades of a pass of the order, inside its deadline. -/
def trading
    (om : OrderManager)
    (o : Order) : Protocol Op Op.Resp Root Deal :=
  (dealing om).within fun g => ∃ live, g = .passing o live

/- An execution that returns a signature has it from a node. -/
def Traded
    (o : Order)
    (r : Except String String)
    (g : Deal) : Prop :=
  ∃ live, g = .passing o live ∧ ∀ sig, r = .ok sig → live = some sig

section Execution

variable {o order : Order} {mint : Pubkey} {live : Option String}

theorem trading_aside
    {op : Op}
    {k : op.Resp → OmProg α}
    {Q : α → Deal → Prop}
    (hAside : op.aside = true)
    (hRest : ∀ r, (om.trading o).Wp (k r) (.passing o live) Q) :
    (om.trading o).Wp (.act op k) (.passing o live) Q :=
  fun r => ⟨_, ⟨.aside hAside, live, rfl⟩, hRest r⟩

theorem trading_buildTransactionWithTip
    (bound : UInt64)
    (tip : Option Instruction)
    (hSame :
      om.tradeInstruction mint order bound =
        om.tradeInstruction mint o bound) :
    (om.trading o).Wp
      (om.buildTransactionWithTip mint order bound tip)
      (.passing o live)
      (fun built g =>
        g = .passing o live ∧
          ∀ tx, built = .ok tx → om.Trades o tx) := by
  unfold buildTransactionWithTip
  refine trading_aside rfl fun client => ?_
  cases client with
  | error e => exact ⟨rfl, fun tx hTx => by cases hTx⟩
  | ok u =>
      refine trading_aside rfl fun blockhash => ?_
      cases blockhash with
      | error e => exact ⟨rfl, fun tx hTx => by cases hTx⟩
      | ok recentBlockhash =>
          refine ⟨rfl, fun tx hTx => ?_⟩
          cases hTx
          exact ⟨mint, bound, congrArg some hSame⟩

theorem trading_executeDirect
    (maxCost minOutput : UInt64)
    (hSame :
      ∀ bound, om.tradeInstruction mint order bound =
        om.tradeInstruction mint o bound) :
    (om.trading o).Wp
      (om.executeDirect mint order maxCost minOutput)
      (.passing o live) (Traded o) := by
  unfold executeDirect
  apply (trading_buildTransactionWithTip _ none (hSame _)).bind
  rintro built g ⟨rfl, hTrades⟩
  cases built with
  | error e => exact ⟨live, rfl, fun sig hSig => by cases hSig⟩
  | ok tx =>
      intro r
      refine ⟨_, ⟨.direct (hTrades tx rfl), r.toOption, rfl⟩, ?_⟩
      refine ⟨r.toOption, rfl, fun sig hSig => ?_⟩
      rw [hSig]
      rfl

theorem trading_waitBeforeRetry
    (jitoAttempt : Nat) :
    (om.trading o).Wp (waitBeforeRetry jitoAttempt) (.passing o live)
      (fun _ g => g = .passing o live) := by
  unfold waitBeforeRetry
  split
  · exact trading_aside rfl fun _ => rfl
  · exact rfl

/- A bundle that is not reported failed is not given up. -/
theorem trading_pollBundleFailed
    (bundleId : String)
    (n : Nat) :
    (om.trading o).Wp (pollBundleFailed bundleId n)
      (.passing o (some bundleId))
      (fun bundleFailed g =>
        g = .passing o
          (if bundleFailed then none else some bundleId)) := by
  induction n with
  | zero => exact rfl
  | succ n ih =>
      unfold pollBundleFailed
      refine trading_aside rfl fun _ => ?_
      intro status
      refine ⟨_, ⟨.poll, _, rfl⟩, ?_⟩
      cases status with
      | error e => exact ih
      | ok status =>
          by_cases hFailed : status = "failed"
          · subst hFailed
            exact rfl
          · have hLive :
                (if (Except.ok status : Except String String).toOption
                    = some "failed" then none else some bundleId)
                  = some bundleId := by
              simp [Except.toOption, hFailed]
            dsimp only [Prog.bind]
            rw [hLive]
            split
            · exact rfl
            · exact ih

theorem trading_bundleAttempts
    (bound : UInt64)
    (tip : Option Instruction)
    (hSame :
      om.tradeInstruction mint order bound =
        om.tradeInstruction mint o bound)
    (n jitoAttempt : Nat) :
    (om.trading o).Wp
      (om.bundleAttempts mint order bound tip n jitoAttempt)
      (.passing o live) (Traded o) := by
  induction n generalizing jitoAttempt live with
  | zero => exact ⟨live, rfl, fun sig hSig => by cases hSig⟩
  | succ n ih =>
      unfold bundleAttempts
      apply (trading_waitBeforeRetry jitoAttempt).bind
      rintro _ g rfl
      apply (trading_buildTransactionWithTip bound tip hSame).bind
      rintro built g ⟨rfl, hTrades⟩
      cases built with
      | error e => exact ⟨live, rfl, fun sig hSig => by cases hSig⟩
      | ok tradeTx =>
          intro reply
          refine ⟨_, ⟨.bundle (hTrades tradeTx rfl), _, rfl⟩, ?_⟩
          cases reply with
          | error e => exact ih (jitoAttempt + 1)
          | ok bundleId =>
              apply (trading_pollBundleFailed bundleId 5).bind
              rintro bundleFailed g rfl
              cases bundleFailed with
              | true => exact ih (jitoAttempt + 1)
              | false =>
                  refine ⟨some bundleId, rfl, fun sig hSig => ?_⟩
                  cases hSig
                  rfl

theorem trading_simulateFirst
    (jito : JitoClient)
    (bound : UInt64)
    (tip : Option Instruction)
    (simEnabled : Bool)
    (hSame :
      om.tradeInstruction mint order bound =
        om.tradeInstruction mint o bound) :
    (om.trading o).Wp
      (om.simulateFirst jito mint order bound tip simEnabled)
      (.passing o live) (fun _ g => g = .passing o live) := by
  unfold simulateFirst
  split
  · apply (trading_buildTransactionWithTip bound tip hSame).bind
    rintro built g ⟨rfl, _⟩
    cases built with
    | error e => exact rfl
    | ok simTx =>
        dsimp only [executeSimulationGate]
        split
        · exact rfl
        · refine trading_aside rfl fun simulated => ?_
          cases simulated <;> exact rfl
  · exact rfl

theorem trading_executeViaJitoMinimal
    (jito : JitoClient)
    (maxCost minOutput : UInt64)
    (hSame :
      ∀ bound, om.tradeInstruction mint order bound =
        om.tradeInstruction mint o bound) :
    (om.trading o).Wp
      (om.executeViaJitoMinimal jito mint order maxCost minOutput)
      (.passing o live) (Traded o) := by
  unfold executeViaJitoMinimal
  iterate 5
    refine trading_aside rfl fun _ => ?_
  apply (trading_simulateFirst jito _ _ _ (hSame _)).bind
  rintro gate g rfl
  cases gate with
  | error e => exact ⟨live, rfl, fun sig hSig => by cases hSig⟩
  | ok u => exact trading_bundleAttempts _ _ (hSame _) 2 0

theorem trading_executeTrade
    (maxCost minOutput : UInt64)
    (hSame :
      ∀ bound, om.tradeInstruction mint order bound =
        om.tradeInstruction mint o bound) :
    (om.trading o).Wp
      (om.executeTrade mint order maxCost minOutput)
      (.passing o live) (Traded o) := by
  unfold executeTrade
  split
  · rename_i jito _ _
    apply (trading_executeViaJitoMinimal jito _ _ hSame).bind
    rintro result g ⟨live, rfl, hLive⟩
    cases result with
    | ok sig =>
        refine trading_aside rfl fun _ => ?_
        refine ⟨live, rfl, fun sig' hSig => ?_⟩
        cases hSig
        exact hLive sig rfl
    | error e =>
        dsimp only [afterJitoError]
        split
        · exact ⟨live, rfl, fun sig hSig => by cases hSig⟩
        · exact trading_executeDirect _ _ hSame
  · exact trading_executeDirect _ _ hSame

end Execution

------------------------------------------------------------
-- Programs
------------------------------------------------------------

section Programs

variable {o order : Order} {live : Option String}

theorem dealing_aside
    {op : Op}
    {k : op.Resp → OmProg α}
    {Q : α → Deal → Prop}
    (hAside : op.aside = true)
    (hRest : ∀ r, (dealing om).Wp (k r) g Q) :
    (dealing om).Wp (.act op k) g Q :=
  fun r => ⟨g, .aside hAside, hRest r⟩

theorem dealing_of_always
    {p : OmProg α}
    (hAlways : p.Always (·.aside = true)) :
    (dealing om).Wp p g (fun _ g' => g' = g) :=
  Protocol.Wp.of_always hAlways (fun _ _ hAside => .aside hAside)
    trivial

theorem dealing_selfHealingResume :
    (dealing om).Wp selfHealingResume g (fun _ g' => g' = g) := by
  unfold selfHealingResume
  refine dealing_aside rfl fun autoPaused => ?_
  cases autoPaused with
  | false => exact rfl
  | true =>
      refine dealing_aside rfl fun dbStatus => ?_
      dsimp only [Prog.bind]
      split
      · iterate 3
          refine dealing_aside rfl fun _ => ?_
        exact rfl
      · exact rfl

theorem dealing_enqueue
    (o : Order) :
    (dealing om).Wp (om.enqueue o) (.drawn o.id) (fun _ _ => True) := by
  unfold enqueue
  iterate 2
    refine dealing_aside rfl fun _ => ?_
  refine dealing_aside rfl fun stored => ?_
  cases stored with
  | error e => trivial
  | ok u =>
      refine dealing_aside rfl fun pushed => ?_
      cases pushed with
      | false => trivial
      | true =>
          iterate 2
            refine dealing_aside rfl fun _ => ?_
          intro sent
          refine ⟨.apart, .submit rfl, ?_⟩
          cases sent <;> trivial

theorem dealing_submitOrder
    (o : Order) :
    (dealing om).Wp (om.submitOrder o) .asking (fun _ _ => True) := by
  unfold submitOrder
  intro id
  refine ⟨.drawn id, .draw, ?_⟩
  refine dealing_aside rfl fun active => ?_
  apply (dealing_of_always
    (decides_evaluate.mono fun _ => Op.aside_of_decides)).bind
  rintro decision g rfl
  apply dealing_selfHealingResume.bind
  rintro _ g rfl
  apply (dealing_of_always
    ((raises_raiseDbPause decision
      "consecutive_reject threshold exceeded").mono
        fun _ => Op.aside_of_raises)).bind
  rintro _ g rfl
  cases decision with
  | allow => exact dealing_enqueue { o with id := id }
  | reject reason => trivial
  | halt reason => trivial

theorem dealing_cancelActive :
    (dealing om).Wp (cancelActive id) .apart (fun _ _ => True) := by
  unfold cancelActive
  refine dealing_aside rfl fun _ => ?_
  refine dealing_aside rfl fun removed => ?_
  cases removed with
  | none => exact dealing_aside rfl fun _ => trivial
  | some order =>
      refine dealing_aside rfl fun updatedAt => ?_
      refine dealing_aside rfl fun updated => ?_
      cases updated with
      | error e => exact dealing_aside rfl fun _ => trivial
      | ok u =>
          iterate 4
            refine dealing_aside rfl fun _ => ?_
          trivial

theorem dealing_cancelOrder :
    (dealing om).Wp (cancelOrder id) .apart (fun _ _ => True) := by
  unfold cancelOrder
  refine dealing_aside rfl fun dropped => ?_
  cases dropped with
  | false => exact dealing_cancelActive
  | true =>
      iterate 2
        refine dealing_aside rfl fun _ => ?_
      exact dealing_cancelActive

theorem dealing_pauseWallet
    (reason : String)
    (rejectCount : UInt32) :
    (dealing om).Wp (pauseWallet reason rejectCount) .apart
      (fun _ _ => True) := by
  unfold pauseWallet
  iterate 3
    refine dealing_aside rfl fun _ => ?_
  trivial

/- The order is closed, recorded if it was a trade, and announced. -/
theorem dealing_finalizeOrderMinimal
    (hCloses : Closes o live order) :
    (dealing om).Wp (finalizeOrderMinimal order) (.passing o live)
      (fun _ _ => True) := by
  have hLeave :
      (dealing om).Wp (finalizeOrderMinimal.leave order) (.closed order)
        (fun _ _ => True) := by
    intro u
    refine ⟨.apart, .tell rfl, ?_⟩
    iterate 5
      refine dealing_aside rfl fun _ => ?_
    trivial
  intro updated
  refine ⟨_, .close hCloses, ?_⟩
  cases updated with
  | error e => trivial
  | ok u =>
      dsimp only [Prog.bind]
      split
      · rename_i hStatus
        intro recorded
        exact ⟨.closed order, .record hStatus, hLeave⟩
      · exact hLeave

theorem dealing_failOrder
    (reason : String)
    (hId : order.id = o.id)
    (hSide : order.side = o.side)
    (hAmount : order.amount = o.amount) :
    (dealing om).Wp (failOrder order reason) (.passing o live)
      (fun _ _ => True) := by
  refine dealing_aside rfl fun updatedAt => ?_
  apply dealing_finalizeOrderMinimal
  exact ⟨hId, hSide, hAmount, rfl, fun hStatus => by cases hStatus⟩

theorem dealing_requeue
    {backoff : Duration}
    (hId : order.id = o.id) :
    (dealing om).Wp (requeue order backoff) (.passing o live)
      (fun _ _ => True) := by
  unfold requeue
  refine dealing_aside rfl fun _ => ?_
  intro sent
  refine ⟨.apart, .resend hId, ?_⟩
  iterate 4
    refine dealing_aside rfl fun _ => ?_
  trivial

theorem dealing_settle
    {r : Except String String}
    (hId : order.id = o.id)
    (hSide : order.side = o.side)
    (hAmount : order.amount = o.amount)
    (hTraded : Traded o r g) :
    (dealing om).Wp (om.settle order r) g (fun _ _ => True) := by
  rcases hTraded with ⟨live, rfl, hLive⟩
  cases r with
  | ok sig =>
      unfold settle
      iterate 3
        refine dealing_aside rfl fun _ => ?_
      apply dealing_finalizeOrderMinimal
      exact ⟨hId, hSide, hAmount, rfl,
        fun _ => ⟨sig, hLive sig rfl, rfl⟩⟩
  | error e =>
      dsimp only [settle]
      split
      · split
        · trivial
        · exact dealing_requeue hId
      · iterate 2
          refine dealing_aside rfl fun _ => ?_
        apply dealing_finalizeOrderMinimal
        exact ⟨hId, hSide, hAmount, rfl,
          fun hStatus => by cases hStatus⟩

theorem dealing_executeApproved
    (mint : Pubkey)
    (snapshot : Option BondingCurveParams)
    (hId : order.id = o.id)
    (hSide : order.side = o.side)
    (hAmount : order.amount = o.amount) :
    (dealing om).Wp (om.executeApproved mint order snapshot)
      (.passing o none) (fun _ _ => True) := by
  unfold executeApproved
  iterate 2
    refine dealing_aside rfl fun _ => ?_
  dsimp only [Prog.bind]
  split
  · trivial
  · refine Protocol.Wp.bind ?_
      fun r g (hTraded : Traded o (r.getD om.timedOut) g) =>
        dealing_settle hId hSide hAmount hTraded
    apply Protocol.Wp.timeout fun g => ∃ live, g = Deal.passing o live
    · exact ⟨none, rfl⟩
    · rintro g fired ⟨live, rfl⟩ hFired
      refine ⟨_, .deadline, none, ?_, fun sig hSig => by cases hSig⟩
      rw [hFired]
      rfl
    · rintro g fired ⟨live, rfl⟩ hFired
      have hMove : DealMove om (.passing o live) (.sys .timer) fired
          (.passing o (if fired then none else live)) :=
        .deadline
      rw [hFired] at hMove ⊢
      exact hMove
    · apply (trading_executeTrade _ _ fun bound => ?_).mono
      · exact fun r g hTraded _ => hTraded
      · unfold tradeInstruction
        dsimp only
        rw [hSide, hAmount]

theorem dealing_gateAndExecute
    (mint : Pubkey)
    (hId : order.id = o.id)
    (hSide : order.side = o.side)
    (hAmount : order.amount = o.amount) :
    (dealing om).Wp (om.gateAndExecute mint order) (.passing o none)
      (fun _ _ => True) := by
  unfold gateAndExecute
  iterate 3
    refine dealing_aside rfl fun _ => ?_
  apply (dealing_of_always
    (decides_evaluate.mono fun _ => Op.aside_of_decides)).bind
  rintro decision g rfl
  apply (dealing_of_always
    ((raises_raiseDbPause decision _).mono
      fun _ => Op.aside_of_raises)).bind
  rintro _ g rfl
  split
  · exact dealing_executeApproved mint _ hId hSide hAmount
  · exact dealing_failOrder _ hId hSide hAmount

theorem dealing_processOrder
    (o : Order) :
    (dealing om).Wp (om.processOrder o) (.passing o none)
      (fun _ _ => True) := by
  unfold processOrder
  iterate 3
    refine dealing_aside rfl fun _ => ?_
  dsimp only [Prog.bind]
  split
  · exact dealing_failOrder _ rfl rfl rfl
  · exact dealing_gateAndExecute _ rfl rfl rfl

end Programs

/- Every task of the order manager trades this way. -/
theorem follows_dealing
    (om : OrderManager) :
    (dealing om).Follows om.machine (fun _ _ => True) := by
  intro root
  cases root with
  | submitOrder o =>
      exact (dealing_submitOrder o).bind fun _ _ _ => trivial
  | processOrder o =>
      exact (dealing_processOrder o).bind fun _ _ _ => trivial
  | cancelOrder id =>
      exact dealing_cancelOrder.bind fun _ _ _ => trivial
  | pauseWallet reason rejectCount =>
      exact (dealing_pauseWallet reason rejectCount).bind
        fun _ _ _ => trivial

end OrderManager

------------------------------------------------------------
-- Records
------------------------------------------------------------

/- The order whose outcome an event has put into the table. -/
def closingOf : OmEvent → Option Order
  | .op _ (.db (.updateOrder o)) _ (.ok ()) =>
      if o.status.isOutcome then some o else none
  | _ => none

def closings (tr : List OmEvent) : List Order :=
  tr.filterMap closingOf

/-
  Every order is closed once; what is announced and what is new
  in the table of trades are of closed orders, so that they
  agree; and an executed order has its signature from the
  submission that stands for it.
-/
structure Ledger
    (om : OrderManager)
    (tr : List OmEvent)
    (fresh : List TradeRow) : Prop where
  once : ((closings tr).map Order.id).Nodup
  announced :
    ∀ ev ∈ outcomeEvents tr, ∃ o ∈ closings tr, ev = o.event
  distinct : (fresh.map TradeRow.id).Nodup
  recorded :
    ∀ row ∈ fresh,
      ∃ o ∈ closings tr, o.status = .executed ∧ row = o.trade
  backed :
    ∀ o ∈ closings tr, o.status = .executed →
      ∃ x, StandsFor om tr o.id x ∧ om.Trades o x.tx ∧
        o.signature = some x.reply
  agree :
    ∀ ev ∈ outcomeEvents tr, ∀ row ∈ fresh,
      row.id = ev.orderId →
        ev.status = .executed ∧ row.mint = ev.tokenMint ∧
          row.signature = ev.signature ∧
            row.executedAt = ev.executedAt

/- The task has left its submissions behind. -/
def Deal.through : Deal → Prop
  | closed _ => True
  | apart => True
  | _ => False

section Moves

variable {om : OrderManager} {g g' : Deal} {op : Op}
variable {env : Outcome} {r : op.Resp} {tid : Nat} {o : Order}

theorem closingOf_of_aside
    (hAside : op.aside = true) :
    closingOf (.op tid op env r) = none := by
  rcases op with op | op | op | op | op | op | op
  case db =>
    cases op with
    | updateOrder o =>
        cases r with
        | error e => rfl
        | ok u =>
            apply if_neg
            simpa [Op.aside] using hAside
    | _ => rfl
  all_goals rfl

theorem outcomeOf_of_aside
    (hAside : op.aside = true) :
    outcomeOf (.op tid op env r) = none := by
  rcases op with op | op | op | op | op | op | op
  case chan =>
    cases op with
    | orderSend o => cases hAside
    | eventSend ev =>
        apply if_neg
        simpa [Op.aside] using hAside
  all_goals rfl

theorem standStep_of_aside
    (l : List Standing)
    (hAside : op.aside = true) :
    standStep l (.op tid op env r) = l := by
  rcases op with op | op | op | op | op | op | op <;> cases op <;>
    first
    | rfl
    | cases hAside

/- Only a pass closes its order. -/
theorem DealMove.closes
    (hMove : DealMove om g op r g')
    (hClosing : closingOf (.op tid op env r) = some o) :
    ∃ o₀ live, g = .passing o₀ live ∧ Closes o₀ live o ∧
      g' = .closed o := by
  cases hMove with
  | aside hAside =>
      rw [closingOf_of_aside hAside] at hClosing
      cases hClosing
  | @close o₀ o' live r hCloses =>
      cases r with
      | error e => cases hClosing
      | ok u =>
          have hSome :
              (if o'.status.isOutcome then some o' else none) =
                some o :=
            hClosing
          rw [if_pos hCloses.outcome] at hSome
          cases hSome
          exact ⟨o₀, live, rfl, hCloses, rfl⟩
  | _ => cases hClosing

/- Only the outcome of an order that is closed is announced. -/
theorem DealMove.tells
    {ev : OrderEvent}
    (hMove : DealMove om g op r g')
    (hOutcome : outcomeOf (.op tid op env r) = some ev) :
    ∃ o, g = .closed o ∧ ev = o.event := by
  cases hMove with
  | aside hAside =>
      rw [outcomeOf_of_aside hAside] at hOutcome
      cases hOutcome
  | @tell o ev' u hEvent =>
      have hSome :
          (if ev'.status.isOutcome then some ev' else none) =
            some ev :=
        hOutcome
      split at hSome
      · cases hSome
        exact ⟨o, rfl, hEvent⟩
      · cases hSome
  | _ => cases hOutcome

theorem DealMove.records
    (hMove : DealMove om g op r g')
    (hOp : op = .db (.insertTrade o)) :
    g = .closed o ∧ o.status = .executed := by
  cases hMove with
  | aside hAside =>
      rw [hOp] at hAside
      cases hAside
  | record hStatus =>
      cases hOp
      exact ⟨rfl, hStatus⟩
  | _ => cases hOp

/- A task that is through touches no submission. -/
theorem DealMove.through
    (l : List Standing)
    (hMove : DealMove om g op r g')
    (hThrough : g.through) :
    g'.through ∧ standStep l (.op tid op env r) = l := by
  cases hMove with
  | aside hAside => exact ⟨hThrough, standStep_of_aside l hAside⟩
  | record hStatus => exact ⟨trivial, rfl⟩
  | tell hEvent => exact ⟨trivial, rfl⟩
  | draw | submit hId | resend hId | bundle hTrades | direct hTrades
  | poll | deadline | close hCloses =>
      exact hThrough.elim

/- What another task does leaves a submission standing. -/
theorem mem_standStep
    {l : List Standing} {x : Standing} {e : OmEvent}
    (hMem : x ∈ l)
    (hOther : ∀ op env r, e ≠ .op x.tid op env r) :
    x ∈ standStep l e := by
  unfold standStep
  split
  · exact List.mem_cons_of_mem _ hMem
  · exact List.mem_cons_of_mem _ hMem
  · rw [List.mem_filter]
    refine ⟨hMem, decide_eq_true ?_⟩
    rintro ⟨hTid, _⟩
    exact hOther _ _ _ (by rw [hTid])
  · rw [List.mem_filter]
    refine ⟨hMem, decide_eq_true ?_⟩
    intro hTid
    exact hOther _ _ _ (by rw [hTid])
  · exact hMem

end Moves

------------------------------------------------------------
-- The History of a Trade
------------------------------------------------------------

section Database

variable {op : Op} {env : Outcome} {r : op.Resp} {s s' : State}

/- Only a trade that is recorded adds a row, under a new key. -/
theorem exec_trades
    (hExec : State.exec op env s = some (r, s')) :
    s'.db.trades = s.db.trades ∨
      ∃ o, op = .db (.insertTrade o) ∧
        s'.db.trades = o.trade :: s.db.trades ∧
          ∀ row ∈ s.db.trades, row.id ≠ o.id := by
  cases op with
  | db op =>
      simp only [State.exec, Option.map_eq_some_iff] at hExec
      rcases hExec with ⟨p, hOp, hEq⟩
      cases hEq
      cases op with
      | insertTrade o =>
          cases env <;> simp [DbOp.exec, execStmt] at hOp
          rename_i outcome
          subst hOp
          dsimp only
          split
          · unfold Database.insertTrade
            split
            · exact .inl rfl
            · rename_i hNew
              refine .inr ⟨o, rfl, rfl, fun row hMem hSame => ?_⟩
              apply hNew
              exact List.any_eq_true.mpr
                ⟨row, hMem, decide_eq_true hSame⟩
          · exact .inl rfl
      | updateRegistryStatus st | updateConfigStatus st
      | upsertWalletAlert count | updateOrder o =>
          cases env <;> simp [DbOp.exec, execStmt] at hOp
          subst hOp
          left
          dsimp only
          split <;> rfl
      | insertOrder o =>
          cases env <;> simp [DbOp.exec, execStmt] at hOp
          subst hOp
          left
          unfold Database.insertOrder
          dsimp only
          split
          · split <;> rfl
          · rfl
      | getWalletStatus | getConfigValue key =>
          cases env <;> simp [DbOp.exec] at hOp
          subst hOp
          exact .inl rfl
  | engine op | map op | metric op | chain op | chan op | sys op =>
      rcases exec_part hExec with ⟨_, rfl⟩
      exact .inl rfl

theorem trades_ext
    {e : Ext}
    (hExt : Ext.exec e s = some s') :
    s'.db.trades = s.db.trades := by
  cases e with
  | recv o =>
      rw [(exec_recv hExt).2]
  | submitOrder o | cancelOrder id | setStatus st | closeChannel
  | restart =>
      cases hExt
      rfl
  | land tx =>
      simp only [Ext.exec] at hExt
      grind

end Database

/- What a task has behind it when it closes its order. -/
def Behind
    (om : OrderManager)
    (tr : List OmEvent)
    (tid : Nat)
    (root : Root) : Deal → Prop
  | .passing o live =>
      root = .processOrder o ∧
        ∀ reply, live = some reply →
          ∃ tx, ⟨tid, tx, reply⟩ ∈ standing tr ∧ om.Trades o tx
  | .closed o => o ∈ closings tr
  | _ => True

section Behind

variable {om : OrderManager} {tr : List OmEvent} {tid : Nat}
variable {root : Root} {g g' : Deal} {e : OmEvent}

theorem closings_concat (e : OmEvent) :
    closings (tr ++ [e]) = closings tr ++ (closingOf e).toList := by
  unfold closings
  rw [List.filterMap_append]
  cases hClosing : closingOf e with
  | none => simp [hClosing]
  | some o => simp [hClosing]

/- What is behind a task stays, if its submissions do. -/
theorem Behind.later
    (hBehind : Behind om tr tid root g)
    (hStands :
      ∀ x ∈ standing tr, x.tid = tid → x ∈ standing (tr ++ [e])) :
    Behind om (tr ++ [e]) tid root g := by
  cases g with
  | passing o live =>
      refine ⟨hBehind.1, fun reply hLive => ?_⟩
      rcases hBehind.2 reply hLive with ⟨tx, hMem, hTrades⟩
      exact ⟨tx, hStands _ hMem rfl, hTrades⟩
  | closed o =>
      have hMem : o ∈ closings tr := hBehind
      show o ∈ closings (tr ++ [e])
      rw [closings_concat]
      exact List.mem_append_left _ hMem
  | asking | drawn id | apart => trivial

theorem Behind.move
    {op : Op} {env : Outcome} {r : op.Resp}
    (hBehind : Behind om tr tid root g)
    (hMove : DealMove om g op r g') :
    Behind om (tr ++ [.op tid op env r]) tid root g' := by
  have hSame
      (hStep :
        standStep (standing tr) (.op tid op env r) = standing tr) :
      Behind om (tr ++ [.op tid op env r]) tid root g := by
    apply hBehind.later
    intro x hMem _
    rw [standing_append_singleton, hStep]
    exact hMem
  cases hMove with
  | aside hAside => exact hSame (standStep_of_aside _ hAside)
  | draw | submit hId | resend hId | tell hEvent => trivial
  | @bundle o live tx r hTrades | @direct o live tx r hTrades =>
      refine ⟨hBehind.1, fun reply hLive => ?_⟩
      cases r with
      | error e => cases hLive
      | ok sig =>
          cases hLive
          refine ⟨tx, ?_, hTrades⟩
          rw [standing_append_singleton]
          exact List.mem_cons_self
  | @poll o bundleId r =>
      by_cases hFailed : r.toOption = some "failed"
      · rw [if_pos hFailed]
        exact ⟨hBehind.1, fun reply hLive => by cases hLive⟩
      · rw [if_neg hFailed]
        apply hSame
        cases r with
        | error e => rfl
        | ok status =>
            unfold standStep
            split <;> simp_all [Except.toOption]
  | @deadline o live fired =>
      cases fired with
      | false => exact hSame rfl
      | true => exact ⟨hBehind.1, fun reply hLive => by cases hLive⟩
  | @close o o' live r hCloses =>
      cases r with
      | error e => trivial
      | ok u =>
          show o' ∈ closings _
          have hClosing :
              closingOf (.op tid (.db (.updateOrder o')) env (.ok u)) =
                some o' :=
            if_pos hCloses.outcome
          rw [closings_concat, hClosing, Option.toList_some]
          exact List.mem_append_right _ List.mem_cons_self
  | record hStatus => exact hSame rfl

end Behind

section Runs

variable {om : OrderManager} {C : OmCond}
variable {db : Database} {chain : Chain} {seenIds : List OrderId}
variable {tr : List OmEvent} {s : State}
variable {shs : List (Shadow Root Deal)}

theorem behind_of_dealtRun
    {tid : Nat} {root : Root} {g : Deal}
    (hRun :
      (dealing om).ShadowRun om.machine C
        (State.boot db chain seenIds) tr s shs)
    (hAt : shs[tid]? = some ⟨root, some g⟩) :
    Behind om tr tid root g := by
  refine hRun.local_invariant (Behind om) ?_ ?_ ?_ hAt
  · intro tr tid root _
    cases root with
    | processOrder o => exact ⟨rfl, fun reply hLive => by cases hLive⟩
    | submitOrder o | cancelOrder id | pauseWallet reason n => trivial
  · intro _ _ _ _ _ _ _ _ _ _ _ _ _ _ _ hBehind hMove
    exact hBehind.move hMove
  · intro tr s shs tid root g e _ _ hBehind hNot
    apply hBehind.later
    intro x hMem hTid
    rw [standing_append_singleton]
    apply mem_standStep hMem
    rw [hTid]
    exact hNot

/- What is announced is the outcome of an order that was closed. -/
theorem announced_of_dealtRun
    (hRun :
      (dealing om).ShadowRun om.machine C
        (State.boot db chain seenIds) tr s shs) :
    ∀ ev ∈ outcomeEvents tr, ∃ o ∈ closings tr, ev = o.event := by
  induction hRun with
  | nil => exact fun ev hMem => absurd hMem List.not_mem_nil
  | @snoc tr s s' shs shs' e hRun hCond hStep ih =>
      intro ev hMem
      rw [outcomeEvents_concat] at hMem
      rw [closings_concat]
      rcases List.mem_append.mp hMem with hOld | hNew
      · rcases ih ev hOld with ⟨o, hClosed, hEq⟩
        exact ⟨o, List.mem_append_left _ hClosed, hEq⟩
      · cases hStep with
        | op hPhase hMove hExec =>
            rcases hMove.tells (Option.mem_toList.mp hNew) with
              ⟨o, rfl, hEq⟩
            have hClosed : o ∈ closings tr :=
              behind_of_dealtRun hRun hPhase
            exact ⟨o, List.mem_append_left _ hClosed, hEq⟩
        | ext hExt => cases hNew

/- The new rows are trades of orders that were closed. -/
theorem rows_of_dealtRun
    (hRun :
      (dealing om).ShadowRun om.machine C
        (State.boot db chain seenIds) tr s shs) :
    ∃ fresh,
      s.db.trades = fresh ++ db.trades ∧
        (fresh.map TradeRow.id).Nodup ∧
          ∀ row ∈ fresh,
            ∃ o ∈ closings tr, o.status = .executed ∧
              row = o.trade := by
  induction hRun with
  | nil =>
      exact ⟨[], rfl, .nil, fun _ hMem => absurd hMem List.not_mem_nil⟩
  | @snoc tr s s' shs shs' e hRun hCond hStep ih =>
      rcases ih with ⟨fresh, hRows, hDistinct, hRecorded⟩
      have hOld :
          ∀ row ∈ fresh,
            ∃ o ∈ closings (tr ++ [e]), o.status = .executed ∧
              row = o.trade := by
        intro row hMem
        rcases hRecorded row hMem with ⟨o, hClosed, hTrade⟩
        rw [closings_concat]
        exact ⟨o, List.mem_append_left _ hClosed, hTrade⟩
      cases hStep with
      | op hPhase hMove hExec =>
          rcases exec_trades hExec with hSame | ⟨o, hOp, hNew, hKeys⟩
          · exact ⟨fresh, hSame.trans hRows, hDistinct, hOld⟩
          · rcases hMove.records hOp with ⟨rfl, hStatus⟩
            have hClosed : o ∈ closings tr :=
              behind_of_dealtRun hRun hPhase
            refine ⟨o.trade :: fresh, ?_, ?_, ?_⟩
            · rw [hNew, hRows, List.cons_append]
            · rw [List.map_cons, List.nodup_cons]
              refine ⟨fun hAgain => ?_, hDistinct⟩
              rcases List.mem_map.mp hAgain with ⟨row, hMem, hId⟩
              apply hKeys row _ hId
              rw [hRows]
              exact List.mem_append_left _ hMem
            · intro row hMem
              rcases List.mem_cons.mp hMem with rfl | hRest
              · rw [closings_concat]
                exact ⟨o, List.mem_append_left _ hClosed, hStatus, rfl⟩
              · exact hOld row hRest
      | ext hExt =>
          exact ⟨fresh, (trades_ext hExt).trans hRows, hDistinct, hOld⟩

end Runs

------------------------------------------------------------
-- Closed Orders
------------------------------------------------------------

section Closed

variable {om : OrderManager} {C : OmCond}
variable {db : Database} {chain : Chain} {seenIds : List OrderId}
variable {tr : List OmEvent} {s s' : State}
variable {shs : List (Shadow Root Deal)}
variable {tid : Nat} {root : Root} {g g' : Deal} {op : Op}
variable {env : Outcome} {r : op.Resp} {e : Ext} {o : Order}

theorem owned_of_dealtRun
    (hRun :
      (dealing om).ShadowRun om.machine C
        (State.boot db chain seenIds) tr s shs) :
    OwnedBy Deal.holds s shs :=
  ownedBy_of_shadowRun (fun root => by cases root <;> rfl)
    (fun _ _ _ _ hMove => DealMove.hands hMove) hRun

/- Closed orders are distinct, and nobody has one any more. -/
structure ClosedOnce
    (tr : List OmEvent)
    (s : State)
    (shs : List (Shadow Root Deal)) : Prop where
  once : ((closings tr).map Order.id).Nodup
  gone :
    ∀ o ∈ closings tr,
      o.id ∈ s.seenIds ∧ o.id ∉ holdersBy Deal.holds s shs

theorem ClosedOnce.afterOp
    (hClosed : ClosedOnce tr s shs)
    (hOwned : OwnedBy Deal.holds s shs)
    (hPhase : shs[tid]? = some ⟨root, some g⟩)
    (hMove : DealMove om g op r g')
    (hExec : State.exec op env s = some (r, s')) :
    ClosedOnce (tr ++ [.op tid op env r]) s'
      (Pumpy.afterOp (dealing om) shs tid root g' op) := by
  have hSeen : ∀ id ∈ s.seenIds, id ∈ s'.seenIds := by
    intro id hMem
    rw [(exec_seenIds hExec).2]
    exact List.mem_append_right _ hMem
  have hGone :
      ∀ o ∈ closings tr,
        o.id ∈ s'.seenIds ∧
          o.id ∉
            holdersBy Deal.holds s'
              (Pumpy.afterOp (dealing om) shs tid root g' op) := by
    intro o hMem
    rcases hClosed.gone o hMem with ⟨hKnown, hNot⟩
    exact ⟨hSeen _ hKnown,
      not_holdersBy_op (P := dealing om) (fun _ _ => rfl) hPhase
        hMove.hands hExec hKnown hNot⟩
  cases hClosing : closingOf (.op tid op env r) with
  | none =>
      constructor
      · rw [closings_concat, hClosing, Option.toList_none,
          List.append_nil]
        exact hClosed.once
      · rw [closings_concat, hClosing, Option.toList_none,
          List.append_nil]
        exact hGone
  | some o =>
      rcases hMove.closes hClosing with ⟨o₀, live, rfl, hCloses, rfl⟩
      have hHeld : (Deal.passing o₀ live).holds = some o.id :=
        congrArg some hCloses.id.symm
      have hKnown := hOwned.seen_of_held hPhase hHeld
      have hMem : o.id ∈ holdersBy Deal.holds s shs :=
        List.mem_append_right _
          (Protocol.mem_held.mpr ⟨tid, root, _, hPhase, hHeld⟩)
      have hEnqueues : op.enqueues r = none := by
        cases op with
        | db op => rfl
        | engine op | map op | chan op | metric op | chain op
        | sys op =>
            cases hClosing
      have hFresh : o.id ∉ (closings tr).map Order.id := by
        intro hAgain
        rcases List.mem_map.mp hAgain with ⟨o', hMem', hSameId⟩
        exact (hClosed.gone o' hMem').2 (hSameId ▸ hMem)
      constructor
      · rw [closings_concat, hClosing, Option.toList_some,
          List.map_append, List.map_singleton,
          ← List.concat_eq_append]
        exact hClosed.once.concat hFresh
      · rw [closings_concat, hClosing, Option.toList_some]
        intro o' hMem'
        rcases List.mem_append.mp hMem' with hOld | hNew
        · exact hGone o' hOld
        · cases List.mem_singleton.mp hNew
          exact ⟨hSeen _ hKnown,
            hOwned.released (P := dealing om) (fun _ _ => rfl) hPhase
              hExec hHeld rfl hEnqueues⟩

theorem ClosedOnce.afterExt
    (hClosed : ClosedOnce tr s shs)
    (hExt : Ext.exec e s = some s') :
    ClosedOnce (tr ++ [.ext e]) s'
      (Pumpy.afterExt om (dealing om) shs e) := by
  have hNone : closingOf (.ext e) = none := rfl
  constructor
  · rw [closings_concat, hNone, Option.toList_none, List.append_nil]
    exact hClosed.once
  · rw [closings_concat, hNone, Option.toList_none, List.append_nil]
    intro o hMem
    rcases hClosed.gone o hMem with ⟨hKnown, hNot⟩
    refine ⟨seenIds_ext hExt _ hKnown, ?_⟩
    exact not_holdersBy_ext om (fun root => by cases root <;> rfl) hExt
      hNot

theorem closedOnce_of_dealtRun
    (hRun :
      (dealing om).ShadowRun om.machine C
        (State.boot db chain seenIds) tr s shs) :
    ClosedOnce tr s shs := by
  induction hRun with
  | nil =>
      exact ⟨List.nodup_nil, fun o hMem => absurd hMem List.not_mem_nil⟩
  | snoc hRun hCond hStep ih =>
      cases hStep with
      | op hPhase hMove hExec =>
          exact ih.afterOp (owned_of_dealtRun hRun) hPhase hMove hExec
      | ext hExt => exact ih.afterExt hExt

/- The order was closed with a submission that its pass has left. -/
def Backed
    (om : OrderManager)
    (tr : List OmEvent)
    (shs : List (Shadow Root Deal))
    (o : Order) : Prop :=
  ∃ x ∈ standing tr,
    om.Trades o x.tx ∧ o.signature = some x.reply ∧
      ∃ o₀ phase,
        shs[x.tid]? = some ⟨.processOrder o₀, phase⟩ ∧
          o₀.id = o.id ∧ ∀ g, phase = some g → g.through

theorem Backed.afterOp
    (hBacked : Backed om tr shs o)
    (hPhase : shs[tid]? = some ⟨root, some g⟩)
    (hMove : DealMove om g op r g') :
    Backed om (tr ++ [.op tid op env r])
      (Pumpy.afterOp (dealing om) shs tid root g' op) o := by
  rcases hBacked with
    ⟨x, hMem, hTrades, hSig, o₀, phase, hAt, hId, hThrough⟩
  by_cases hTid : x.tid = tid
  · rw [hTid, hPhase] at hAt
    cases hAt
    rcases hMove.through (standing tr) (hThrough g rfl) with
      ⟨hThrough', hSame⟩
    refine ⟨x, ?_, hTrades, hSig, o₀, some g', ?_, hId, ?_⟩
    · rw [standing_append_singleton, hSame]
      exact hMem
    · rw [hTid]
      exact afterOp_self hPhase
    · intro g₁ hEq
      cases hEq
      exact hThrough'
  · refine ⟨x, ?_, hTrades, hSig, o₀, phase, ?_, hId, hThrough⟩
    · rw [standing_append_singleton]
      apply mem_standStep hMem
      intro op' env' r' hEq
      cases hEq
      exact hTid rfl
    · exact afterOp_other hTid hAt

theorem Backed.afterExt
    (hBacked : Backed om tr shs o)
    (e : Ext) :
    Backed om (tr ++ [.ext e])
      (Pumpy.afterExt om (dealing om) shs e) o := by
  rcases hBacked with
    ⟨x, hMem, hTrades, hSig, o₀, phase, hAt, hId, hThrough⟩
  have hLt : x.tid < shs.length :=
    (List.getElem?_eq_some_iff.mp hAt).1
  have hAfter :
      (Pumpy.afterExt om (dealing om) shs e)[x.tid]? =
        some (Protocol.surviveShadow om.machine e x.tid
          ⟨.processOrder o₀, phase⟩) := by
    unfold Pumpy.afterExt
    rw [List.getElem?_append_left (by simpa using hLt),
      List.getElem?_mapIdx, hAt]
    rfl
  unfold Protocol.surviveShadow at hAfter
  refine ⟨x, ?_, hTrades, hSig, ?_⟩
  · rw [standing_append_singleton]
    exact hMem
  · split at hAfter
    · exact ⟨o₀, none, hAfter, hId, fun g hEq => by cases hEq⟩
    · exact ⟨o₀, phase, hAfter, hId, hThrough⟩

/- An executed order is closed with what its pass waited on. -/
theorem backed_of_closes
    (hRun :
      (dealing om).ShadowRun om.machine C
        (State.boot db chain seenIds) tr s shs)
    (hPhase : shs[tid]? = some ⟨root, some g⟩)
    (hMove : DealMove om g op r g')
    (hClosing : closingOf (.op tid op env r) = some o)
    (hStatus : o.status = .executed) :
    Backed om (tr ++ [.op tid op env r])
      (Pumpy.afterOp (dealing om) shs tid root g' op) o := by
  rcases hMove.closes hClosing with ⟨o₀, live, rfl, hCloses, rfl⟩
  rcases hCloses.signature hStatus with ⟨sig, rfl, hSig⟩
  rcases behind_of_dealtRun hRun hPhase with ⟨rfl, hStands⟩
  rcases hStands sig rfl with ⟨tx, hMem, mint, bound, hHead⟩
  have hSame :
      standStep (standing tr) (.op tid op env r) = standing tr := by
    cases op with
    | db op => rfl
    | engine op | map op | chan op | metric op | chain op | sys op =>
        cases hClosing
  refine ⟨⟨tid, tx, sig⟩, ?_, ⟨mint, bound, ?_⟩, hSig, o₀, _,
    afterOp_self hPhase, hCloses.id.symm, ?_⟩
  · rw [standing_append_singleton, hSame]
    exact hMem
  · rw [hHead]
    unfold OrderManager.tradeInstruction
    rw [hCloses.side, hCloses.amount]
  · intro g₁ hEq
    cases hEq
    trivial

theorem backed_of_dealtRun
    (hRun :
      (dealing om).ShadowRun om.machine C
        (State.boot db chain seenIds) tr s shs) :
    ∀ o ∈ closings tr, o.status = .executed → Backed om tr shs o := by
  induction hRun with
  | nil => exact fun o hMem => absurd hMem List.not_mem_nil
  | snoc hRun hCond hStep ih =>
      intro o hMem hStatus
      rw [closings_concat] at hMem
      rcases List.mem_append.mp hMem with hOld | hNew
      · cases hStep with
        | op hPhase hMove hExec =>
            exact (ih o hOld hStatus).afterOp hPhase hMove
        | ext hExt => exact (ih o hOld hStatus).afterExt _
      · cases hStep with
        | op hPhase hMove hExec =>
            exact backed_of_closes hRun hPhase hMove
              (Option.mem_toList.mp hNew) hStatus
        | ext hExt => cases hNew

end Closed

------------------------------------------------------------
-- The Ledger
------------------------------------------------------------

/- An outcome and a row of one order agree. -/
theorem agree_of_closings
    {tr : List OmEvent} {o o' : Order}
    (hOnce : ((closings tr).map Order.id).Nodup)
    (hMem : o ∈ closings tr)
    (hMem' : o' ∈ closings tr)
    (hStatus : o'.status = .executed)
    (hId : o'.trade.id = o.event.orderId) :
    o.event.status = .executed ∧ o'.trade.mint = o.event.tokenMint ∧
      o'.trade.signature = o.event.signature ∧
        o'.trade.executedAt = o.event.executedAt := by
  have hSame : o' = o :=
    List.inj_on_of_nodup_map hOnce hMem' hMem hId
  subst hSame
  exact ⟨hStatus, rfl, rfl, rfl⟩

/-
  In every run the outcomes that are announced and the rows that
  are added to the table of trades are what the passes have
  closed their orders with.
-/
theorem ledger_of_run
    (om : OrderManager)
    (db : Database)
    (chain : Chain)
    (seenIds : List OrderId)
    {tr : List OmEvent}
    {c : OmConfig}
    (hRun :
      Machine.Run om.machine Machine.anyStep
        (State.boot db chain seenIds) tr c) :
    ∃ fresh,
      c.state.db.trades = fresh ++ db.trades ∧ Ledger om tr fresh := by
  rcases Protocol.shadowRun_of_run om.follows_dealing hRun with
    ⟨shs, hShadow⟩
  have hOnce := (closedOnce_of_dealtRun hShadow).once
  have hAnnounced := announced_of_dealtRun hShadow
  rcases rows_of_dealtRun hShadow with
    ⟨fresh, hRows, hDistinct, hRecorded⟩
  refine ⟨fresh, hRows, hOnce, hAnnounced, hDistinct, hRecorded, ?_, ?_⟩
  · intro o hMem hStatus
    rcases backed_of_dealtRun hShadow o hMem hStatus with
      ⟨x, hStands, hTrades, hSig, o₀, phase, hAt, hId, _⟩
    have hRoot : (om.machine.rootsIn tr)[x.tid]? =
        some (.processOrder o₀) := by
      rw [← hShadow.roots_eq, List.getElem?_map, hAt]
      rfl
    refine ⟨x, ⟨hStands, ?_⟩, hTrades, hSig⟩
    rw [passId, hRoot, ← hId]
  · intro ev hMem row hRow hId
    rcases hAnnounced ev hMem with ⟨o, hClosed, rfl⟩
    rcases hRecorded row hRow with ⟨o', hClosed', hStatus, rfl⟩
    exact agree_of_closings hOnce hClosed hClosed' hStatus hId

/- A retried order is closed and recorded with its one signature. -/
theorem exists_ledger :
    ∃ (tr : List OmEvent) (c : OmConfig),
      (closings tr).map (fun o => (o.id, o.signature)) =
          [("a", some "signature")] ∧
        c.state.db.trades.map (fun row => (row.id, row.signature)) =
            [("a", some "signature")] ∧
          ∃ fresh,
            c.state.db.trades =
                fresh ++ (sampleDatabase .enabled).trades ∧
              Ledger sampleManager tr fresh := by
  have hPlay :=
    Machine.exists_run_of_play sampleManager.machine
      (sampleState .enabled) retriedOrderSchedule
      (fun tr c =>
        decide
          ((closings tr).map (fun o => (o.id, o.signature)) =
              [("a", some "signature")] ∧
            c.state.db.trades.map (fun row => (row.id, row.signature)) =
              [("a", some "signature")]))
      (by decide +kernel)
  rcases hPlay with ⟨tr, c, hRun, hShown⟩
  rcases of_decide_eq_true hShown with ⟨hClosings, hRows⟩
  exact ⟨tr, c, hClosings, hRows,
    ledger_of_run sampleManager (sampleDatabase .enabled) _ _ hRun⟩

end Pumpy
