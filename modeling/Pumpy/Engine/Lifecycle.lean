import Pumpy.Engine.System

/-
  This file defines the life cycle of the engine's tasks: the
  phases a submission, a pass, a cancellation and a pause
  write go through, and which operation may be executed in
  which phase.  Every program of the order manager follows
  the life cycle, so that what holds of all runs can be
  proven over phases.

  Key definitions include:
    * `Gate`
    * `Phase`
    * `OrderManager.Cleared`
    * `OrderManager.Move`
    * `OrderManager.lifecycle`
-/

------------------------------------------------------------
-- Phases
------------------------------------------------------------

namespace Pumpy

open Interleaving

/- The two places that ask the decision engine. -/
inductive Gate where
  | submission | execution
deriving DecidableEq, Repr

/- Where an evaluation stands. -/
inductive EvalStage where
  | start | opened | counted | latched | halting | passing
deriving DecidableEq, Repr

/- Where the self-healing of a submission stands. -/
inductive HealStage where
  | check | read | resetCount | resetLatch | resetFlag
deriving DecidableEq, Repr

/- Where a pass stands that takes its order out of the active map. -/
inductive ExitStage where
  | arriving | holding | removed
deriving DecidableEq, Repr

/-
  The phases of a task.  `active` is the content of the active
  map the gate has read; `live` is the reply to the last
  submission, unless the pass has given it up.
-/
inductive Phase where
  | submitting (o : Order) : Phase
  | entering (o : Order) : Phase
  | reading (gate : Gate) (o : Order) : Phase
  | deciding (gate : Gate) (o : Order) (active : List Order)
      (stage : EvalStage) : Phase
  | healing (o : Order) (active : List Order) (d : Decision)
      (stage : HealStage) : Phase
  | raising (gate : Gate) (o : Order) (active : List Order)
      (d : Decision) : Phase
  | issuing (gate : Gate) (o : Order) (active : List Order)
      (d : Decision) : Phase
  | accepting (o : Order) : Phase
  | executing (o : Order) (active : List Order)
      (live : Option String) : Phase
  | refused (o : Order) : Phase
  | exiting (o : Order) (stage : ExitStage) : Phase
  | cancelling (id : OrderId) (holding : Bool) : Phase
  | withdrawing (id : OrderId) (removed : Option Order) : Phase
  | pausing : Phase
  | finished : Phase

namespace Phase

/- The phase after an evaluation has returned. -/
def decided
    (gate : Gate)
    (o : Order)
    (active : List Order)
    (d : Decision) : Phase :=
  match gate with
  | .submission => .healing o active d .check
  | .execution => .raising .execution o active d

/- The phase in which the decision is acted on. -/
def settled
    (gate : Gate)
    (o : Order)
    (active : List Order)
    (d : Decision) : Phase :=
  match gate, d.isAllow with
  | .submission, true => .accepting o
  | .submission, false => .finished
  | .execution, true => .executing o active none
  | .execution, false => .refused o

/- The phase in which nothing is left to do. -/
def ended : Phase → Bool
  | finished => true
  | _ => false

/- The phases a task may return in. -/
def mayReturn : Phase → Prop
  | pausing => True
  | finished => True
  | _ => False

/- The phases whose code may panic. -/
def mayCrash : Phase → Prop
  | deciding _ _ _ .opened => True
  | deciding _ _ _ .counted => True
  | executing _ _ _ => True
  | _ => False

/- The phases that may tell of an order's status. -/
def mayAnnounce : Phase → OrderId → OrderStatus → Prop
  | executing o _ _, id, st => id = o.id ∧ st = .executing
  | exiting o _, id, st =>
      id = o.id ∧ (st = .executed ∨ st = .failed)
  | withdrawing _ (some o), id, st => id = o.id ∧ st = .cancelled
  | _, _, _ => False

/- The phases a pass may write an order's last status in. -/
def mayClose : Phase → Order → OrderStatus → Prop
  | reading .execution o, o', st => o' = o ∧ st = .failed
  | refused o, o', st => o' = o ∧ st = .failed
  | executing o _ _, o', st =>
      o' = o ∧ (st = .executed ∨ st = .failed)
  | _, _, _ => False

theorem ended_of_mayClose
    {g : Phase} {o : Order} {st : OrderStatus}
    (hMay : g.mayClose o st) :
    g.ended = false := by
  cases g with
  | finished => exact hMay.elim
  | _ => rfl

theorem status_of_mayClose
    {g : Phase} {o : Order} {st : OrderStatus}
    (hMay : g.mayClose o st) :
    st = .executed ∨ st = .failed := by
  cases g with
  | reading gate o' =>
      cases gate with
      | submission => exact hMay.elim
      | execution => exact .inr hMay.2
  | refused o' => exact .inr hMay.2
  | executing o' active live => exact hMay.2
  | _ => exact hMay.elim

end Phase

------------------------------------------------------------
-- Operations by Effect
------------------------------------------------------------

namespace Op

/- Operations that touch nothing the phases depend on. -/
def neutral : Op → Bool
  | engine .loadConsecutiveRejects => true
  | db (.updateConfigStatus _) => true
  | db (.upsertWalletAlert _) => true
  | db (.getConfigValue _) => true
  | map (.pendingRetain _) => true
  | metric _ => true
  | chain (.analyzeSandwichRisk _ _) => true
  | chain (.getBondingCurveParams _) => true
  | chain .getClient => true
  | chain .getLatestBlockhash => true
  | chain .chooseTipAccount => true
  | chain (.simulateTransaction _) => true
  | sys .utcNow => true
  | sys (.sleep _) => true
  | _ => false

/-
  The order whose status an operation announces, and the
  status; a trade is always stored as executed.
-/
def announces : Op → Option (OrderId × OrderStatus)
  | db (.insertTrade o) => some (o.id, .executed)
  | map (.historyInsert o) => some (o.id, o.status)
  | chan (.eventSend ev) => some (ev.orderId, ev.status)
  | _ => none

/- The transaction an operation submits. -/
def submits : Op → Option Transaction
  | chain (.sendAndConfirmTransaction tx) => some tx
  | chain (.sendBundle tx) => some tx
  | _ => none

end Op

------------------------------------------------------------
-- Moves
------------------------------------------------------------

/- The exposure a gate adds an order's size to. -/
def Gate.exposure
    (gate : Gate)
    (active : List Order)
    (o : Order) : F64 :=
  match gate with
  | .submission => exposureOf active
  | .execution => exposureWithout active o

namespace OrderManager

/- The rules that depend on the order and the active map only. -/
structure Cleared
    (om : OrderManager)
    (gate : Gate)
    (o : Order)
    (active : List Order) : Prop where
  live : om.demoMode = false
  amount : o.amount ≠ 0
  slippage : o.slippageBps ≤ om.config.maxSlippageBps
  position :
    (solOf o.amount).gt om.config.maxPositionSizeSol = false
  exposure :
    ((gate.exposure active o).add (solOf o.amount)).gt
      om.config.maxPortfolioExposureSol = false
  dailyLoss : (F64.fin 0).gt om.config.maxDailyLossSol = false

/- The decisions an evaluation may return at a stage. -/
def MayReturn
    (om : OrderManager) : EvalStage → Decision → Prop
  | .opened, .halt _ => om.demoMode = true
  | .counted, .reject _ => True
  | .halting, .halt _ => True
  | .passing, .allow => True
  | _, _ => False

/- A transaction that trades the order. -/
def Trades
    (om : OrderManager)
    (o : Order)
    (tx : Transaction) : Prop :=
  ∃ mint bound,
    tx.instructions.head? = some (om.tradeInstruction mint o bound)

/- The moves of the life cycle. -/
inductive Move
    (om : OrderManager) :
    Phase → (op : Op) → op.Resp → Phase → Prop
  | idle
      {g : Phase} {op : Op} {r : op.Resp}
      (hNeutral : op.neutral = true)
      (hOpen : g.ended = false) :
      Move om g op r g
  | announce
      {g : Phase} {op : Op} {r : op.Resp}
      {id : OrderId} {st : OrderStatus}
      (hOp : op.announces = some (id, st))
      (hMay : g.mayAnnounce id st) :
      Move om g op r g
  | draw {o : Order} {id : OrderId} :
      Move om (.submitting o) (.sys .newUuid) id
        (.reading .submission { o with id := id })
  | enter {o : Order} :
      Move om (.entering o)
        (.map (.activeInsert { o with status := .validating })) ()
        (.reading .execution { o with status := .validating })
  | read {gate : Gate} {o : Order} {active : List Order} :
      Move om (.reading gate o) (.map .activeValues) active
        (.deciding gate o active .start)
  | load
      {gate : Gate} {o : Order} {active : List Order} {b : Bool} :
      Move om (.deciding gate o active .start)
        (.engine .loadAutoPaused) b
        (.deciding gate o active (if b then .halting else .opened))
  | reject
      {gate : Gate} {o : Order} {active : List Order}
      {n : UInt32} :
      Move om (.deciding gate o active .opened)
        (.engine (.fetchAddConsecutiveRejects 1)) n
        (.deciding gate o active .counted)
  | latch
      {gate : Gate} {o : Order} {active : List Order} {b : Bool} :
      Move om (.deciding gate o active .counted)
        (.engine (.swapAutoPaused true)) b
        (.deciding gate o active (if b then .counted else .latched))
  | flag {gate : Gate} {o : Order} {active : List Order} :
      Move om (.deciding gate o active .latched)
        (.engine (.storeNeedsDbPause true)) ()
        (.deciding gate o active .halting)
  | clear
      {gate : Gate} {o : Order} {active : List Order}
      (hCleared : om.Cleared gate o active) :
      Move om (.deciding gate o active .opened)
        (.engine (.storeConsecutiveRejects 0)) ()
        (.deciding gate o active .passing)
  | emit
      {gate : Gate} {o : Order} {active : List Order}
      {stage : EvalStage} {rec : AuditRecord}
      (hId : rec.orderId = o.id)
      (hMay : om.MayReturn stage rec.decision) :
      Move om (.deciding gate o active stage)
        (.engine (.emit rec)) ()
        (.decided gate o active rec.decision)
  | check
      {o : Order} {active : List Order} {d : Decision} {b : Bool} :
      Move om (.healing o active d .check)
        (.engine .isAutoPaused) b
        (if b then .healing o active d .read
          else .raising .submission o active d)
  | status
      {o : Order} {active : List Order} {d : Decision}
      {st : Option WalletStatus} :
      Move om (.healing o active d .read)
        (.db .getWalletStatus) st
        (if st = some .enabled then .healing o active d .resetCount
          else .raising .submission o active d)
  | resetCount
      {o : Order} {active : List Order} {d : Decision} :
      Move om (.healing o active d .resetCount)
        (.engine (.storeConsecutiveRejects 0)) ()
        (.healing o active d .resetLatch)
  | resetLatch
      {o : Order} {active : List Order} {d : Decision} :
      Move om (.healing o active d .resetLatch)
        (.engine (.storeAutoPaused false)) ()
        (.healing o active d .resetFlag)
  | resetFlag
      {o : Order} {active : List Order} {d : Decision} :
      Move om (.healing o active d .resetFlag)
        (.engine (.storeNeedsDbPause false)) ()
        (.raising .submission o active d)
  | take
      {gate : Gate} {o : Order} {active : List Order}
      {d : Decision} {b : Bool} :
      Move om (.raising gate o active d)
        (.engine (.swapNeedsDbPause false)) b
        (if b then .issuing gate o active d
          else .settled gate o active d)
  | issue
      {gate : Gate} {o : Order} {active : List Order}
      {d : Decision} {reason : String} {n : UInt32} :
      Move om (.issuing gate o active d)
        (.sys (.spawnPauseWallet reason n)) ()
        (.settled gate o active d)
  | store
      {o o' : Order} {r : Except DbError Unit}
      (hId : o'.id = o.id) (hStatus : o'.status = .pending) :
      Move om (.accepting o) (.db (.insertOrder o')) r
        (if r.isOk then .accepting o else .finished)
  | push
      {o o' : Order} {max : Nat} {b : Bool}
      (hId : o'.id = o.id) :
      Move om (.accepting o) (.map (.pendingPush max o')) b
        (if b then .accepting o else .finished)
  | send
      {o o' : Order} {b : Bool}
      (hId : o'.id = o.id) :
      Move om (.accepting o) (.chan (.orderSend o')) b .finished
  | close
      {g : Phase} {o o' : Order} {r : Except DbError Unit}
      (hId : o'.id = o.id)
      (hMay : g.mayClose o o'.status) :
      Move om g (.db (.updateOrder o')) r
        (if r.isOk then .exiting o .arriving else .finished)
  | bundle
      {o : Order} {active : List Order} {tx : Transaction}
      {r : Except String String}
      (hTrades : om.Trades o tx) :
      Move om (.executing o active none) (.chain (.sendBundle tx))
        r (.executing o active r.toOption)
  | direct
      {o : Order} {active : List Order} {tx : Transaction}
      {r : Except String String}
      (hTrades : om.Trades o tx) :
      Move om (.executing o active none)
        (.chain (.sendAndConfirmTransaction tx))
        r (.executing o active r.toOption)
  | poll
      {o : Order} {active : List Order} {bundleId : String}
      {r : Except String String} :
      Move om (.executing o active (some bundleId))
        (.chain (.getBundleStatus bundleId)) r
        (.executing o active
          (if r.toOption = some "failed" then none
            else some bundleId))
  | deadline
      {o : Order} {active : List Order} {live : Option String}
      {b : Bool} :
      Move om (.executing o active live) (.sys .timer) b
        (.executing o active (if b then none else live))
  | requeue
      {o o' : Order} {active : List Order} {b : Bool}
      (hId : o'.id = o.id) :
      Move om (.executing o active none) (.chan (.orderSend o')) b
        (.exiting o .arriving)
  | exitLock {o : Order} :
      Move om (.exiting o .arriving) (.map .activeLock) ()
        (.exiting o .holding)
  | exitRemove
      {o : Order} {id : OrderId} {r : Option Order}
      (hId : id = o.id) :
      Move om (.exiting o .holding) (.map (.activeRemove id)) r
        (.exiting o .removed)
  | exitUnlock {o : Order} :
      Move om (.exiting o .removed) (.map .activeUnlock) () .finished
  | cancelLock {id : OrderId} :
      Move om (.cancelling id false) (.map .activeLock) ()
        (.cancelling id true)
  | withdraw {id : OrderId} {r : Option Order} :
      Move om (.cancelling id true) (.map (.activeRemove id)) r
        (.withdrawing id r)
  | withdrawClose
      {id : OrderId} {o o' : Order} {r : Except DbError Unit}
      (hId : o'.id = o.id)
      (hStatus : o'.status = .cancelled) :
      Move om (.withdrawing id (some o)) (.db (.updateOrder o')) r
        (.withdrawing id (some o))
  | cancelUnlock {id : OrderId} {removed : Option Order} :
      Move om (.withdrawing id removed) (.map .activeUnlock) ()
        .finished
  | pause {r : Except DbError Unit} :
      Move om .pausing (.db (.updateRegistryStatus .paused)) r
        .pausing

/- The phase a task starts in. -/
def startPhase : Root → Phase
  | .submitOrder o => .submitting o
  | .processOrder o => .entering o
  | .cancelOrder id => .cancelling id false
  | .pauseWallet _ _ => .pausing

/- The life cycle of the engine's tasks. -/
def lifecycle
    (om : OrderManager) : Protocol Op Op.Resp Root Phase where
  start := startPhase
  move := om.Move
  crash := Phase.mayCrash

end OrderManager

end Pumpy
