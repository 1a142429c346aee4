import Pumpy.Engine.Execution
import Pumpy.Engine.System
import Pumpy.Interleaving.Protocol

/-
  The protocol of the engine's tasks that keeps the order maps
  and the gauges in view: an order's identifier is drawn, pushed
  and counted by a submission; a pass enters it in the active
  map, counts it there, announces it, and takes it out again; a
  cancellation takes it out of the maps.

  Key definitions include:
    * `Book`
    * `BookMove`
    * `bookkeeping`

  The main result is `OrderManager.follows_bookkeeping`.
-/

------------------------------------------------------------
-- Phases
------------------------------------------------------------

namespace Pumpy

open Interleaving

/-
  Where a task stands with its order.  A pass has `told` of its
  order once it has sent an event about it.
-/
inductive Book where
  | submitting : Book
  | drawn (id : OrderId) : Book
  | pushed (id : OrderId) : Book
  | counted (id : OrderId) : Book
  | arriving (id : OrderId) : Book
  | inserted (id : OrderId) : Book
  | entered (id : OrderId) : Book
  | running (id : OrderId) (told : Bool) : Book
  | leaving (id : OrderId) : Book
  | removed (id : OrderId) : Book
  | left (id : OrderId) : Book
  | cancelling (id : OrderId) : Book
  | dropped (id : OrderId) : Book
  | seeking (id : OrderId) : Book
  | withdrawn (id : OrderId) : Book
  | cancelled (id : OrderId) : Book
  | idle : Book

/- The operations that neither the maps nor the gauges notice. -/
def Op.quiet : Op → Bool
  | .engine _ => true
  | .db _ => true
  | .chain _ => true
  | .sys .newUuid => false
  | .sys _ => true
  | .map .activeValues => true
  | .map .activeLock => true
  | .map .activeUnlock => true
  | .map _ => false
  | .chan _ => false
  | .metric (.count _) => true
  | .metric _ => false

/- The moves of the bookkeeping. -/
inductive BookMove : Book → (op : Op) → op.Resp → Book → Prop
  | quiet
      {g : Book} {op : Op} {r : op.Resp}
      (hQuiet : op.quiet = true) :
      BookMove g op r g
  | draw
      {id : OrderId} :
      BookMove .submitting (.sys .newUuid) id (.drawn id)
  | push
      {id : OrderId} {max : Nat} {o : Order} {pushed : Bool}
      (hId : o.id = id)
      (hStatus : o.status = .pending) :
      BookMove (.drawn id) (.map (.pendingPush max o)) pushed
        (if pushed then .pushed id else .idle)
  | count
      {id : OrderId} {u : Unit} :
      BookMove (.pushed id) (.metric (.inc .pendingOrders)) u
        (.counted id)
  | send
      {id : OrderId} {o : Order} {sent : Bool}
      (hId : o.id = id) :
      BookMove (.counted id) (.chan (.orderSend o)) sent .idle
  | insert
      {id : OrderId} {o : Order} {u : Unit}
      (hId : o.id = id)
      (hStatus : o.status = .validating) :
      BookMove (.arriving id) (.map (.activeInsert o)) u
        (.inserted id)
  | enter
      {id : OrderId} {u : Unit} :
      BookMove (.inserted id) (.metric (.inc .activeOrders)) u
        (.entered id)
  | unqueue
      {id : OrderId} {u : Unit} :
      BookMove (.entered id) (.metric (.dec .pendingOrders)) u
        (.running id false)
  | tell
      {id : OrderId} {told : Bool} {ev : OrderEvent} {u : Unit}
      (hId : ev.orderId = id) :
      BookMove (.running id told) (.chan (.eventSend ev)) u
        (.running id true)
  | requeue
      {id : OrderId} {o : Order} {sent : Bool}
      (hId : o.id = id) :
      BookMove (.running id true) (.chan (.orderSend o)) sent
        (if sent then .leaving id else .running id true)
  | remove
      {id : OrderId} {r : Option Order} :
      BookMove (.running id true) (.map (.activeRemove id)) r
        (.removed id)
  | leave
      {id : OrderId} {r : Option Order} :
      BookMove (.leaving id) (.map (.activeRemove id)) r
        (.removed id)
  | uncount
      {id : OrderId} {u : Unit} :
      BookMove (.removed id) (.metric (.dec .activeOrders)) u
        (.left id)
  | archive
      {id : OrderId} {o : Order} {u : Unit}
      (hId : o.id = id) :
      BookMove (.left id) (.map (.historyInsert o)) u (.left id)
  | retain
      {id : OrderId} {dropped : Bool} :
      BookMove (.cancelling id) (.map (.pendingRetain id)) dropped
        (if dropped then .dropped id else .seeking id)
  | undo
      {id : OrderId} {u : Unit} :
      BookMove (.dropped id) (.metric (.dec .pendingOrders)) u
        (.seeking id)
  | withdraw
      {id : OrderId} {r : Option Order} :
      BookMove (.seeking id) (.map (.activeRemove id)) r
        (r.elim .idle fun o => .withdrawn o.id)
  | giveUp
      {id : OrderId} {o : Order} {e : DbError}
      (hStatus : o.status = .cancelled) :
      BookMove (.withdrawn id) (.db (.updateOrder o)) (.error e) .idle
  | discount
      {id : OrderId} {u : Unit} :
      BookMove (.withdrawn id) (.metric (.dec .activeOrders)) u
        (.cancelled id)
  | report
      {id : OrderId} {ev : OrderEvent} {u : Unit}
      (hId : ev.orderId = id) :
      BookMove (.cancelled id) (.chan (.eventSend ev)) u
        (.cancelled id)

namespace Book

/- A task may panic while it decides, prices or waits. -/
def mayCrash : Book → Prop
  | drawn _ => True
  | running _ _ => True
  | _ => False

/- The phases a task returns in. -/
def mayReturn : Book → Prop
  | drawn _ => True
  | running _ _ => True
  | left _ => True
  | cancelled _ => True
  | idle => True
  | _ => False

end Book

/- The bookkeeping of the engine's tasks. -/
def bookkeeping : Protocol Op Op.Resp Root Book where
  start
    | .submitOrder _ => .submitting
    | .processOrder o => .arriving o.id
    | .cancelOrder id => .cancelling id
    | .pauseWallet _ _ => .idle
  move := BookMove
  crash := Book.mayCrash

------------------------------------------------------------
-- Programs
------------------------------------------------------------

namespace Op

theorem quiet_of_decides
    {op : Op}
    (hDecides : op.decides = true) :
    op.quiet = true := by
  cases op with
  | engine op => rfl
  | _ => cases hDecides

theorem quiet_of_raises
    {op : Op}
    (hRaises : op.raises = true) :
    op.quiet = true := by
  rcases op with op | op | op | op | op | op | op <;> cases op <;>
    first
    | rfl
    | cases hRaises

theorem quiet_of_executes
    {op : Op}
    (hExecutes : op.executes = true) :
    op.quiet = true := by
  rcases op with op | op | op | op | op | op | op <;> cases op <;>
    first
    | rfl
    | cases hExecutes

end Op

namespace OrderManager

variable {om : OrderManager} {α : Type}
variable {g : Book} {id : OrderId}

/- A quiet operation leaves the task where it stands. -/
theorem book_quiet
    {op : Op}
    {k : op.Resp → OmProg α}
    {Q : α → Book → Prop}
    (hQuiet : op.quiet = true)
    (hRest : ∀ r, bookkeeping.Wp (k r) g Q) :
    bookkeeping.Wp (.act op k) g Q :=
  fun r => ⟨g, .quiet hQuiet, hRest r⟩

/- A quiet program leaves the task where it stands. -/
theorem book_of_always
    {p : OmProg α}
    (hAlways : p.Always (·.quiet = true))
    (hCrash : g.mayCrash) :
    bookkeeping.Wp p g (fun _ g' => g' = g) :=
  Protocol.Wp.of_always hAlways
    (fun _ _ hQuiet => .quiet hQuiet) hCrash

theorem book_evaluate
    {de : DecisionEngine} {ctx : DecisionContext}
    (hCrash : g.mayCrash) :
    bookkeeping.Wp (de.evaluate ctx) g (fun _ g' => g' = g) :=
  book_of_always
    (decides_evaluate.mono fun _ => Op.quiet_of_decides) hCrash

theorem book_raiseDbPause
    (d : Decision)
    (default : String)
    (hCrash : g.mayCrash) :
    bookkeeping.Wp (raiseDbPause d default) g (fun _ g' => g' = g) :=
  book_of_always
    ((raises_raiseDbPause d default).mono fun _ => Op.quiet_of_raises)
    hCrash

theorem book_selfHealingResume :
    bookkeeping.Wp selfHealingResume (.drawn id)
      (fun _ g' => g' = .drawn id) := by
  unfold selfHealingResume
  refine book_quiet rfl fun autoPaused => ?_
  cases autoPaused with
  | false => exact rfl
  | true =>
      refine book_quiet rfl fun dbStatus => ?_
      dsimp only [Prog.bind]
      split
      · iterate 3
          refine book_quiet rfl fun _ => ?_
        exact rfl
      · exact rfl

theorem book_enqueue
    (o : Order) :
    bookkeeping.Wp (om.enqueue o) (.drawn o.id)
      (fun _ g => g.mayReturn) := by
  unfold enqueue
  refine book_quiet rfl fun createdAt => ?_
  refine book_quiet rfl fun updatedAt => ?_
  refine book_quiet rfl fun stored => ?_
  cases stored with
  | error e => trivial
  | ok u =>
      intro pushed
      refine ⟨_, .push rfl rfl, ?_⟩
      cases pushed with
      | false => trivial
      | true =>
          refine book_quiet rfl fun _ => ?_
          intro u
          refine ⟨_, .count, fun sent => ?_⟩
          refine ⟨_, .send rfl, ?_⟩
          cases sent <;> trivial

theorem book_submitOrder
    (o : Order) :
    bookkeeping.Wp (om.submitOrder o) .submitting
      (fun _ g => g.mayReturn) := by
  unfold submitOrder
  intro id
  refine ⟨_, .draw, ?_⟩
  refine book_quiet rfl fun active => ?_
  apply (book_evaluate (g := .drawn id) trivial).bind
  rintro decision g rfl
  apply book_selfHealingResume.bind
  rintro _ g rfl
  apply (book_raiseDbPause (g := .drawn id) _ _ trivial).bind
  rintro _ g rfl
  cases decision with
  | allow => exact book_enqueue { o with id := id }
  | reject reason => trivial
  | halt reason => trivial

theorem book_cancelActive
    (id : OrderId) :
    bookkeeping.Wp (cancelActive id) (.seeking id)
      (fun _ g => g.mayReturn) := by
  unfold cancelActive
  refine book_quiet rfl fun _ => ?_
  intro removed
  refine ⟨_, .withdraw, ?_⟩
  cases removed with
  | none => exact book_quiet rfl fun _ => trivial
  | some order =>
      refine book_quiet rfl fun updatedAt => ?_
      intro updated
      cases updated with
      | error e =>
          refine ⟨.idle, .giveUp rfl, ?_⟩
          exact book_quiet rfl fun _ => trivial
      | ok u =>
          refine ⟨.withdrawn order.id, .quiet rfl, fun _ => ?_⟩
          refine ⟨_, .discount, ?_⟩
          refine book_quiet rfl fun _ => ?_
          intro _
          refine ⟨_, .report rfl, ?_⟩
          exact book_quiet rfl fun _ => trivial

theorem book_cancelOrder
    (id : OrderId) :
    bookkeeping.Wp (cancelOrder id) (.cancelling id)
      (fun _ g => g.mayReturn) := by
  unfold cancelOrder
  intro dropped
  refine ⟨_, .retain, ?_⟩
  cases dropped with
  | false => exact book_cancelActive id
  | true =>
      intro _
      refine ⟨_, .undo, ?_⟩
      exact book_quiet rfl fun _ => book_cancelActive id

theorem book_pauseWallet
    (reason : String)
    (rejectCount : UInt32) :
    bookkeeping.Wp (pauseWallet reason rejectCount) .idle
      (fun _ g => g.mayReturn) := by
  unfold pauseWallet
  iterate 3
    refine book_quiet rfl fun _ => ?_
  trivial

------------------------------------------------------------
-- Passes
------------------------------------------------------------

theorem book_leave
    {told : Bool}
    (order : Order)
    (hId : order.id = id) :
    bookkeeping.Wp (finalizeOrderMinimal.leave order)
      (.running id told) (fun _ g => g.mayReturn) := by
  unfold finalizeOrderMinimal.leave
  subst hId
  intro _
  refine ⟨_, .tell rfl, ?_⟩
  refine book_quiet rfl fun _ => ?_
  intro removed
  refine ⟨_, .remove, fun _ => ?_⟩
  refine ⟨_, .uncount, fun _ => ?_⟩
  refine ⟨_, .archive rfl, ?_⟩
  exact book_quiet rfl fun _ => trivial

theorem book_finalizeOrderMinimal
    {told : Bool}
    (order : Order)
    (hId : order.id = id) :
    bookkeeping.Wp (finalizeOrderMinimal order) (.running id told)
      (fun _ g => g.mayReturn) := by
  unfold finalizeOrderMinimal
  refine book_quiet rfl fun updated => ?_
  cases updated with
  | error e => trivial
  | ok u =>
      by_cases hExecuted : order.status = .executed
      · simp only [Prog.bind, hExecuted, if_true]
        exact book_quiet rfl fun _ => book_leave order hId
      · simp only [Prog.bind, hExecuted, if_false]
        exact book_leave order hId

theorem book_failOrder
    {told : Bool}
    (order : Order)
    (reason : String)
    (hId : order.id = id) :
    bookkeeping.Wp (failOrder order reason) (.running id told)
      (fun _ g => g.mayReturn) := by
  unfold failOrder
  exact book_quiet rfl fun _ => book_finalizeOrderMinimal _ hId

theorem book_requeue
    (order : Order)
    (backoff : Duration)
    (hId : order.id = id) :
    bookkeeping.Wp (requeue order backoff) (.running id true)
      (fun _ g => g.mayReturn) := by
  unfold requeue
  subst hId
  refine book_quiet rfl fun _ => ?_
  intro sent
  refine ⟨_, .requeue rfl, ?_⟩
  refine book_quiet rfl fun _ => ?_
  intro removed
  refine ⟨.removed order.id, ?_, fun _ => ?_⟩
  · cases sent with
    | true => exact .leave
    | false => exact .remove
  · refine ⟨_, .uncount, ?_⟩
    exact book_quiet rfl fun _ => trivial

theorem book_settle
    (order : Order)
    (r : Except String String)
    (hId : order.id = id) :
    bookkeeping.Wp (om.settle order r) (.running id true)
      (fun _ g => g.mayReturn) := by
  cases r with
  | ok sig =>
      unfold settle
      iterate 3
        refine book_quiet rfl fun _ => ?_
      exact book_finalizeOrderMinimal _ hId
  | error e =>
      dsimp only [settle]
      split
      · split
        · trivial
        · exact book_requeue order _ hId
      · iterate 2
          refine book_quiet rfl fun _ => ?_
        exact book_finalizeOrderMinimal _ hId

theorem book_executeApproved
    (mint : Pubkey)
    (o : Order)
    (snapshot : Option BondingCurveParams) :
    bookkeeping.Wp (om.executeApproved mint o snapshot)
      (.running o.id false) (fun _ g => g.mayReturn) := by
  unfold executeApproved
  refine book_quiet rfl fun updatedAt => ?_
  intro _
  refine ⟨_, .tell rfl, ?_⟩
  dsimp only [Prog.bind]
  split
  · trivial
  · rename_i maxCost minOutput _
    refine (book_of_always (g := .running o.id true)
      (fun op hExecutes => ?_) trivial).bind ?_
    · rcases Prog.canExecute_timeout hExecutes with rfl | hTrade
      · rfl
      · exact Op.quiet_of_executes
          (executes_executeTrade _ _ op hTrade)
    · rintro result g rfl
      exact book_settle _ _ rfl

theorem book_gateAndExecute
    (mint : Pubkey)
    (o : Order) :
    bookkeeping.Wp (om.gateAndExecute mint o) (.running o.id false)
      (fun _ g => g.mayReturn) := by
  unfold gateAndExecute
  iterate 3
    refine book_quiet rfl fun _ => ?_
  apply (book_evaluate (g := .running o.id false) trivial).bind
  rintro decision g rfl
  apply (book_raiseDbPause (g := .running o.id false) _ _ trivial).bind
  rintro _ g rfl
  split
  · exact book_executeApproved mint o _
  · exact book_failOrder _ _ rfl

theorem book_processOrder
    (o : Order) :
    bookkeeping.Wp (om.processOrder o) (.arriving o.id)
      (fun _ g => g.mayReturn) := by
  unfold processOrder
  intro _
  refine ⟨_, .insert rfl rfl, fun _ => ?_⟩
  refine ⟨_, .enter, fun _ => ?_⟩
  refine ⟨_, .unqueue, ?_⟩
  dsimp only [Prog.bind]
  split
  · exact book_failOrder _ _ rfl
  · exact book_gateAndExecute _ { o with status := .validating }

/- Every task of the order manager keeps its books this way. -/
theorem follows_bookkeeping
    (om : OrderManager) :
    bookkeeping.Follows om.machine (fun _ g => g.mayReturn) := by
  intro root
  cases root with
  | submitOrder o =>
      apply (book_submitOrder o).bind
      exact fun _ _ hReturned => hReturned
  | processOrder o =>
      apply (book_processOrder o).bind
      exact fun _ _ hReturned => hReturned
  | cancelOrder id =>
      apply (book_cancelOrder id).bind
      exact fun _ _ hReturned => hReturned
  | pauseWallet reason rejectCount =>
      apply (book_pauseWallet reason rejectCount).bind
      exact fun _ _ hReturned => hReturned

end OrderManager

end Pumpy
