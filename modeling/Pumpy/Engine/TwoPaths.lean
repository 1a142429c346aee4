import Pumpy.Engine.Bounds
import Pumpy.Engine.Execution
import Pumpy.Engine.FullPass
import Pumpy.Engine.Lifecycle
import Pumpy.Interleaving.Oracle

/-
  The pass of `OrderManager` against the one of
  `OrderManagerMinimal`: both run on the same answers, all SQL
  statements of theirs succeeding, and are compared by what
  they submit, store, count and leave behind.

  Key definitions include:
    * `PassReport`
    * `storedAnswers`
    * `SamePass`
    * `PathsMeet`

  The main result is `samePass_iff`.
-/

------------------------------------------------------------
-- Reports
------------------------------------------------------------

namespace Pumpy

open Interleaving

/-
  What a pass is compared by: the transactions it submits; the
  status and the retry count of the order, in its row and as it
  goes back into the queue; its history entries; its trade rows;
  and how often it moves each gauge and counter.
-/
structure PassReport where
  submitted : List Transaction
  row : OrderStatus × Int32
  requeued : List (OrderStatus × UInt32)
  history : List Order
  trades : List TracedTradeRow
  metrics : MetricOp → Nat

namespace Op

/- The order an operation puts back into the queue. -/
def requeues : Op → Option (OrderStatus × UInt32)
  | chan (.orderSend o) => some (o.status, o.retryCount)
  | _ => none

/- The order an operation files in the history. -/
def files : Op → Option Order
  | map (.historyInsert o) => some o
  | _ => none

/- The order an operation stores as a trade. -/
def recordsTrade : Op → Option Order
  | db (.insertTrade o) => some o
  | _ => none

/- The order's row after an operation on it. -/
def rewrites (row : OrderRow) : Op → OrderRow
  | db (.updateOrder o) => row.update o
  | _ => row

/- Operations that write neither the order's row nor a trade. -/
def keepsRows : Op → Bool
  | db (.updateOrder _) => false
  | db (.insertTrade _) => false
  | _ => true

/- Operations that a report does not mention. -/
def unreported : Op → Bool
  | db (.updateOrder _) => false
  | db (.insertTrade _) => false
  | chain (.sendAndConfirmTransaction _) => false
  | chain (.sendBundle _) => false
  | chan (.orderSend _) => false
  | map (.historyInsert _) => false
  | metric _ => false
  | _ => true

end Op

/- The report on some operations, from the order's row before them. -/
def passReport
    (recordTrade : Order → TracedTradeRow)
    (row : OrderRow)
    (ops : List Op) : PassReport where
  submitted := ops.filterMap Op.submits
  row :=
    ((ops.foldl Op.rewrites row).status,
      (ops.foldl Op.rewrites row).retryCount)
  requeued := ops.filterMap Op.requeues
  history := ops.filterMap Op.files
  trades := (ops.filterMap Op.recordsTrade).map recordTrade
  metrics := fun m => ops.count (.metric m)

/-
  The two managers' operations have the same report, each from
  its own row.
-/
def Alike
    (row row' : OrderRow)
    (ops ops' : List Op) : Prop :=
  passReport OrderManager.Full.recordTrade row ops =
    passReport recordTradeMinimal row' ops'

section Alike

variable {row row' : OrderRow} {t t' : List Op}
variable {op op' : Op} {o : Order}

theorem rewrites_of_keepsRows
    {p : List Op}
    (row : OrderRow)
    (hKeeps : ∀ op ∈ p, op.keepsRows = true) :
    p.foldl Op.rewrites row = row ∧ p.filterMap Op.recordsTrade = [] := by
  induction p with
  | nil => exact ⟨rfl, rfl⟩
  | cons op p ih =>
      have hRest := ih fun op' hMem =>
        hKeeps op' (List.mem_cons_of_mem _ hMem)
      have hOp := hKeeps op List.mem_cons_self
      have hRow : op.rewrites row = row := by
        unfold Op.rewrites
        split
        · cases hOp
        · rfl
      have hTrade : op.recordsTrade = none := by
        unfold Op.recordsTrade
        split
        · cases hOp
        · rfl
      refine ⟨?_, ?_⟩
      · rw [List.foldl_cons, hRow]
        exact hRest.1
      · rw [List.filterMap_cons_none hTrade]
        exact hRest.2

/- What both begin with does not tell them apart. -/
theorem alike_append
    {p : List Op}
    (hKeeps : ∀ op ∈ p, op.keepsRows = true) :
    Alike row row' (p ++ t) (p ++ t') ↔ Alike row row' t t' := by
  have hLeft := rewrites_of_keepsRows row hKeeps
  have hRight := rewrites_of_keepsRows row' hKeeps
  unfold Alike passReport
  simp only [PassReport.mk.injEq, List.filterMap_append,
    List.append_cancel_left_eq, List.foldl_append, hLeft.1, hRight.1,
    hLeft.2, List.nil_append, List.count_append]
  have hCounts :
      (fun m => p.count (Op.metric m) + t.count (Op.metric m)) =
          (fun m => p.count (Op.metric m) + t'.count (Op.metric m)) ↔
        (fun m => t.count (Op.metric m)) =
          fun m => t'.count (Op.metric m) := by
    simp only [funext_iff, Nat.add_left_cancel_iff]
  rw [hCounts]

/- Operations of both tell them apart by the rows alone. -/
theorem alike_self
    {p : List Op}
    (hKeeps : ∀ op ∈ p, op.keepsRows = true) :
    Alike row row' p p ↔ Alike row row' [] [] := by
  rw [← List.append_nil p]
  exact alike_append hKeeps

/- One operation of both, before the rest. -/
theorem alike_cons
    (hKeeps : op.keepsRows = true) :
    Alike row row' (op :: t) (op :: t') ↔ Alike row row' t t' :=
  alike_append (p := [op]) (by simpa using hKeeps)

/- What an unreported operation adds to a report: nothing. -/
theorem blank_of_unreported
    (row : OrderRow)
    (hOp : op.unreported = true) :
    op.submits = none ∧ op.rewrites row = row ∧
      op.requeues = none ∧ op.files = none ∧ op.recordsTrade = none ∧
        ∀ m, op ≠ .metric m := by
  have hMetric : ∀ m, op ≠ .metric m := by
    rintro m rfl
    cases hOp
  rcases op with op | op | op | op | op | op | op <;> cases op <;>
    first
    | exact ⟨rfl, rfl, rfl, rfl, rfl, hMetric⟩
    | cases hOp

/- An operation no report mentions changes none. -/
theorem passReport_unreported
    (recordTrade : Order → TracedTradeRow)
    (hOp : op.unreported = true) :
    passReport recordTrade row (op :: t) =
      passReport recordTrade row t := by
  rcases blank_of_unreported row hOp with
    ⟨hSubmits, hRow, hRequeues, hFiles, hRecords, hMetric⟩
  unfold passReport
  simp only [List.foldl_cons, hRow, List.filterMap_cons_none hSubmits,
    List.filterMap_cons_none hRequeues, List.filterMap_cons_none hFiles,
    List.filterMap_cons_none hRecords, List.count_cons_of_ne (hMetric _)]

theorem alike_skip_left
    (hOp : op.unreported = true) :
    Alike row row' (op :: t) t' ↔ Alike row row' t t' := by
  unfold Alike
  rw [passReport_unreported _ hOp]

theorem alike_skip_right
    (hOp : op.unreported = true) :
    Alike row row' t (op :: t') ↔ Alike row row' t t' := by
  unfold Alike
  rw [passReport_unreported _ hOp]

theorem passReport_update
    (recordTrade : Order → TracedTradeRow) :
    passReport recordTrade row (.db (.updateOrder o) :: t) =
      passReport recordTrade (row.update o) t := by
  have hMetric : ∀ m, Op.db (.updateOrder o) ≠ .metric m :=
    fun m hEq => by cases hEq
  unfold passReport
  simp only [List.count_cons_of_ne (hMetric _)]
  rfl

@[simp] theorem alike_update_left :
    Alike row row' (.db (.updateOrder o) :: t) t' ↔
      Alike (row.update o) row' t t' := by
  unfold Alike
  rw [passReport_update]

@[simp] theorem alike_update_right :
    Alike row row' t (.db (.updateOrder o) :: t') ↔
      Alike row (row'.update o) t t' := by
  unfold Alike
  rw [passReport_update]

/- A trade both record is the same row if it has no trace. -/
@[simp] theorem alike_trade :
    Alike row row' (.db (.insertTrade o) :: t)
        (.db (.insertTrade o) :: t') ↔
      o.traceId = none ∧ Alike row row' t t' := by
  have hMetric : ∀ m, Op.db (.insertTrade o) ≠ .metric m :=
    fun m hEq => by cases hEq
  have hRow :
      OrderManager.Full.recordTrade o = recordTradeMinimal o ↔
        o.traceId = none := by
    simp [OrderManager.Full.recordTrade, recordTradeMinimal]
  unfold Alike passReport
  simp only [PassReport.mk.injEq, List.foldl_cons,
    List.count_cons_of_ne (hMetric _), List.filterMap_cons,
    Op.recordsTrade, Op.submits, Op.requeues, Op.files, Op.rewrites,
    List.map_cons, List.cons.injEq, hRow]
  tauto

/- Orders both put back into the queue. -/
@[simp] theorem alike_requeue
    {o' : Order} :
    Alike row row' (.chan (.orderSend o) :: t)
        (.chan (.orderSend o') :: t') ↔
      (o.status = o'.status ∧ o.retryCount = o'.retryCount) ∧
        Alike row row' t t' := by
  have hMetric : ∀ v m, Op.chan (.orderSend v) ≠ .metric m :=
    fun v m hEq => by cases hEq
  unfold Alike passReport
  simp only [PassReport.mk.injEq, List.foldl_cons,
    List.count_cons_of_ne (hMetric _ _), List.filterMap_cons,
    Op.recordsTrade, Op.submits, Op.requeues, Op.files, Op.rewrites,
    List.cons.injEq, Prod.mk.injEq]
  tauto

@[simp] theorem alike_nil :
    Alike row row' [] [] ↔
      row.status = row'.status ∧ row.retryCount = row'.retryCount := by
  simp [Alike, passReport]

end Alike

------------------------------------------------------------
-- Runs
------------------------------------------------------------

/- Every SQL statement succeeds; the rest is answered in turn. -/
def storedAnswers
    (reply : Nat → (op : Op) → op.Resp) : Oracle Op Op.Resp where
  settled
    | .db (.updateRegistryStatus _) => some (.ok ())
    | .db (.updateConfigStatus _) => some (.ok ())
    | .db (.upsertWalletAlert _) => some (.ok ())
    | .db (.insertOrder _) => some (.ok ())
    | .db (.updateOrder _) => some (.ok ())
    | .db (.insertTrade _) => some (.ok ())
    | _ => none
  reply := reply

/-
  The two managers' passes of an order, on the same answers,
  have the same report.  `row` is the order's row before them.
-/
def SamePass
    (om : OrderManager)
    (parseError : String → String)
    (row : OrderRow)
    (o : Order)
    (reply : Nat → (op : Op) → op.Resp) : Prop :=
  Alike row row
    ((storedAnswers reply).ops
      (OrderManager.Full.processOrder om parseError o) 0)
    ((storedAnswers reply).ops (om.processOrder o) 0)

section Conditions

variable (om : OrderManager) (mint : Pubkey) (row : OrderRow)
variable (A : Oracle Op Op.Resp)

/- The gate of a pass: the snapshot it has fetched, and its decision. -/
def OrderManager.gate
    (order : Order) :
    OmProg (Option BondingCurveParams × Decision) := do
  let riskScore ← Do.analyzeSandwichRisk order.mint [order.mint]
  let curve ← Do.getBondingCurveParams mint
  let snapshot := curve.toOption
  let active ← Do.activeValues
  let decision ←
    om.decisionEngine.evaluate
      (om.gateContext order riskScore snapshot active)
  OrderManager.raiseDbPause decision
    "consecutive_reject threshold exceeded (execution gate)"
  pure (snapshot, decision)

/- The delivery of a pass, under its deadline. -/
def OrderManager.deliver
    (order : Order)
    (maxCost minOutput : UInt64) :
    OmProg (Option (Except String String)) :=
  (om.executeTrade mint order maxCost minOutput).timeout
    Op.isAwait (.sys .timer) (fun fired => fired)

/- The row reads as at the start of an execution. -/
def Started (o : Order) : Prop :=
  row.status = .executing ∧ row.retryCount = o.retryCount.toInt32

/-
  After a delivery: no trace goes with the trade, and a row left
  for a retry is not behind.
-/
def SettlesAlike
    (o : Order) : Except String String → Prop
  | .ok _ => o.traceId = none
  | .error e =>
      o.retryCount < om.config.maxRetries ∧
          isRetriableError e = true →
        Started row o

/- A transaction is submitted to a node, not as a bundle. -/
def Op.direct : Op → Bool
  | chain (.sendAndConfirmTransaction _) => true
  | _ => false

/-
  From the delivery on: where a transaction goes to a node, the
  order's own bound for its side, if it has one, is the computed
  one.
-/
def ExecutesAlike
    (o : Order)
    (n : Nat)
    (dyn : UInt64 × UInt64) : Prop :=
  let delivery :=
    om.deliver mint o (o.maxCost.getD dyn.1) (o.minOutput.getD dyn.2)
  ((∃ op ∈ A.ops delivery n, op.direct = true) →
      ∀ bound, o.explicitBound = some bound →
        bound = OrderManager.sideBound o.side dyn.1 dyn.2) ∧
    match (A.run delivery n).value with
    | none => Started row o
    | some result => SettlesAlike om row o (result.getD om.timedOut)

/- Once approved; `n` is the number of the next question. -/
def ApprovedAlike
    (o : Order)
    (snapshot : Option BondingCurveParams)
    (n : Nat) : Prop :=
  let updatedAt := (A.respond n (.sys .utcNow)).1
  let executing :=
    { o with status := .executing, updatedAt := updatedAt }
  match om.dynamicBounds executing snapshot with
  | none => Started row o
  | some dyn => ExecutesAlike om mint row A executing (n + 2) dyn

/- From the gate on: the order is approved. -/
def GatesAlike
    (o : Order)
    (n : Nat) : Prop :=
  let gated := A.run (om.gate mint o) n
  match gated.value with
  | none => True
  | some (snapshot, decision) =>
      decision.isAllow = true ∧
        ApprovedAlike om mint row A o snapshot gated.next

end Conditions

/-
  The course of a pass the two managers agree on: the mint is an
  address, the gate approves, a transaction sent to a node
  carries the computed bound, an executed order has no trace,
  and an order left to a retry, or to a panic, has a row that
  already reads as executing.
-/
def PathsMeet
    (om : OrderManager)
    (row : OrderRow)
    (o : Order)
    (reply : Nat → (op : Op) → op.Resp) : Prop :=
  match om.pubkeyFromStr o.mint with
  | none => False
  | some mint =>
      GatesAlike om mint row (storedAnswers reply)
        { o with status := .validating } 3

------------------------------------------------------------
-- Outcomes
------------------------------------------------------------

section Outcomes

variable {om : OrderManager} {row row' : OrderRow} {o : Order}
variable {reply : Nat → (op : Op) → op.Resp}

@[simp] theorem respond_updateOrder
    (n : Nat) :
    (storedAnswers reply).respond n (.db (.updateOrder o)) =
      (.ok (), n) :=
  rfl

/- The exponent counts the retries before this one. -/
theorem retryBackoff_counted
    (hRetries : o.retryCount < om.config.maxRetries) :
    OrderManager.Full.retryBackoff om
        { o with retryCount := o.retryCount + 1 } =
      om.retryBackoff o := by
  have hCount : (o.retryCount + 1).toNat - 1 = o.retryCount.toNat := by
    have hLt : o.retryCount.toNat < om.config.maxRetries.toNat :=
      UInt32.lt_iff_toNat_lt.mp hRetries
    have hMax := om.config.maxRetries.toNat_lt
    rw [UInt32.toNat_add]
    simp only [UInt32.toNat_one]
    omega
  unfold OrderManager.Full.retryBackoff OrderManager.retryBackoff
  rw [hCount]

/- The map operations a pass leaves with. -/
def leaving (o : Order) : List Op :=
  [.map .activeLock, .map (.activeRemove o.id),
    .metric (.dec .activeOrders), .map (.historyInsert o),
    .map .activeUnlock]

/- The trade a finalizer stores, if any. -/
def tradeOps (o : Order) : List Op :=
  if o.status = .executed then
    [.db (.insertTrade o)]
  else
    []

theorem ops_finalizeOrder
    (o : Order)
    (n : Nat) :
    (storedAnswers reply).ops (OrderManager.Full.finalizeOrder o) n =
      .db (.updateOrder o) :: .chan (.eventSend o.event) ::
        (tradeOps o ++ leaving o) := by
  unfold OrderManager.Full.finalizeOrder tradeOps
  simp only [Prog.act_bind, Prog.done_bind, Oracle.ops_act,
    respond_updateOrder]
  split <;> rfl

theorem ops_finalizeOrderMinimal
    (o : Order)
    (n : Nat) :
    (storedAnswers reply).ops (OrderManager.finalizeOrderMinimal o) n =
      .db (.updateOrder o) ::
        (tradeOps o ++ .chan (.eventSend o.event) :: leaving o) := by
  unfold OrderManager.finalizeOrderMinimal tradeOps
  simp only [Prog.act_bind, Prog.done_bind, Oracle.ops_act,
    respond_updateOrder]
  split <;> rfl

/- Both finalizers tell and file the same; only a trace parts them. -/
theorem alike_finalize_append
    (v : Order)
    (n n' : Nat)
    (t : List Op) :
    Alike row row'
        ((storedAnswers reply).ops (OrderManager.Full.finalizeOrder v) n
          ++ t)
        ((storedAnswers reply).ops
          (OrderManager.finalizeOrderMinimal v) n') ↔
      (v.status = .executed → v.traceId = none) ∧
        Alike (row.update v) (row'.update v) t [] := by
  have hLeaving :
      Alike (row.update v) (row'.update v) (leaving v ++ t) (leaving v) ↔
        Alike (row.update v) (row'.update v) t [] := by
    rw [← List.append_nil (leaving v), List.append_assoc]
    exact alike_append (by simp [leaving, Op.keepsRows])
  rw [ops_finalizeOrder, ops_finalizeOrderMinimal, List.cons_append,
    alike_update_left, alike_update_right, List.cons_append,
    alike_skip_left rfl, List.append_assoc]
  unfold tradeOps
  split
  · rename_i hExecuted
    rw [List.singleton_append, List.singleton_append, alike_trade,
      alike_skip_right rfl, hLeaving]
    simp only [hExecuted, true_imp_iff]
  · rename_i hOther
    rw [List.nil_append, List.nil_append, alike_skip_right rfl, hLeaving]
    simp only [hOther, false_imp_iff, true_and]

theorem alike_finalize
    (v : Order)
    (n n' : Nat) :
    Alike row row'
        ((storedAnswers reply).ops (OrderManager.Full.finalizeOrder v) n)
        ((storedAnswers reply).ops
          (OrderManager.finalizeOrderMinimal v) n') ↔
      (v.status = .executed → v.traceId = none) := by
  rw [← List.append_nil
      (Oracle.ops _ (OrderManager.Full.finalizeOrder v) n),
    alike_finalize_append, alike_nil]
  exact and_iff_left ⟨rfl, rfl⟩

/- A pass of the first manager alone has updated the row. -/
theorem alike_started
    (hExecuting : o.status = .executing) :
    Alike (row.update o) row [] [] ↔ Started row o := by
  rw [alike_nil]
  simp only [OrderRow.update, hExecuting, Started, eq_comm]

/- The ends of the two passes, the first having updated the row. -/
theorem alike_settle
    (hExecuting : o.status = .executing)
    (result : Except String String)
    (n : Nat) :
    Alike (row.update o) row
        ((storedAnswers reply).ops
          (OrderManager.Full.settle om o result) n)
        ((storedAnswers reply).ops (om.settle o result) n) ↔
      SettlesAlike om row o result := by
  cases result with
  | ok sig =>
      simp only [OrderManager.Full.settle, OrderManager.settle,
        Prog.act_bind, Prog.done_bind, Oracle.ops_act]
      rw [alike_cons rfl, alike_cons rfl, alike_cons rfl, alike_finalize]
      simp [SettlesAlike]
  | error e =>
      unfold OrderManager.Full.settle OrderManager.settle SettlesAlike
      dsimp only
      split
      · rename_i hRetry
        rw [retryBackoff_counted hRetry.1]
        cases om.retryBackoff o with
        | none => simp [alike_started hExecuting, hRetry]
        | some backoff =>
            simp only [OrderManager.Full.requeue, OrderManager.requeue,
              Prog.act_bind, Prog.done_bind, Oracle.ops_act,
              Prog.pure_eq, Oracle.ops_done]
            rw [alike_skip_left rfl, alike_cons rfl, alike_requeue,
              alike_cons rfl, alike_skip_left rfl, alike_skip_right rfl,
              alike_cons rfl, alike_cons rfl, alike_started hExecuting]
            simp [hRetry]
      · rename_i hLast
        simp only [Prog.act_bind, Prog.done_bind, Oracle.ops_act]
        rw [alike_cons rfl, alike_cons rfl, alike_finalize]
        simp [hLast]

end Outcomes

------------------------------------------------------------
-- Deliveries
------------------------------------------------------------

/- Two submissions of different transactions to a node. -/
def Parts (op op' : Op) : Prop :=
  ∃ tx tx',
    tx ≠ tx' ∧ op = .chain (.sendAndConfirmTransaction tx) ∧
      op' = .chain (.sendAndConfirmTransaction tx')

section Deliveries

variable {om : OrderManager} {mint : Pubkey} {o : Order}
variable {row row' : OrderRow}
variable {maxCost minOutput maxCost' minOutput' : UInt64}

/- The bound of a trade instruction can be read off it. -/
theorem tradeInstruction_injective
    {bound bound' : UInt64}
    (hSame :
      om.tradeInstruction mint o bound =
        om.tradeInstruction mint o bound') :
    bound = bound' := by
  have hTrade := congrArg Instruction.trade hSame
  rw [trade_tradeInstruction, trade_tradeInstruction] at hTrade
  have hBound := congrArg TradeData.bound (Option.some.inj hTrade)
  exact UInt64.toNat_inj.mp hBound

theorem not_direct_of_offers
    {op : Op}
    (hOffers : op.offers = true) :
    op.direct = false := by
  unfold Op.direct
  split
  · cases hOffers
  · rfl

/- Under different bounds, direct submissions part as they send. -/
theorem twin_executeDirect
    (hDiffer :
      OrderManager.sideBound o.side maxCost minOutput ≠
        OrderManager.sideBound o.side maxCost' minOutput') :
    Twin (·.direct = false) Parts
      (om.executeDirect mint o maxCost minOutput)
      (om.executeDirect mint o maxCost' minOutput') := by
  refine .act rfl fun client => ?_
  cases client with
  | error e => exact .done _
  | ok u =>
      refine .act rfl fun blockhash => ?_
      cases blockhash with
      | error e => exact .done _
      | ok recentBlockhash =>
          refine .part ⟨_, _, fun hSame => hDiffer ?_, rfl, rfl⟩
          have hFirst := congrArg Transaction.instructions hSame
          exact tradeInstruction_injective (List.cons.inj hFirst).1

/- The two executions, for given computed bounds. -/
theorem twin_execute
    {snapshot : Option BondingCurveParams}
    {dyn : UInt64 × UInt64}
    (hBounds :
      OrderManager.Full.resolveSlippageBounds om o snapshot = some dyn)
    (hDiffer :
      OrderManager.sideBound o.side dyn.1 dyn.2 ≠
        OrderManager.sideBound o.side (o.maxCost.getD dyn.1)
          (o.minOutput.getD dyn.2)) :
    Twin (·.direct = false) Parts
      (OrderManager.Full.executeWithMevProtection om mint o snapshot)
      (om.executeTrade mint o (o.maxCost.getD dyn.1)
        (o.minOutput.getD dyn.2)) := by
  unfold OrderManager.Full.executeWithMevProtection
    OrderManager.executeTrade
  rw [hBounds]
  cases om.mevEnabled with
  | false => exact twin_executeDirect hDiffer
  | true =>
      cases om.jitoClient with
      | none => exact twin_executeDirect hDiffer
      | some jito =>
          refine Twin.bind (Twin.of_always ?_) fun result => ?_
          · exact (offers_executeViaJitoMinimal _ _ _).mono
              fun _ => not_direct_of_offers
          · cases result with
            | ok sig => exact .act rfl fun _ => .done _
            | error e =>
                unfold OrderManager.afterJitoError
                dsimp only
                split
                · exact .done _
                · exact twin_executeDirect hDiffer

/- Where the bounds are the same, so are the executions. -/
theorem execute_eq
    {snapshot : Option BondingCurveParams}
    {dyn : UInt64 × UInt64}
    (hBounds :
      OrderManager.Full.resolveSlippageBounds om o snapshot = some dyn)
    (hSame :
      OrderManager.sideBound o.side dyn.1 dyn.2 =
        OrderManager.sideBound o.side (o.maxCost.getD dyn.1)
          (o.minOutput.getD dyn.2)) :
    OrderManager.Full.executeWithMevProtection om mint o snapshot =
      om.executeTrade mint o (o.maxCost.getD dyn.1)
        (o.minOutput.getD dyn.2) := by
  unfold OrderManager.Full.executeWithMevProtection
    OrderManager.executeTrade OrderManager.afterJitoError
    OrderManager.executeDirect
  rw [hBounds]
  dsimp only
  rw [hSame]
  rfl

/- The order's own bound for its side is the computed one. -/
theorem sideBound_eq_iff
    (dyn : UInt64 × UInt64) :
    OrderManager.sideBound o.side dyn.1 dyn.2 =
        OrderManager.sideBound o.side (o.maxCost.getD dyn.1)
          (o.minOutput.getD dyn.2) ↔
      ∀ bound, o.explicitBound = some bound →
        bound = OrderManager.sideBound o.side dyn.1 dyn.2 := by
  unfold OrderManager.sideBound Order.explicitBound
  cases o.side with
  | buy => cases o.maxCost <;> simp [eq_comm]
  | sell => cases o.minOutput <;> simp [eq_comm]

theorem resolveSlippageBounds_eq
    (snapshot : Option BondingCurveParams) :
    OrderManager.Full.resolveSlippageBounds om o snapshot =
      om.dynamicBounds o snapshot := by
  unfold OrderManager.Full.resolveSlippageBounds
    OrderManager.dynamicBounds
  cases snapshot with
  | some params => rfl
  | none =>
      dsimp only
      cases om.decisionEngine.profile.mul o.amount o.slippageBps with
      | none => rfl
      | some scaled =>
          cases hSum :
              om.decisionEngine.profile.add o.amount (scaled / 10000) <;>
            simp [hSum]

end Deliveries

------------------------------------------------------------
-- Executions
------------------------------------------------------------

section Executions

variable {om : OrderManager} {mint : Pubkey} {o : Order}
variable {row : OrderRow} {snapshot : Option BondingCurveParams}
variable {reply : Nat → (op : Op) → op.Resp}

/- A class of operations that has neither of the two statements. -/
theorem keepsRows_of
    {Q : Op → Bool} {op : Op}
    (hUpdate : ∀ o, Q (.db (.updateOrder o)) = false)
    (hTrade : ∀ o, Q (.db (.insertTrade o)) = false)
    (hOp : Q op = true) :
    op.keepsRows = true := by
  unfold Op.keepsRows
  split
  · simp [hUpdate] at hOp
  · simp [hTrade] at hOp
  · rfl

theorem keepsRows_deliver
    (maxCost minOutput : UInt64) :
    (om.deliver mint o maxCost minOutput).Always
      (·.keepsRows = true) := by
  intro op hExecutes
  rcases Prog.canExecute_timeout hExecutes with rfl | hTrade
  · rfl
  · exact keepsRows_of (fun _ => rfl) (fun _ => rfl)
      (executes_executeTrade _ _ op hTrade)

/- The delivery of the first manager's pass, under its deadline. -/
def OrderManager.Full.deliver
    (om : OrderManager)
    (mint : Pubkey)
    (o : Order)
    (snapshot : Option BondingCurveParams) :
    OmProg (Option (Except String String)) :=
  (OrderManager.Full.executeWithMevProtection om mint o
    snapshot).timeout Op.isAwait (.sys .timer) (fun fired => fired)

/- Deliveries that run alike leave the rest to the outcomes. -/
theorem alike_of_run_eq
    (hExecuting : o.status = .executing)
    {maxCost minOutput : UInt64}
    {n : Nat}
    (hRun :
      (storedAnswers reply).run
          (OrderManager.Full.deliver om mint o snapshot) n =
        (storedAnswers reply).run
          (om.deliver mint o maxCost minOutput) n) :
    Alike (row.update o) row
        ((storedAnswers reply).ops
          (OrderManager.Full.deliver om mint o snapshot >>= fun result =>
            OrderManager.Full.settle om o (result.getD om.timedOut)) n)
        ((storedAnswers reply).ops
          (om.deliver mint o maxCost minOutput >>= fun result =>
            om.settle o (result.getD om.timedOut)) n) ↔
      match ((storedAnswers reply).run
          (om.deliver mint o maxCost minOutput) n).value with
      | none => Started row o
      | some result => SettlesAlike om row o (result.getD om.timedOut) := by
  have hOps :
      (storedAnswers reply).ops
          (OrderManager.Full.deliver om mint o snapshot) n =
        (storedAnswers reply).ops
          (om.deliver mint o maxCost minOutput) n := by
    unfold Oracle.ops
    rw [hRun]
  have hKeeps :
      ∀ op ∈ (storedAnswers reply).ops
          (om.deliver mint o maxCost minOutput) n,
        op.keepsRows = true :=
    Oracle.ops_always (keepsRows_deliver maxCost minOutput) n
  cases hValue :
      ((storedAnswers reply).run
        (om.deliver mint o maxCost minOutput) n).value with
  | none =>
      rw [Oracle.ops_bind_none _ (hRun ▸ hValue),
        Oracle.ops_bind_none _ hValue, hOps, alike_self hKeeps,
        alike_started hExecuting]
  | some result =>
      rw [Oracle.ops_bind_some _ (hRun ▸ hValue),
        Oracle.ops_bind_some _ hValue, hOps, hRun, alike_append hKeeps,
        alike_settle hExecuting]

/- Submissions of different transactions do not go unnoticed. -/
theorem not_alike_of_parts
    {row' : OrderRow} {op op' : Op} {h t t' : List Op}
    (hParts : Parts op op')
    (hKeeps : ∀ op ∈ h, op.keepsRows = true) :
    ¬Alike row row' (h ++ op :: t) (h ++ op' :: t') := by
  rcases hParts with ⟨tx, tx', hOther, rfl, rfl⟩
  rw [alike_append hKeeps]
  intro hAlike
  have hSubmitted := congrArg PassReport.submitted hAlike
  exact hOther (List.cons.inj hSubmitted).1

/- Whatever follows them, programs that part are told apart. -/
theorem not_alike_of_apart
    {α β : Type} {p p' : OmProg α} {f f' : α → OmProg β}
    {row' : OrderRow} {op op' : Op} {h t t' : List Op} {n : Nat}
    (hParts : Parts op op')
    (hKeeps : p'.Always (·.keepsRows = true))
    (hLeft : (storedAnswers reply).ops p n = h ++ op :: t)
    (hRight : (storedAnswers reply).ops p' n = h ++ op' :: t') :
    ¬Alike row row' ((storedAnswers reply).ops (p >>= f) n)
      ((storedAnswers reply).ops (p' >>= f') n) := by
  have hBefore : ∀ op ∈ h, op.keepsRows = true := by
    intro op₁ hMem
    have hLater : op₁ ∈ h ++ op' :: t' := List.mem_append_left _ hMem
    rw [← hRight] at hLater
    exact Oracle.ops_always hKeeps n op₁ hLater
  rcases Oracle.ops_bind_prefix p n f with ⟨s, hFirst⟩
  rcases Oracle.ops_bind_prefix p' n f' with ⟨s', hSecond⟩
  rw [← hFirst, ← hSecond, hLeft, hRight, List.append_assoc,
    List.append_assoc]
  exact not_alike_of_parts hParts hBefore

/- From the delivery on. -/
theorem alike_deliver
    (hExecuting : o.status = .executing)
    {dyn : UInt64 × UInt64}
    (hBounds :
      OrderManager.Full.resolveSlippageBounds om o snapshot = some dyn)
    (n : Nat) :
    Alike (row.update o) row
        ((storedAnswers reply).ops
          (OrderManager.Full.deliver om mint o snapshot >>= fun result =>
            OrderManager.Full.settle om o (result.getD om.timedOut)) n)
        ((storedAnswers reply).ops
          (om.deliver mint o (o.maxCost.getD dyn.1)
              (o.minOutput.getD dyn.2) >>= fun result =>
            om.settle o (result.getD om.timedOut)) n) ↔
      ExecutesAlike om mint row (storedAnswers reply) o n dyn := by
  unfold ExecutesAlike
  dsimp only
  by_cases hSame :
      OrderManager.sideBound o.side dyn.1 dyn.2 =
        OrderManager.sideBound o.side (o.maxCost.getD dyn.1)
          (o.minOutput.getD dyn.2)
  · have hDelivery :
        OrderManager.Full.deliver om mint o snapshot =
          om.deliver mint o (o.maxCost.getD dyn.1)
            (o.minOutput.getD dyn.2) := by
      unfold OrderManager.Full.deliver OrderManager.deliver
      rw [execute_eq hBounds hSame]
    rw [alike_of_run_eq hExecuting
      (congrArg (Oracle.run _ · n) hDelivery)]
    exact (and_iff_right fun _ => (sideBound_eq_iff dyn).mp hSame).symm
  · have hTwin :
        Twin (·.direct = false) Parts
          (OrderManager.Full.deliver om mint o snapshot)
          (om.deliver mint o (o.maxCost.getD dyn.1)
            (o.minOutput.getD dyn.2)) :=
      Twin.timeout rfl (twin_execute hBounds hSame)
    rcases hTwin.run (storedAnswers reply) n with
      ⟨hRun, hBundles⟩ |
        ⟨h, op, op', t, t', hParts, _, hLeft, hRight⟩
    · rw [alike_of_run_eq hExecuting hRun]
      refine (and_iff_right ?_).symm
      rintro ⟨op, hMem, hDirect⟩
      unfold Oracle.ops at hBundles
      rw [hRun] at hBundles
      rw [hBundles op hMem] at hDirect
      cases hDirect
    · have hDirect : op'.direct = true := by
        rcases hParts with ⟨_, _, _, _, rfl⟩
        rfl
      have hMem : op' ∈ h ++ op' :: t' := by simp
      refine iff_of_false
        (not_alike_of_apart hParts (keepsRows_deliver _ _) hLeft hRight)
        ?_
      rintro ⟨hBound, _⟩
      have hOwn := hBound ⟨op', hRight ▸ hMem, hDirect⟩
      exact hSame ((sideBound_eq_iff dyn).mpr hOwn)

/- Once approved. -/
theorem alike_executeApproved
    (o : Order)
    (n : Nat) :
    Alike row row
        ((storedAnswers reply).ops
          (OrderManager.Full.executeApproved om mint o snapshot) n)
        ((storedAnswers reply).ops
          (om.executeApproved mint o snapshot) n) ↔
      ApprovedAlike om mint row (storedAnswers reply) o snapshot n := by
  unfold ApprovedAlike OrderManager.Full.executeApproved
    OrderManager.executeApproved
  simp only [Prog.act_bind, Prog.done_bind, Oracle.ops_act,
    respond_updateOrder]
  rw [alike_cons rfl, alike_update_left, alike_cons rfl,
    slippageBounds_eq]
  rw [← resolveSlippageBounds_eq]
  cases hBounds :
      OrderManager.Full.resolveSlippageBounds om
        { o with
          status := .executing
          updatedAt := ((storedAnswers reply).respond n (.sys .utcNow)).1 }
        snapshot with
  | none =>
      unfold OrderManager.Full.executeWithMevProtection
      rw [hBounds]
      exact alike_started rfl
  | some dyn => exact alike_deliver rfl hBounds _

end Executions

------------------------------------------------------------
-- Passes
------------------------------------------------------------

section Passes

variable {om : OrderManager} {mint : Pubkey} {row : OrderRow}
variable {reply : Nat → (op : Op) → op.Resp}

/- The first manager's pass is a gate and what follows its decision. -/
theorem full_gateAndExecute_eq
    (o : Order) :
    OrderManager.Full.gateAndExecute om mint o =
      om.gate mint o >>= fun gated =>
        if gated.2.isAllow then
          OrderManager.Full.executeApproved om mint o gated.1
        else
          OrderManager.Full.failOrder o
            ("DecisionEngine " ++ gated.2.label ++ ": " ++
              gated.2.reason)
            (Do.count .ordersRejected)
            (.executionError
              ("DecisionEngine " ++ gated.2.label ++ ": " ++
                gated.2.reason)) := by
  unfold OrderManager.Full.gateAndExecute OrderManager.gate
  simp only [Prog.act_bind, Prog.done_bind, Prog.bind_assoc,
    Prog.pure_eq]

theorem gateAndExecute_eq
    (o : Order) :
    om.gateAndExecute mint o =
      om.gate mint o >>= fun gated =>
        if gated.2.isAllow then
          om.executeApproved mint o gated.1
        else
          OrderManager.failOrder o
            ("DecisionEngine " ++ gated.2.label ++ ": " ++
              gated.2.reason) := by
  unfold OrderManager.gateAndExecute OrderManager.gate
  simp only [Prog.act_bind, Prog.done_bind, Prog.bind_assoc,
    Prog.pure_eq]

theorem keepsRows_gate
    (o : Order) :
    (om.gate mint o).Always (·.keepsRows = true) := by
  refine Prog.always_act rfl fun riskScore => ?_
  refine Prog.always_act rfl fun curve => ?_
  refine Prog.always_act rfl fun active => ?_
  apply Prog.Always.bind
    (decides_evaluate.mono fun _ =>
      keepsRows_of (fun _ => rfl) fun _ => rfl)
  intro decision _
  apply Prog.Always.bind
    ((raises_raiseDbPause _ _).mono fun _ =>
      keepsRows_of (fun _ => rfl) fun _ => rfl)
  intro _ _
  exact Prog.always_done _

theorem value_finalizeOrder
    (v : Order)
    (n : Nat) :
    ((storedAnswers reply).run
      (OrderManager.Full.finalizeOrder v) n).value = some (.ok ()) := by
  unfold OrderManager.Full.finalizeOrder
  simp only [Prog.act_bind, Prog.done_bind, Oracle.run_act,
    respond_updateOrder]
  split <;> rfl

/- The order an unapproved pass ends with. -/
def failed
    (o : Order)
    (reason : String)
    (updatedAt : Timestamp) : Order :=
  { o with
    status := .failed
    error := some reason
    updatedAt := updatedAt }

theorem ops_full_failOrder
    (o : Order)
    (reason : String)
    (afterwards : OmProg Unit)
    (raised : OrderError)
    (n : Nat) :
    ∃ n',
      (storedAnswers reply).ops
          (OrderManager.Full.failOrder o reason afterwards raised) n =
        .sys .utcNow ::
          ((storedAnswers reply).ops
              (OrderManager.Full.finalizeOrder
                (failed o reason (reply n (.sys .utcNow)))) (n + 1) ++
            (storedAnswers reply).ops afterwards n') := by
  let ended :=
    (storedAnswers reply).run
      (OrderManager.Full.finalizeOrder
        (failed o reason (reply n (.sys .utcNow)))) (n + 1)
  have hValue : ended.value = some (.ok ()) := value_finalizeOrder _ _
  refine ⟨ended.next, congrArg (List.cons _) ?_⟩
  refine (Oracle.ops_bind_some _ hValue).trans ?_
  refine congrArg (List.append _) ?_
  exact Oracle.ops_map
    (fun _ => (.error raised : Except OrderError Unit)) afterwards
    ended.next

theorem ops_failOrder
    (o : Order)
    (reason : String)
    (n : Nat) :
    (storedAnswers reply).ops (OrderManager.failOrder o reason) n =
      .sys .utcNow ::
        (storedAnswers reply).ops
          (OrderManager.finalizeOrderMinimal
            (failed o reason (reply n (.sys .utcNow)))) (n + 1) :=
  rfl

/- A rejection the first manager alone counts. -/
theorem not_alike_count
    {row' : OrderRow} {c : Counter} :
    ¬Alike row row' [.metric (.count c)] [] := by
  intro hAlike
  have hCounts := congrFun (congrArg PassReport.metrics hAlike) (.count c)
  simp [passReport] at hCounts

/- Different reasons are filed as different orders. -/
theorem not_alike_reasons
    {row' : OrderRow} {v v' : Order} {n n' : Nat}
    (hDiffer : v ≠ v')
    (hStatus : v.status = .failed)
    (hStatus' : v'.status = .failed) :
    ¬Alike row row'
      ((storedAnswers reply).ops (OrderManager.Full.finalizeOrder v) n)
      ((storedAnswers reply).ops
        (OrderManager.finalizeOrderMinimal v') n') := by
  intro hAlike
  rw [ops_finalizeOrder, ops_finalizeOrderMinimal] at hAlike
  have hHistory := congrArg PassReport.history hAlike
  simp [passReport, tradeOps, leaving, hStatus, hStatus', Op.files]
    at hHistory
  exact hDiffer (List.cons.inj hHistory).1

/- Only the first manager counts an order as rejected. -/
theorem not_alike_refused
    {o : Order}
    (reason : String)
    (raised : OrderError)
    (n : Nat) :
    ¬Alike row row
      ((storedAnswers reply).ops
        (OrderManager.Full.failOrder o reason (Do.count .ordersRejected)
          raised) n)
      ((storedAnswers reply).ops (OrderManager.failOrder o reason) n) := by
  rcases ops_full_failOrder o reason (Do.count .ordersRejected) raised n
    with ⟨n', hOps⟩
  rw [hOps, ops_failOrder, alike_cons rfl, alike_finalize_append]
  rintro ⟨_, hCount⟩
  exact not_alike_count hCount

theorem invalidMint_ne
    (detail : String) :
    "Invalid mint: " ++ detail ≠ "Invalid mint address" := by
  intro hEq
  have hChars := congrArg (fun s => (s.toList.drop 12).head?) hEq
  simp at hChars

/- The two managers file different reasons for a mint that is none. -/
theorem not_alike_mint
    (parseError : String → String)
    (o : Order)
    (raised : OrderError)
    (n : Nat) :
    ¬Alike row row
      ((storedAnswers reply).ops
        (OrderManager.Full.failOrder o
          ("Invalid mint: " ++ parseError o.mint) (pure ()) raised) n)
      ((storedAnswers reply).ops
        (OrderManager.failOrder o "Invalid mint address") n) := by
  rcases ops_full_failOrder o ("Invalid mint: " ++ parseError o.mint)
    (pure ()) raised n with ⟨n', hOps⟩
  rw [hOps, ops_failOrder, alike_cons rfl, Prog.pure_eq,
    Oracle.ops_done, List.append_nil]
  refine not_alike_reasons (fun hSame => ?_) rfl rfl
  have hReasons := Option.some.inj (congrArg Order.error hSame)
  exact invalidMint_ne _ hReasons

/- From the gate on. -/
theorem alike_gateAndExecute
    (o : Order)
    (n : Nat) :
    Alike row row
        ((storedAnswers reply).ops
          (OrderManager.Full.gateAndExecute om mint o) n)
        ((storedAnswers reply).ops (om.gateAndExecute mint o) n) ↔
      GatesAlike om mint row (storedAnswers reply) o n := by
  have hKeeps :
      ∀ op ∈ (storedAnswers reply).ops (om.gate mint o) n,
        op.keepsRows = true :=
    Oracle.ops_always (keepsRows_gate o) n
  rw [full_gateAndExecute_eq, gateAndExecute_eq]
  unfold GatesAlike
  dsimp only
  cases hValue : ((storedAnswers reply).run (om.gate mint o) n).value with
  | none =>
      rw [Oracle.ops_bind_none _ hValue, Oracle.ops_bind_none _ hValue,
        alike_self hKeeps, alike_nil]
      exact iff_of_true ⟨rfl, rfl⟩ trivial
  | some gated =>
      rcases gated with ⟨snapshot, decision⟩
      rw [Oracle.ops_bind_some _ hValue, Oracle.ops_bind_some _ hValue,
        alike_append hKeeps]
      dsimp only
      split
      · rename_i hAllow
        rw [alike_executeApproved]
        exact (and_iff_right hAllow).symm
      · rename_i hRefused
        exact iff_of_false (not_alike_refused _ _ _)
          fun hAlike => hRefused hAlike.1

/-
  The two managers' passes agree exactly if the order takes a
  course on which they meet.
-/
theorem samePass_iff
    (om : OrderManager)
    (parseError : String → String)
    (row : OrderRow)
    (o : Order)
    (reply : Nat → (op : Op) → op.Resp) :
    SamePass om parseError row o reply ↔ PathsMeet om row o reply := by
  unfold SamePass PathsMeet OrderManager.Full.processOrder
    OrderManager.processOrder
  simp only [Prog.act_bind, Prog.done_bind, Oracle.ops_act]
  rw [alike_cons rfl, alike_cons rfl, alike_cons rfl]
  cases om.pubkeyFromStr o.mint with
  | none => exact iff_false_intro (not_alike_mint parseError _ _ _)
  | some mint => exact alike_gateAndExecute _ 3

end Passes

------------------------------------------------------------
-- A Bundle that Fails Over
------------------------------------------------------------

/- No curve, no bundle taken; the node confirms what it is sent. -/
def failoverReply : Nat → (op : Op) → op.Resp
  | _, .engine op =>
      match op with
      | .loadAutoPaused => false
      | .isAutoPaused => false
      | .storeAutoPaused _ => ()
      | .swapAutoPaused _ => false
      | .storeNeedsDbPause _ => ()
      | .swapNeedsDbPause _ => false
      | .loadConsecutiveRejects => 0
      | .storeConsecutiveRejects _ => ()
      | .fetchAddConsecutiveRejects _ => 0
      | .emit _ => ()
  | _, .db op =>
      match op with
      | .getWalletStatus => some .enabled
      | .updateRegistryStatus _ => .ok ()
      | .updateConfigStatus _ => .ok ()
      | .upsertWalletAlert _ => .ok ()
      | .insertOrder _ => .ok ()
      | .updateOrder _ => .ok ()
      | .insertTrade _ => .ok ()
      | .getConfigValue _ => none
  | _, .map op =>
      match op with
      | .activeInsert _ => ()
      | .activeValues => []
      | .activeLock => ()
      | .activeRemove _ => none
      | .activeUnlock => ()
      | .pendingPush _ _ => true
      | .pendingRetain _ => false
      | .historyInsert _ => ()
  | _, .chan op =>
      match op with
      | .orderSend _ => true
      | .eventSend _ => ()
  | _, .metric _ => ()
  | _, .chain op =>
      match op with
      | .analyzeSandwichRisk _ _ => 0
      | .getBondingCurveParams _ => .error "no curve"
      | .getClient => .ok ()
      | .getLatestBlockhash => .ok 0
      | .sendAndConfirmTransaction _ => .ok "signature"
      | .chooseTipAccount => none
      | .simulateTransaction _ => .ok ()
      | .sendBundle _ => .error "rejected"
      | .getBundleStatus _ => .error "no bundle"
  | _, .sys op =>
      match op with
      | .newUuid => "a"
      | .utcNow => (0 : Nat)
      | .sleep _ => ()
      | .timer => false
      | .spawnPauseWallet _ _ => ()

/- A manager with a bundle endpoint. -/
def failoverManager : OrderManager :=
  { sampleManager with mevEnabled := true, jitoClient := some ⟨none⟩ }

/- An order with a bound of its own, above the computed one. -/
def failoverOrder : Order :=
  { sampleOrder "a" 1000000 with maxCost := some 2000000 }

/-
  After its bundles have failed, the first manager sends the
  trade with the computed bound of 1 010 000 lamports, the
  second with the order's own of 2 000 000.
-/
theorem not_samePass_failover :
    ¬SamePass failoverManager id failoverOrder.row failoverOrder
      failoverReply := by
  intro hSame
  have hSubmitted := congrArg PassReport.submitted hSame
  revert hSubmitted
  decide +kernel

end Pumpy
