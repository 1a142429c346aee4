import Pumpy.Engine.Execution
import Pumpy.Engine.Passes

/-
  How a pass ends.  Its exits share a finalizer, and there is
  one that puts the order back into the channel.  The finalizer
  writes to the database before it cleans up in memory, so that
  a failed statement leaves the order in the active map with no
  outcome, whether or not it was executed.

  Key definitions include:
    * `Settled`
    * `Undisturbed`
    * `Exits`

  The main results are `not_settled` and
  `settled_iff_undisturbed`.
-/

------------------------------------------------------------
-- Settled Orders
------------------------------------------------------------

namespace Pumpy

open Interleaving

/- The pass has announced the order's last status, and filed it. -/
structure Filed (v : Order) (h : List OmCall) : Prop where
  terminal : v.status = .executed ∨ v.status = .failed
  announced : ⟨.chan (.eventSend v.event), ()⟩ ∈ h
  filed : ⟨.map (.historyInsert v), ()⟩ ∈ h

/- The call takes one off the gauge of active orders. -/
def takesOffGauge (call : OmCall) : Bool :=
  call.1 = .metric (.dec .activeOrders)

/-
  A pass of `o` that has returned after the calls `h`, in the
  state `s`, has settled its order.
-/
structure Settled
    (om : OrderManager)
    (o : Order)
    (h : List OmCall)
    (s : State) : Prop where
  left : ∀ v ∈ s.maps.active, v.id ≠ o.id
  gauge : h.countP takesOffGauge = 1
  outcome :
    (∃ v, v.id = o.id ∧ ⟨.chan (.orderSend v), true⟩ ∈ h) ∨
      ∃ v, v.id = o.id ∧ Filed v h
  remembered :
    ∀ h₁ h₂ v sig,
      h = h₁ ++ h₂ →
        (om.processOrder o).After h₁ (om.settle v (.ok sig)) →
          ∃ v',
            v'.id = o.id ∧ v'.status = .executed ∧
              v'.signature = some sig ∧ Filed v' h

/-
  No statement that updates an order is reported as failed, and
  what is put back into the channel is accepted.
-/
structure Undisturbed (h : List OmCall) : Prop where
  written : ∀ v u, ⟨.db (.updateOrder v), u⟩ ∈ h → u = .ok ()
  accepted : ∀ v b, ⟨.chan (.orderSend v), b⟩ ∈ h → b = true

------------------------------------------------------------
-- Exits
------------------------------------------------------------

/- The operations before the end of a pass. -/
def Op.early : Op → Bool
  | db (.updateOrder _) => false
  | map (.activeRemove _) => false
  | map (.historyInsert _) => false
  | chan (.orderSend _) => false
  | metric (.dec .activeOrders) => false
  | _ => true

theorem Op.early_of_decides
    {op : Op}
    (hDecides : op.decides = true) :
    op.early = true := by
  cases op with
  | engine op => rfl
  | _ => cases hDecides

theorem Op.early_of_raises
    {op : Op}
    (hRaises : op.raises = true) :
    op.early = true := by
  rcases op with op | op | op | op | op | op | op <;> cases op <;>
    first
    | rfl
    | cases hRaises

theorem Op.early_of_executes
    {op : Op}
    (hExecutes : op.executes = true) :
    op.early = true := by
  rcases op with op | op | op | op | op | op | op <;> cases op <;>
    first
    | rfl
    | cases hExecutes

/-
  Where the program returns, it has gone through the finalizer
  or put the order back, and done nothing of it before.
-/
def Exits
    (id : OrderId)
    (p : OmProg (Except OrderError Unit)) : Prop :=
  ∀ h r, p.After h (.done r) →
    ∃ h₁ h₂ v,
      h = h₁ ++ h₂ ∧ (∀ call ∈ h₁, call.1.early = true) ∧
        v.id = id ∧
        ((v.status = .executed ∨ v.status = .failed) ∧
            (OrderManager.finalizeOrderMinimal v).After h₂ (.done r) ∨
          ∃ backoff, (OrderManager.requeue v backoff).After h₂ (.done r))

section Exits

variable {om : OrderManager} {id : OrderId} {o : Order}
variable {mint : Pubkey}

theorem exits_crash :
    Exits id .crash := by
  intro h r hAfter
  cases hAfter

theorem exits_bind
    {α : Type}
    {p : OmProg α}
    {f : α → OmProg (Except OrderError Unit)}
    (hEarly : p.Always (·.early = true))
    (hRest : ∀ a, Exits id (f a)) :
    Exits id (p >>= f) := by
  intro h r hAfter
  rcases Prog.after_bind_done hAfter with
    ⟨h₁, h₂, a, rfl, hFirst, hThen⟩
  rcases hRest a h₂ r hThen with ⟨h₃, h₄, v, rfl, hQuiet, hId, hEnd⟩
  refine ⟨h₁ ++ h₃, h₄, v, (List.append_assoc _ _ _).symm, ?_, hId, hEnd⟩
  intro call hMem
  rcases List.mem_append.mp hMem with hOld | hNew
  · exact hEarly call.1 (hFirst.canExecute hOld)
  · exact hQuiet call hNew

theorem exits_act
    {op : Op}
    {k : op.Resp → OmProg (Except OrderError Unit)}
    (hEarly : op.early = true)
    (hRest : ∀ r, Exits id (k r)) :
    Exits id (.act op k) :=
  exits_bind (p := .act op .done)
    (Prog.always_act hEarly fun _ => Prog.always_done _) hRest

theorem exits_finalizeOrderMinimal
    {v : Order}
    (hId : v.id = id)
    (hStatus : v.status = .executed ∨ v.status = .failed) :
    Exits id (OrderManager.finalizeOrderMinimal v) :=
  fun h _ hAfter =>
    ⟨[], h, v, rfl, fun _ hMem => (by cases hMem), hId,
      .inl ⟨hStatus, hAfter⟩⟩

theorem exits_requeue
    {v : Order}
    (backoff : Duration)
    (hId : v.id = id) :
    Exits id (OrderManager.requeue v backoff) :=
  fun h _ hAfter =>
    ⟨[], h, v, rfl, fun _ hMem => (by cases hMem), hId,
      .inr ⟨backoff, hAfter⟩⟩

theorem exits_failOrder
    (reason : String) :
    Exits o.id (OrderManager.failOrder o reason) :=
  exits_act rfl fun _ => exits_finalizeOrderMinimal rfl (.inr rfl)

theorem exits_settle
    (result : Except String String) :
    Exits o.id (om.settle o result) := by
  unfold OrderManager.settle
  split
  · iterate 3
      refine exits_act rfl fun _ => ?_
    exact exits_finalizeOrderMinimal rfl (.inl rfl)
  · split
    · split
      · exact exits_crash
      · exact exits_requeue _ rfl
    · iterate 2
        refine exits_act rfl fun _ => ?_
      exact exits_finalizeOrderMinimal rfl (.inr rfl)

theorem exits_executeApproved
    (snapshot : Option BondingCurveParams) :
    Exits o.id (om.executeApproved mint o snapshot) := by
  refine exits_act rfl fun updatedAt => ?_
  refine exits_act rfl fun _ => ?_
  dsimp only [Prog.bind]
  split
  · exact exits_crash
  · refine exits_bind ?_ fun result => exits_settle _
    intro op hExecutes
    rcases Prog.canExecute_timeout hExecutes with rfl | hTrade
    · rfl
    · exact Op.early_of_executes (executes_executeTrade _ _ op hTrade)

theorem exits_gateAndExecute :
    Exits o.id (om.gateAndExecute mint o) := by
  iterate 3
    refine exits_act rfl fun _ => ?_
  dsimp only [Prog.bind]
  refine exits_bind
    (decides_evaluate.mono fun _ => Op.early_of_decides) fun decision => ?_
  refine exits_bind
    ((raises_raiseDbPause _ _).mono fun _ => Op.early_of_raises)
    fun _ => ?_
  split
  · exact exits_executeApproved _
  · exact exits_failOrder _

/- Every return of a pass is through one of its exits. -/
theorem exits_processOrder :
    Exits o.id (om.processOrder o) := by
  iterate 3
    refine exits_act rfl fun _ => ?_
  dsimp only [Prog.bind]
  split
  · exact exits_failOrder _
  · exact exits_gateAndExecute

/- The calls of a pass that puts its order back. -/
theorem calls_of_requeue
    {backoff : Duration} {h : List OmCall}
    {r : Except OrderError Unit}
    (hAfter : (OrderManager.requeue o backoff).After h (.done r)) :
    ∃ v b removed,
      v.id = o.id ∧
        h =
          [⟨.sys (.sleep backoff), ()⟩, ⟨.chan (.orderSend v), b⟩,
            ⟨.map .activeLock, ()⟩, ⟨.map (.activeRemove o.id), removed⟩,
            ⟨.metric (.dec .activeOrders), ()⟩,
            ⟨.map .activeUnlock, ()⟩] := by
  rcases hAfter.act_done_inv with ⟨_, h₁, rfl, hSend⟩
  rcases hSend.act_done_inv with ⟨b, h₂, rfl, hLock⟩
  rcases hLock.act_done_inv with ⟨_, h₃, rfl, hRemove⟩
  rcases hRemove.act_done_inv with ⟨removed, h₄, rfl, hDec⟩
  rcases hDec.act_done_inv with ⟨_, h₅, rfl, hUnlock⟩
  rcases hUnlock.act_done_inv with ⟨_, h₆, rfl, hEnd⟩
  rcases hEnd.done_inv with ⟨rfl, _⟩
  exact
    ⟨{ o with retryCount := o.retryCount + 1, status := .pending }, b,
      removed, rfl, rfl⟩

end Exits

------------------------------------------------------------
-- The Calls of a Pass That Returns
------------------------------------------------------------

/- The calls of a pass, by the exit it has taken. -/
inductive ExitCalls (id : OrderId) (h₁ : List OmCall) :
    List OmCall → Prop
  | unwritten
      {v : Order} {e : DbError}
      (hId : v.id = id) :
      ExitCalls id h₁ (h₁ ++ [⟨.db (.updateOrder v), .error e⟩])
  | filed
      {v : Order} {trade : List OmCall} {removed : Option Order}
      (hId : v.id = id)
      (hStatus : v.status = .executed ∨ v.status = .failed)
      (hTrade : ∀ call ∈ trade, call.1 = .db (.insertTrade v)) :
      ExitCalls id h₁
        (h₁ ++ ⟨.db (.updateOrder v), .ok ()⟩ :: trade ++
          [⟨.chan (.eventSend v.event), ()⟩, ⟨.map .activeLock, ()⟩,
            ⟨.map (.activeRemove v.id), removed⟩,
            ⟨.metric (.dec .activeOrders), ()⟩,
            ⟨.map (.historyInsert v), ()⟩, ⟨.map .activeUnlock, ()⟩])
  | requeued
      {v : Order} {b : Bool} {backoff : Duration}
      {removed : Option Order}
      (hId : v.id = id) :
      ExitCalls id h₁
        (h₁ ++
          [⟨.sys (.sleep backoff), ()⟩, ⟨.chan (.orderSend v), b⟩,
            ⟨.map .activeLock, ()⟩, ⟨.map (.activeRemove id), removed⟩,
            ⟨.metric (.dec .activeOrders), ()⟩,
            ⟨.map .activeUnlock, ()⟩])

section Calls

variable {om : OrderManager} {o v : Order} {h h₁ : List OmCall}
variable {r : Except OrderError Unit}

theorem exitCalls_of_processOrder
    (hAfter : (om.processOrder o).After h (.done r)) :
    ∃ h₁,
      (∀ call ∈ h₁, call.1.early = true) ∧ ExitCalls o.id h₁ h := by
  rcases exits_processOrder h r hAfter with
    ⟨h₁, h₂, v, rfl, hEarly, hId, ⟨hStatus, hFinalize⟩ | ⟨backoff, hBack⟩⟩
  · rcases calls_of_finalizeOrderMinimal hFinalize with
      ⟨e, _, rfl⟩ | ⟨trade, h', rfl, hTrade, hLeave⟩
    · exact ⟨h₁, hEarly, .unwritten hId⟩
    · rcases calls_of_leave hLeave with ⟨removed, _, rfl⟩
      refine ⟨h₁, hEarly, ?_⟩
      rw [← List.append_assoc]
      exact .filed hId hStatus hTrade
  · rcases calls_of_requeue hBack with ⟨v', b, removed, hId', rfl⟩
    rw [hId]
    exact ⟨h₁, hEarly, .requeued (hId'.trans hId)⟩

theorem not_mem_of_early
    (call : OmCall)
    (hEarly : ∀ call ∈ h₁, call.1.early = true)
    (hLate : call.1.early = false) :
    call ∉ h₁ := by
  intro hMem
  rw [hEarly call hMem] at hLate
  cases hLate

/- Nothing is taken off the gauge before the end. -/
theorem countP_of_early
    (hEarly : ∀ call ∈ h₁, call.1.early = true) :
    h₁.countP takesOffGauge = 0 := by
  rw [List.countP_eq_zero]
  intro call hMem hTakes
  have hDec : call.1 = .metric (.dec .activeOrders) :=
    of_decide_eq_true hTakes
  refine not_mem_of_early call hEarly ?_ hMem
  rw [hDec]
  rfl

/- Storing a trade is none of what settling an order takes. -/
theorem countP_of_trade
    {trade : List OmCall}
    (hTrade : ∀ call ∈ trade, call.1 = .db (.insertTrade v)) :
    trade.countP takesOffGauge = 0 := by
  rw [List.countP_eq_zero]
  intro call hMem hTakes
  have hDec : call.1 = .metric (.dec .activeOrders) :=
    of_decide_eq_true hTakes
  rw [hTrade call hMem] at hDec
  cases hDec

/- Whether the finalizer has cleaned up, the gauge tells. -/
theorem ExitCalls.gauge
    (hEarly : ∀ call ∈ h₁, call.1.early = true)
    (hExit : ExitCalls o.id h₁ h) :
    h.countP takesOffGauge = 1 ∨
      ∃ v e, h = h₁ ++ [⟨.db (.updateOrder v), .error e⟩] ∧
        h.countP takesOffGauge = 0 := by
  cases hExit with
  | unwritten hId =>
      refine .inr ⟨_, _, rfl, ?_⟩
      rw [List.countP_append, countP_of_early hEarly]
      rfl
  | filed hId hStatus hTrade =>
      left
      rw [List.countP_append, List.countP_append,
        countP_of_early hEarly, List.countP_cons,
        countP_of_trade hTrade]
      rfl
  | requeued hId =>
      left
      rw [List.countP_append, countP_of_early hEarly]
      rfl

/- The finalizer's calls, but for the trade it stores. -/
theorem mem_of_filed
    {trade : List OmCall} {removed : Option Order} {call : OmCall}
    (hEarly : ∀ call ∈ h₁, call.1.early = true)
    (hTrade : ∀ call ∈ trade, call.1 = .db (.insertTrade v))
    (hLate : call.1.early = false)
    (hMem :
      call ∈ h₁ ++ ⟨.db (.updateOrder v), .ok ()⟩ :: trade ++
        [⟨.chan (.eventSend v.event), ()⟩, ⟨.map .activeLock, ()⟩,
          ⟨.map (.activeRemove v.id), removed⟩,
          ⟨.metric (.dec .activeOrders), ()⟩,
          ⟨.map (.historyInsert v), ()⟩, ⟨.map .activeUnlock, ()⟩]) :
    call = ⟨.db (.updateOrder v), .ok ()⟩ ∨
      call = ⟨.map (.activeRemove v.id), removed⟩ ∨
        call = ⟨.metric (.dec .activeOrders), ()⟩ ∨
          call = ⟨.map (.historyInsert v), ()⟩ := by
  have hStored : call ∉ trade := by
    intro hIn
    rw [hTrade call hIn] at hLate
    cases hLate
  have hUnlisted :
      call ≠ ⟨.chan (.eventSend v.event), ()⟩ ∧
        call ≠ ⟨.map .activeLock, ()⟩ ∧
          call ≠ ⟨.map .activeUnlock, ()⟩ := by
    refine ⟨?_, ?_, ?_⟩ <;>
      · rintro rfl
        cases hLate
  simp only [List.mem_append, List.mem_cons, List.not_mem_nil,
    or_false, not_mem_of_early _ hEarly hLate, hStored, hUnlisted,
    false_or] at hMem
  exact hMem

/- What a pass has filed is its order, with a last status. -/
theorem ExitCalls.filed_order
    (hEarly : ∀ call ∈ h₁, call.1.early = true)
    (hExit : ExitCalls o.id h₁ h)
    (hMem : ⟨.map (.historyInsert v), ()⟩ ∈ h) :
    v.id = o.id := by
  have hNot :=
    not_mem_of_early ⟨.map (.historyInsert v), ()⟩ hEarly rfl
  cases hExit with
  | unwritten hId => simp [hNot] at hMem
  | filed hId hStatus hTrade =>
      rcases mem_of_filed hEarly hTrade rfl hMem with
        hEq | hEq | hEq | hEq
      · cases hEq
      · cases hEq
      · cases hEq
      · cases hEq
        exact hId
  | requeued hId => simp [hNot] at hMem

/- A pass that has settled its order was not disturbed. -/
theorem undisturbed_of_settled
    {s : State}
    (hEarly : ∀ call ∈ h₁, call.1.early = true)
    (hExit : ExitCalls o.id h₁ h)
    (hSettled : Settled om o h s) :
    Undisturbed h := by
  cases hExit with
  | unwritten hId =>
      have hGauge := hSettled.gauge
      rw [List.countP_append, countP_of_early hEarly] at hGauge
      cases hGauge
  | filed hId hStatus hTrade =>
      constructor
      · intro v' u hMem
        rcases mem_of_filed hEarly hTrade rfl hMem with
          hEq | hEq | hEq | hEq <;> cases hEq
        rfl
      · intro v' b hMem
        rcases mem_of_filed hEarly hTrade rfl hMem with
          hEq | hEq | hEq | hEq <;> cases hEq
  | @requeued v b backoff removed hId =>
      constructor
      · intro v' u hMem
        have hNot :=
          not_mem_of_early ⟨.db (.updateOrder v'), u⟩ hEarly rfl
        simp [hNot] at hMem
      · have hSends :
            ∀ v' b', (⟨.chan (.orderSend v'), b'⟩ : OmCall) ∈
              h₁ ++
                [⟨.sys (.sleep backoff), ()⟩, ⟨.chan (.orderSend v), b⟩,
                  ⟨.map .activeLock, ()⟩,
                  ⟨.map (.activeRemove o.id), removed⟩,
                  ⟨.metric (.dec .activeOrders), ()⟩,
                  ⟨.map .activeUnlock, ()⟩] → b' = b := by
          intro v' b' hMem
          have hNot :=
            not_mem_of_early ⟨.chan (.orderSend v'), b'⟩ hEarly rfl
          simp only [List.mem_append, hNot, false_or] at hMem
          simp at hMem
          exact hMem.2
        intro v' b' hMem
        rw [hSends v' b' hMem]
        rcases hSettled.outcome with ⟨w, _, hSent⟩ | ⟨w, _, hFiled⟩
        · exact (hSends w true hSent).symm
        · have hNot :=
            not_mem_of_early ⟨.map (.historyInsert w), ()⟩ hEarly rfl
          have hIn := hFiled.filed
          simp [hNot] at hIn

/- An execution that returned a signature is filed with it. -/
theorem remembered_of_undisturbed
    {h₂ : List OmCall} {sig : String}
    (hAfter : (om.processOrder o).After (h ++ h₂) (.done r))
    (hSigned : (om.processOrder o).After h (om.settle v (.ok sig)))
    (hQuiet : Undisturbed (h ++ h₂)) :
    ∃ v',
      v'.id = o.id ∧ v'.status = .executed ∧
        v'.signature = some sig ∧ Filed v' (h ++ h₂) := by
  have hEnd := hSigned.rest hAfter
  rcases hEnd.act_done_inv with ⟨executedAt, h₃, rfl, hUpdated⟩
  rcases hUpdated.act_done_inv with ⟨updatedAt, h₄, rfl, hCount⟩
  rcases hCount.act_done_inv with ⟨u, h₅, rfl, hFinalize⟩
  have hTail :
      ∀ call : OmCall, call ∈ h₅ →
        call ∈ h ++ ⟨.sys .utcNow, executedAt⟩ ::
          ⟨.sys .utcNow, updatedAt⟩ ::
            ⟨.metric (.count .ordersExecuted), u⟩ :: h₅ := by
    intro call hMem
    simp [hMem]
  rcases filed_of_finalizeOrderMinimal hFinalize
      fun u hMem => hQuiet.written _ u (hTail _ hMem) with
    ⟨_, hEvent, hFiled⟩
  rcases exitCalls_of_processOrder hAfter with ⟨h₁, hEarly, hExit⟩
  refine
    ⟨{ v with
        status := .executed
        executedAt := some executedAt
        signature := some sig
        updatedAt := updatedAt },
      ?_, rfl, rfl, .inl rfl, ?_, ?_⟩
  · exact hExit.filed_order (v := { v with
        status := .executed
        executedAt := some executedAt
        signature := some sig
        updatedAt := updatedAt }) hEarly (hTail _ hFiled)
  · exact hTail _ hEvent
  · exact hTail _ hFiled

/- A pass that was not disturbed has settled its order. -/
theorem settled_of_undisturbed
    {s : State}
    (hAfter : (om.processOrder o).After h (.done r))
    (hLeft : ∀ v ∈ s.maps.active, v.id ≠ o.id)
    (hQuiet : Undisturbed h) :
    Settled om o h s := by
  rcases exitCalls_of_processOrder hAfter with ⟨h₁, hEarly, hExit⟩
  refine ⟨hLeft, ?_, ?_, ?_⟩
  · rcases hExit.gauge hEarly with hOne | ⟨v, e, rfl, _⟩
    · exact hOne
    · have hOk := hQuiet.written v (.error e) (by simp)
      cases hOk
  · cases hExit with
    | @unwritten v e hId =>
        have hOk := hQuiet.written v (.error e) (by simp)
        cases hOk
    | @filed v trade removed hId hStatus hTrade =>
        exact .inr ⟨v, hId, hStatus, by simp, by simp⟩
    | @requeued v b backoff removed hId =>
        have hSent := hQuiet.accepted v b (by simp)
        subst hSent
        exact .inl ⟨v, hId, by simp⟩
  · rintro h₃ h₄ v sig rfl hSigned
    exact remembered_of_undisturbed hAfter hSigned hQuiet

/- A pass that was not disturbed ends by letting go of the lock. -/
theorem last_of_undisturbed
    (hAfter : (om.processOrder o).After h (.done r))
    (hQuiet : Undisturbed h) :
    h.getLast? = some ⟨.map .activeUnlock, ()⟩ := by
  rcases exitCalls_of_processOrder hAfter with ⟨h₁, _, hExit⟩
  cases hExit with
  | @unwritten v e hId =>
      have hOk := hQuiet.written v (.error e) (by simp)
      cases hOk
  | filed hId hStatus hTrade =>
      rw [List.getLast?_append_of_ne_nil _ (by simp)]
      rfl
  | requeued hId =>
      rw [List.getLast?_append_of_ne_nil _ (by simp)]
      rfl

end Calls

------------------------------------------------------------
-- The Active Map at the End of a Pass
------------------------------------------------------------

/- Once a pass has taken its entry out, none is there. -/
def Emptied
    (s : State)
    (shs : List (Shadow Root Phase)) : Prop :=
  ∀ (tid : Nat) root o,
    shs[tid]? = some ⟨root, some (.exiting o .removed)⟩ →
      ∀ v ∈ s.maps.active, v.id ≠ o.id

section Emptied

variable {om : OrderManager} {g g' : Phase} {op : Op} {r : op.Resp}
variable {s s' : State} {shs : List (Shadow Root Phase)}
variable {tid : Nat} {root : Root} {env : Outcome} {o : Order}

/- How a pass comes to have taken its entry out. -/
theorem OrderManager.Move.removed
    (hMove : om.Move g op r g')
    (hRemoved : g' = .exiting o .removed) :
    (g = .exiting o .removed ∧ op.inserts = none) ∨
      op = .map (.activeRemove o.id) := by
  cases hMove with
  | idle hNeutral hOpen =>
      exact .inl ⟨hRemoved, (Op.inert_of_neutral hNeutral).inserts⟩
  | announce hOp hMay =>
      exact .inl ⟨hRemoved, (Op.inert_of_announces hOp).inserts⟩
  | exitRemove hId =>
      cases hRemoved
      rw [hId]
      exact .inr rfl
  | @emit gate o active stage rec hId hMay =>
      cases gate <;> cases hRemoved
  | @take gate o active d b =>
      cases b with
      | true => cases hRemoved
      | false =>
          cases gate <;> cases hAllow : d.isAllow <;>
            simp [Phase.settled, hAllow] at hRemoved
  | @issue gate o active d reason n =>
      cases gate <;> cases hAllow : d.isAllow <;>
        simp [Phase.settled, hAllow] at hRemoved
  | check => split at hRemoved <;> cases hRemoved
  | status => split at hRemoved <;> cases hRemoved
  | store hId hStatus => split at hRemoved <;> cases hRemoved
  | push hId => split at hRemoved <;> cases hRemoved
  | close hId hMay => split at hRemoved <;> cases hRemoved
  | _ => cases hRemoved

theorem Emptied.afterOp
    (hEmptied : Emptied s shs)
    (hHeld : LockHeld s shs)
    (hPhase : shs[tid]? = some ⟨root, some g⟩)
    (hMove : om.Move g op r g')
    (hExec : State.exec op env s = some (r, s')) :
    Emptied s' (shadowsAfter om shs tid root g' op) := by
  intro tid' root' o hAt v hMem
  have hOld :
      op.inserts = none →
        (∀ v ∈ s.maps.active, v.id ≠ o.id) → v.id ≠ o.id := by
    intro hNone hClear
    rcases exec_mem_active hExec hMem with hInserts | ⟨hWas, _⟩
    · rw [hNone] at hInserts
      cases hInserts
    · exact hClear v hWas
  rcases Machine.getElem?_set_append hAt with
    ⟨rfl, hSame⟩ | ⟨hNe, hOther⟩ | ⟨_, hNew⟩
  · cases hSame
    rcases OrderManager.Move.removed hMove rfl with ⟨rfl, hNone⟩ | rfl
    · exact hOld hNone (hEmptied _ _ o hPhase)
    · rw [(exec_activeRemove hExec).2] at hMem
      exact of_decide_eq_true (List.mem_filter.mp hMem).2
  · have hLocked := hHeld.of_locker hOther rfl
    refine hOld ?_ (hEmptied _ _ o hOther)
    cases op with
    | map op =>
        cases op with
        | activeInsert o' =>
            rw [(exec_activeInsert hExec).1] at hLocked
            cases hLocked
        | _ => rfl
    | _ => rfl
  · rcases List.mem_map.mp hNew with ⟨root₁, _, hStart⟩
    cases root₁ <;> cases hStart

theorem Emptied.afterExt
    {e : Ext}
    (hEmptied : Emptied s shs)
    (hExt : Ext.exec e s = some s') :
    Emptied s' (shadowsAfterExt om shs e) := by
  by_cases hRestart : e = .restart
  · subst hRestart
    intro tid' root' o _ v hMem
    cases hExt
    cases hMem
  · intro tid' root' o hAt v hMem
    rw [active_ext hRestart hExt] at hMem
    rw [shadowsAfterExt_of_ne_restart om shs hRestart] at hAt
    by_cases hLt : tid' < shs.length
    · rw [List.getElem?_append_left hLt] at hAt
      exact hEmptied tid' root' o hAt v hMem
    · rw [List.getElem?_append_right (Nat.le_of_not_lt hLt)] at hAt
      rcases List.mem_map.mp (List.mem_of_getElem? hAt) with
        ⟨root₁, _, hStart⟩
      cases root₁ <;> cases hStart

theorem emptied_of_shadowRun
    {C : OmCond} {db : Database} {chain : Chain}
    {seenIds : List OrderId} {tr : List OmEvent}
    (hRun :
      OmShadowRun om C (State.boot db chain seenIds) tr s shs) :
    Emptied s shs := by
  induction hRun with
  | nil =>
      intro tid root o hAt
      cases hAt
  | snoc hRun _ hStep ih =>
      cases hStep with
      | op hPhase hMove hExec =>
          exact ih.afterOp (lockHeld_of_shadowRun hRun) hPhase hMove
            hExec
      | ext hExt => exact ih.afterExt hExt

end Emptied

------------------------------------------------------------
-- Passes That Settle Their Orders
------------------------------------------------------------

/- The pass of `o` has returned, by the last event of the trace. -/
structure Returned
    (tr : List OmEvent)
    (c : OmConfig)
    (tid : Nat)
    (o : Order)
    (r : Except OrderError Unit) : Prop where
  last : ∃ op env x, tr.getLast? = some (.op tid op env x)
  task :
    c.tasks[tid]? =
      some ⟨.processOrder o, some (.done (.processed r))⟩

section Returned

variable {om : OrderManager} {C : OmCond}
variable {db : Database} {chain : Chain} {seenIds : List OrderId}
variable {tr : List OmEvent} {c : OmConfig} {tid : Nat} {o : Order}
variable {r : Except OrderError Unit}

/- The calls of a pass that has returned. -/
theorem Returned.after
    {s₀ : State}
    (hReturned : Returned tr c tid o r)
    (hRun : Machine.Run om.machine C s₀ tr c) :
    (om.processOrder o).After (Machine.calls tr tid) (.done r) := by
  rcases Prog.after_map_done (hRun.after_calls hReturned.task) with
    ⟨r', hEq, hFirst⟩
  cases hEq
  exact hFirst

/- A pass that was not disturbed leaves no entry of its order. -/
theorem left_of_undisturbed
    (hReturned : Returned tr c tid o r)
    (hRun :
      Machine.Run om.machine C (State.boot db chain seenIds) tr c)
    (hQuiet : Undisturbed (Machine.calls tr tid)) :
    ∀ v ∈ c.state.maps.active, v.id ≠ o.id := by
  have hEnd := last_of_undisturbed (hReturned.after hRun) hQuiet
  rcases hReturned.last with ⟨op, env, x, hLast⟩
  have hSplit : tr = tr.dropLast ++ .op tid op env x :: [] :=
    (List.dropLast_append_getLast? _ hLast).symm
  have hOp : (⟨op, x⟩ : OmCall) = ⟨.map .activeUnlock, ()⟩ := by
    rw [hSplit, Machine.calls_append_singleton_self,
      List.getLast?_concat] at hEnd
    exact Option.some.inj hEnd
  cases hOp
  rcases Protocol.trackedRun_of_run om.follows hRun with ⟨shs, hTracked⟩
  rcases hTracked.at_event hSplit with
    ⟨c₁, shs₁, c₂, shs₂, hPre, _, hStep, hShadow⟩
  have hSame : c₂ = c := by
    have hRun' := hRun
    rw [hSplit] at hRun'
    rcases hRun'.snoc_inv with ⟨c₀, hEarly, _, hLastStep⟩
    rw [hEarly.unique hPre.run] at hLastStep
    exact hStep.unique hLastStep
  subst hSame
  cases hShadow with
  | @op _ _ _ root g g' _ _ _ hPhase hMove hExec =>
      have hRoot := root_of_shadow hPre.shadowRun hSplit hPhase
      rw [← hRun.roots_eq, List.getElem?_map, hReturned.task] at hRoot
      cases hRoot
      have hHistory := history_of_shadowRun hPre.shadowRun hPhase
      cases hMove with
      | idle hNeutral hOpen => cases hNeutral
      | announce hOp hMay => cases hOp
      | cancelUnlock => cases hHistory
      | exitUnlock =>
          rcases hHistory with ⟨o', hPass, rfl⟩
          cases hPass
          intro v hMem
          have hUnlock :
              State.exec (.map .activeUnlock) env c₁.state =
                some ((), c₂.state) :=
            hExec
          have hWas : v ∈ c₁.state.maps.active := by
            rw [← exec_active rfl rfl hUnlock]
            exact hMem
          exact emptied_of_shadowRun hPre.shadowRun _ _ _ hPhase v hWas

end Returned

/-
  In every run, a pass that has returned has settled its order
  exactly if its statements succeeded and what it put back into
  the channel was accepted.
-/
theorem settled_iff_undisturbed
    (om : OrderManager)
    (db : Database)
    (chain : Chain)
    (seenIds : List OrderId)
    {tr : List OmEvent}
    {c : OmConfig}
    {tid : Nat}
    {o : Order}
    {r : Except OrderError Unit}
    (hRun :
      Machine.Run om.machine Machine.anyStep
        (State.boot db chain seenIds) tr c)
    (hReturned : Returned tr c tid o r) :
    Settled om o (Machine.calls tr tid) c.state ↔
      Undisturbed (Machine.calls tr tid) := by
  have hAfter := hReturned.after hRun
  constructor
  · intro hSettled
    rcases exitCalls_of_processOrder hAfter with ⟨h₁, hEarly, hExit⟩
    exact undisturbed_of_settled hEarly hExit hSettled
  · intro hQuiet
    exact settled_of_undisturbed hAfter
      (left_of_undisturbed hReturned hRun hQuiet) hQuiet

/- The task has just returned from a pass. -/
def hasReturned (tr : List OmEvent) (c : OmConfig) (tid : Nat) : Bool :=
  (match tr.getLast? with
    | some (.op tid' _ _ _) => tid' = tid
    | _ => false) &&
    match c.tasks[tid]? with
    | some ⟨.processOrder _, some (.done (.processed _))⟩ => true
    | _ => false

theorem returned_of_hasReturned
    {tr : List OmEvent} {c : OmConfig} {tid : Nat}
    (hHas : hasReturned tr c tid = true) :
    ∃ o r, Returned tr c tid o r := by
  unfold hasReturned at hHas
  rw [Bool.and_eq_true] at hHas
  rcases hHas with ⟨hLast, hTask⟩
  split at hLast
  · rename_i tid' op env x hEvent
    have hTid : tid' = tid := of_decide_eq_true hLast
    subst hTid
    split at hTask
    · rename_i o r hDone
      exact ⟨o, r, ⟨op, env, x, hEvent⟩, hDone⟩
    · cases hTask
  · cases hLast

/- Nothing of what disturbs a pass is among the calls. -/
def quiet (h : List OmCall) : Bool :=
  h.all fun call =>
    match call with
    | ⟨.db (.updateOrder _), u⟩ => u.isOk
    | ⟨.chan (.orderSend _), b⟩ => b
    | _ => true

theorem undisturbed_of_quiet
    {h : List OmCall}
    (hQuiet : quiet h = true) :
    Undisturbed h := by
  constructor
  · intro v u hMem
    have hOk : u.isOk = true := List.all_eq_true.mp hQuiet _ hMem
    cases u with
    | error e => cases hOk
    | ok u => rfl
  · intro v b hMem
    exact List.all_eq_true.mp hQuiet _ hMem

/- The sample order is executed, and the trade has its signature. -/
def signedSchedule : List (Machine.Choice Outcome Ext) :=
  [.ext (.submitOrder (sampleOrder "" 1000))] ++
    acceptSteps 0 "a" [] ++
    [.ext (.recv (sampleOrder "a" 1000))] ++
    gateSteps 1
      [{ sampleOrder "a" 1000 with status := .validating }] ++
    steps 1
      [.time 0, .plain, .unit (.ok ()), .deadline false,
        .blockhash (.ok 7), .deadline false,
        .submit true (.ok "signature"), .deadline false,
        .time 1, .time 2, .plain]

/- The statement that would tell of the execution fails. -/
theorem not_settled :
    ¬∀ (om : OrderManager) (db : Database) (chain : Chain)
      (seenIds : List OrderId) (tr : List OmEvent) (c : OmConfig)
      (tid : Nat) (o : Order) (r : Except OrderError Unit),
      Machine.Run om.machine Machine.anyStep
          (State.boot db chain seenIds) tr c →
        Returned tr c tid o r →
          Settled om o (Machine.calls tr tid) c.state := by
  intro hAll
  have hPlay :=
    Machine.exists_run_of_play sampleManager.machine
      (sampleState .enabled)
      (signedSchedule ++ steps 1 [.stmt (.failed ⟨"connection lost"⟩)])
      (fun tr c =>
        hasReturned tr c 1 &&
          decide ((Machine.calls tr 1).countP takesOffGauge = 0))
      (by decide +kernel)
  rcases hPlay with ⟨tr, c, hRun, hShown⟩
  simp only [Bool.and_eq_true, decide_eq_true_eq] at hShown
  rcases returned_of_hasReturned hShown.1 with ⟨o, r, hReturned⟩
  have hGauge := (hAll _ _ _ _ tr c 1 o r hRun hReturned).gauge
  rw [hShown.2] at hGauge
  cases hGauge

/- With a statement that succeeds, the same execution is settled. -/
theorem exists_settled :
    ∃ (tr : List OmEvent) (c : OmConfig) (o : Order),
      c.state.maps.active = [] ∧
        c.state.maps.history.map (fun v => (v.id, v.signature)) =
          [("a", some "signature")] ∧
        Settled sampleManager o (Machine.calls tr 1) c.state := by
  have hPlay :=
    Machine.exists_run_of_play sampleManager.machine
      (sampleState .enabled)
      (signedSchedule ++
        steps 1
          [.stmt .done, .stmt .done, .plain, .plain, .plain, .plain,
            .plain, .plain])
      (fun tr c =>
        hasReturned tr c 1 && quiet (Machine.calls tr 1) &&
          decide (c.state.maps.active = [] ∧
            c.state.maps.history.map (fun v => (v.id, v.signature)) =
              [("a", some "signature")]))
      (by decide +kernel)
  rcases hPlay with ⟨tr, c, hRun, hShown⟩
  simp only [Bool.and_eq_true, decide_eq_true_eq] at hShown
  rcases hShown with ⟨⟨hHas, hQuiet⟩, hActive, hHistory⟩
  rcases returned_of_hasReturned hHas with ⟨o, r, hReturned⟩
  exact ⟨tr, c, o, hActive, hHistory,
    (settled_iff_undisturbed sampleManager _ _ _ hRun hReturned).mpr
      (undisturbed_of_quiet hQuiet)⟩

end Pumpy
