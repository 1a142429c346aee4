import Pumpy.Engine.NoTrace
import Pumpy.Engine.Passes

/-
  The pending orders against the orders that wait: an order
  waits from the push that accepts it until a cancel names it,
  the worker takes it off the channel, or its send fails.

  Passes do not touch the pending orders, so an order stays
  there when it is picked up.

  Key definitions include:
    * `waiting`
    * `QueueExact`
    * `LeavesInStep`

  The main results are `pending_step`, what one step does to
  both, and `queueExact_iff`.
-/

------------------------------------------------------------
-- Orders that Wait
------------------------------------------------------------

namespace Pumpy

open Interleaving

/- What one event does to the orders that wait. -/
def waitingAfter (l : List Order) : OmEvent → List Order
  | .op _ (.map (.pendingPush _ o)) _ pushed =>
      if pushed then l ++ [o] else l
  | .op _ (.map (.pendingRetain id)) _ _ => removeById id l
  | .op _ (.chan (.orderSend o)) _ sent =>
      if sent then l else removeById o.id l
  | .ext (.recv o) => removeById o.id l
  | .ext .restart => []
  | _ => l

/- The orders that wait after a trace. -/
def waiting (tr : List OmEvent) : List Order :=
  tr.foldl waitingAfter []

theorem waiting_snoc
    (tr : List OmEvent)
    (e : OmEvent) :
    waiting (tr ++ [e]) = waitingAfter (waiting tr) e := by
  simp [waiting]

/- Taking nothing out is for lists that do not name the order. -/
theorem removeById_eq_self_iff
    {id : OrderId} {l : List Order} :
    removeById id l = l ↔ ∀ x ∈ l, x.id ≠ id := by
  unfold removeById
  rw [List.filter_eq_self]
  simp only [decide_eq_true_eq]

/-
  An order leaves the channel, or is not let in, only if the
  pending orders do not hold it.
-/
def LeavesInStep : OmCond :=
  fun _ s e =>
    match e with
    | .ext (.recv o) => ∀ x ∈ s.maps.pending, x.id ≠ o.id
    | .op _ (.chan (.orderSend o)) _ _ =>
        s.chan.receiverAlive = false →
          ∀ x ∈ s.maps.pending, x.id ≠ o.id
    | _ => True

------------------------------------------------------------
-- One Step
------------------------------------------------------------

section Steps

variable {om : OrderManager} {c c' : OmConfig} {e : OmEvent}

/- A send goes along with the orders that wait if the order is let in. -/
theorem pending_send
    {o : Order} {env : Outcome} {s s' : State} {sent : Bool}
    (hExec :
      State.exec (.chan (.orderSend o)) env s = some (sent, s')) :
    s'.maps.pending =
        (if sent then s.maps.pending
          else removeById o.id s.maps.pending) ↔
      (s.chan.receiverAlive = false →
        ∀ x ∈ s.maps.pending, x.id ≠ o.id) := by
  rcases exec_orderSend hExec with
    ⟨hDead, hSent, hState⟩ | ⟨hAlive, hSent, hState⟩
  · rw [hState, hSent, if_neg (by simp), eq_comm,
      removeById_eq_self_iff]
    exact ⟨fun hNone _ => hNone, fun hCond => hCond hDead⟩
  · rw [hState, hSent, if_pos rfl]
    refine iff_of_true rfl ?_
    intro hDead
    rw [hAlive] at hDead
    cases hDead

/-
  The pending orders go along with the orders that wait in
  exactly the steps that meet the condition.
-/
theorem pending_step
    (tr : List OmEvent)
    (hStep : Machine.Step om.machine c e c') :
    c'.state.maps.pending = waitingAfter c.state.maps.pending e ↔
      LeavesInStep tr c.state e := by
  cases hStep with
  | @op s s' tasks tid root op k env r hTask hExec =>
      have hDone : State.exec op env s = some (r, s') := hExec
      have hOther :
          (∀ max o, op ≠ .map (.pendingPush max o)) →
            (∀ id, op ≠ .map (.pendingRetain id)) →
              s'.maps.pending = s.maps.pending :=
        fun hPush hRetain => exec_pending hPush hRetain hDone
      cases op with
      | map op =>
          cases op with
          | pendingPush max o =>
              rcases exec_pendingPush hDone with
                ⟨_, rfl, hState⟩ | ⟨_, rfl, hState⟩
              · rw [hState]
                exact iff_of_true rfl trivial
              · rw [hState]
                exact iff_of_true rfl trivial
          | pendingRetain id =>
              rw [(exec_pendingRetain hDone).2]
              exact iff_of_true rfl trivial
          | activeInsert o | activeValues | activeLock
          | activeRemove id | activeUnlock | historyInsert o =>
              exact iff_of_true (hOther (by simp) (by simp)) trivial
      | chan op =>
          cases op with
          | orderSend o => exact pending_send hDone
          | eventSend ev =>
              exact iff_of_true (hOther (by simp) (by simp)) trivial
      | engine op | db op | metric op | chain op | sys op =>
          exact iff_of_true (hOther (by simp) (by simp)) trivial
  | @ext s s' tasks e hExt =>
      have hDone : Ext.exec e s = some s' := hExt
      have hOther : e ≠ .restart → s'.maps.pending = s.maps.pending := by
        intro hNe
        rw [active_ext hNe hDone]
      cases e with
      | recv o =>
          have hSame := hOther (by simp)
          show s'.maps.pending = removeById o.id s.maps.pending ↔ _
          rw [hSame, eq_comm]
          exact removeById_eq_self_iff
      | restart =>
          cases hDone
          exact iff_of_true rfl trivial
      | submitOrder o | cancelOrder id | setStatus st
      | closeChannel | land tx =>
          exact iff_of_true (hOther (by simp)) trivial

end Steps

------------------------------------------------------------
-- Whole Runs
------------------------------------------------------------

/- The calls of a submission that finds the queue full. -/
theorem push_of_queueFull
    {om : OrderManager} {o : Order} {h : List OmCall}
    (hAfter :
      (om.submitOrder o).After h (.done (.error .queueFull))) :
    ∃ o',
      ⟨.map (.pendingPush om.config.maxPendingOrders o'), false⟩ ∈
        h := by
  rcases after_submitOrder hAfter with
    ⟨h₁, h₂, rfl, _, ⟨_, reason, hEq⟩ | ⟨o₁, hEnqueue⟩⟩
  · cases hEq
  · rcases after_enqueue hEnqueue with
      ⟨createdAt, updatedAt, o', h₃, rfl, hEnds⟩
    cases hEnds with
    | full =>
        exact ⟨o', List.mem_append_right h₁
          (.tail _ (.tail _ (.tail _ (.head _))))⟩

section Runs

variable {om : OrderManager} {db : Database} {chain : Chain}
variable {seenIds : List OrderId} {tr : List OmEvent} {c : OmConfig}

/-
  In every state the pending orders are the orders that wait,
  and whoever was told that the queue is full found as many
  waiting as there is room for.
-/
structure QueueExact
    (om : OrderManager)
    (s₀ : State)
    (tr : List OmEvent)
    (c : OmConfig) : Prop where
  pending :
    ∀ pre post c',
      tr = pre ++ post →
      Machine.Run om.machine Machine.anyStep s₀ pre c' →
        c'.state.maps.pending = waiting pre
  full :
    ∀ tid o,
      c.tasks[tid]? =
          some ⟨.submitOrder o,
            some (.done (.submitted (.error .queueFull)))⟩ →
        ∃ pre post o' env,
          tr =
              pre ++
                .op tid
                    (.map (.pendingPush om.config.maxPendingOrders o'))
                    env false ::
                  post ∧
            om.config.maxPendingOrders ≤ (waiting pre).length

/- While every step meets the condition, both lists are the same. -/
theorem pending_of_run
    (hRun :
      Machine.Run om.machine LeavesInStep
        (State.boot db chain seenIds) tr c) :
    c.state.maps.pending = waiting tr := by
  induction hRun with
  | nil => rfl
  | @snoc tr c c' e hRun hCond hStep ih =>
      rw [waiting_snoc, ← ih]
      exact (pending_step tr hStep).mpr hCond

/- A submission is told that the queue is full where it is full. -/
theorem full_of_run
    {tid : Nat} {o : Order}
    (hRun :
      Machine.Run om.machine LeavesInStep
        (State.boot db chain seenIds) tr c)
    (hTask :
      c.tasks[tid]? =
        some ⟨.submitOrder o,
          some (.done (.submitted (.error .queueFull)))⟩) :
    ∃ pre post o' env,
      tr =
          pre ++
            .op tid
                (.map (.pendingPush om.config.maxPendingOrders o'))
                env false ::
              post ∧
        om.config.maxPendingOrders ≤ (waiting pre).length := by
  have hSubmitted := after_of_submitted hRun hTask
  rcases push_of_queueFull hSubmitted with ⟨o', hMem⟩
  rcases Machine.mem_calls.mp hMem with ⟨env, hEvent⟩
  rcases List.mem_iff_append.mp hEvent with ⟨pre, post, hSplit⟩
  refine ⟨pre, post, o', env, hSplit, ?_⟩
  rcases hRun.step_at hSplit with ⟨c₀, c₁, hPre, _, hStep⟩
  rw [← pending_of_run hPre]
  cases hStep with
  | op hAt hExec =>
      rcases exec_pendingPush hExec with ⟨hFull, _⟩ | ⟨_, hTrue, _⟩
      · exact hFull
      · cases hTrue

/-
  In a run of an order manager the pending orders are the
  waiting ones throughout exactly if no order leaves the channel
  while they hold it, and none of them is refused by a channel
  that is closed.
-/
theorem queueExact_iff
    (hRun :
      Machine.Run om.machine Machine.anyStep
        (State.boot db chain seenIds) tr c) :
    QueueExact om (State.boot db chain seenIds) tr c ↔
      Machine.Run om.machine LeavesInStep
        (State.boot db chain seenIds) tr c := by
  constructor
  · intro hExact
    refine hRun.meets ?_
    intro pre post e c₀ hSplit hPre
    rcases hRun.step_at hSplit with ⟨c₁, c₂, hPre', _, hStep⟩
    rw [hPre.unique hPre']
    have hBefore := hExact.pending pre (e :: post) c₁ hSplit hPre'
    have hCut : tr = (pre ++ [e]) ++ post := by
      rw [hSplit, List.append_assoc]
      rfl
    have hAfter :=
      hExact.pending (pre ++ [e]) post c₂ hCut
        (.snoc hPre' trivial hStep)
    rw [waiting_snoc, ← hBefore] at hAfter
    exact (pending_step pre hStep).mp hAfter
  · intro hInStep
    constructor
    · intro pre post c' hSplit hPre
      rcases hInStep.earlier hSplit with ⟨c₁, hPre'⟩
      rw [hPre.unique hPre']
      exact pending_of_run hPre'
    · intro tid o hTask
      exact full_of_run hInStep hTask

end Runs

------------------------------------------------------------
-- An Order that Was Picked Up
------------------------------------------------------------

/- The submission of `tid` was told that the queue is full. -/
def wasFull (c : OmConfig) (tid : Nat) : Bool :=
  match c.tasks[tid]? with
  | some ⟨.submitOrder _, some (.done (.submitted (.error e)))⟩ =>
      e = .queueFull
  | _ => false

/- An order is accepted and picked up, then another one comes. -/
def pickedUpSchedule : List (Machine.Choice Outcome Ext) :=
  [.ext (.submitOrder (sampleOrder "" 1000))] ++
    acceptSteps 0 "a" [] ++
    [.ext (.recv (sampleOrder "a" 1000)),
      .ext (.submitOrder (sampleOrder "" 1000))] ++
    (acceptSteps 2 "b" []).take 11

/- The queue is full, although no order waits. -/
theorem queueFull_with_none_waiting :
    ∃ (tr : List OmEvent) (c : OmConfig),
      Machine.Run narrowManager.machine Machine.anyStep
          (sampleState .enabled) tr c ∧
        wasFull c 2 = true ∧
          waiting tr = [] ∧
            ¬QueueExact narrowManager (sampleState .enabled) tr c := by
  have hPlay :=
    Machine.exists_run_of_play narrowManager.machine
      (sampleState .enabled) pickedUpSchedule
      (fun tr c =>
        wasFull c 2 && decide (waiting tr = []) &&
          decide (c.state.maps.pending ≠ []))
      (by decide +kernel)
  rcases hPlay with ⟨tr, c, hRun, hShown⟩
  simp only [Bool.and_eq_true, decide_eq_true_eq] at hShown
  rcases hShown with ⟨⟨hFull, hNone⟩, hPending⟩
  refine ⟨tr, c, hRun, hFull, hNone, ?_⟩
  intro hExact
  have hSame := hExact.pending tr [] c (List.append_nil tr).symm hRun
  rw [hNone] at hSame
  exact hPending hSame

/- Two orders that are accepted wait. -/
theorem exists_queueExact :
    ∃ (tr : List OmEvent) (c : OmConfig),
      waiting tr = [sampleOrder "a" 1000, sampleOrder "b" 1000] ∧
        (QueueExact sampleManager (sampleState .enabled) tr c ↔
          Machine.Run sampleManager.machine LeavesInStep
            (sampleState .enabled) tr c) := by
  have hPlay :=
    Machine.exists_run_of_play sampleManager.machine
      (sampleState .enabled)
      ([.ext (.submitOrder (sampleOrder "" 1000))] ++
        acceptSteps 0 "a" [] ++
        [.ext (.submitOrder (sampleOrder "" 1000))] ++
        acceptSteps 1 "b" [])
      (fun tr _ =>
        decide (waiting tr =
          [sampleOrder "a" 1000, sampleOrder "b" 1000]))
      (by decide +kernel)
  rcases hPlay with ⟨tr, c, hRun, hShown⟩
  exact ⟨tr, c, of_decide_eq_true hShown, queueExact_iff hRun⟩

end Pumpy
