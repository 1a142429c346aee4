import Mathlib.Data.List.DropRight
import Mathlib.Data.List.Nodup
import Pumpy.Engine.Ownership
import Pumpy.Interleaving.Transition

/-
  The execution workers of an order manager
  (`execution_worker`, and the part of `WalletWorker::run` that
  spawns and aborts them).  They take turns at the receiver of
  the order channel, and a semaphore bounds the passes: one
  worker has the receiver; it receives an order, waits with it
  for a permit, and spawns the pass, which has the permit until
  it is over.

  The machine of the order manager begins a pass as it takes the
  order off the channel.  Here both are steps of their own, and
  a run of the workers is shown to be one of the machine.  An
  order that is dropped with the worker that waits with it is
  lost: the task that the machine has for it never moves.

  Key definitions include:
    * `OrderFate`
    * `WorkerPool`
    * `PoolEvent`
    * `WorkerPool.system`
    * `WorkerPool.view`
    * `Conducts`

  The main result is `conducts_of_exec`.
-/

namespace Pumpy

open Interleaving

------------------------------------------------------------
-- Orders in the Channel
------------------------------------------------------------

/- What has happened since the process started. -/
def sinceRestart (tr : List OmEvent) : List OmEvent :=
  tr.rtakeWhile fun
    | .ext .restart => false
    | _ => true

/- The order an event puts into the channel. -/
def sentBy : OmEvent → Option Order
  | .op _ op _ r => op.enqueues r
  | .ext _ => none

/- The order an event takes off it. -/
def takenBy : OmEvent → Option Order
  | .op _ _ _ _ => none
  | .ext e => e.received

/- The orders this process has put into its channel. -/
def ordersSent (tr : List OmEvent) : List Order :=
  (sinceRestart tr).filterMap sentBy

/- The orders it has taken off the channel. -/
def ordersTaken (tr : List OmEvent) : List Order :=
  (sinceRestart tr).filterMap takenBy

/-
  Orders are taken in the order in which they were sent, and all
  others wait, unless the receiver is gone.
-/
structure FirstInFirstOut (tr : List OmEvent) (s : State) : Prop where
  sent : (ordersTaken tr ++ s.chan.queue).IsPrefix (ordersSent tr)
  waits :
    s.chan.receiverAlive = true →
      ordersSent tr = ordersTaken tr ++ s.chan.queue

section FirstInFirstOut

variable {tr : List OmEvent} {s s' : State}

theorem op_goes
    {tid : ℕ} {op : Op} {env : Outcome} {r : op.Resp} :
    (.op tid op env r : OmEvent) ≠ .ext .restart := by
  intro hSame
  cases hSame

theorem ext_goes
    {e : Ext}
    (hGoes : e ≠ .restart) :
    (.ext e : OmEvent) ≠ .ext .restart :=
  fun hSame => hGoes (Event.ext.inj hSame)

theorem sinceRestart_concat
    {e : OmEvent}
    (hGoes : e ≠ .ext .restart) :
    sinceRestart (tr ++ [e]) = sinceRestart tr ++ [e] := by
  refine List.rtakeWhile_concat_pos _ _ _ ?_
  rcases e with ⟨tid, op, env, r⟩ | e
  · rfl
  · cases e with
    | restart => exact absurd rfl hGoes
    | _ => rfl

theorem filterMap_concat
    {f : OmEvent → Option Order}
    {es : List OmEvent}
    {e : OmEvent} :
    (es ++ [e]).filterMap f = es.filterMap f ++ (f e).toList := by
  rw [List.filterMap_append]
  cases hSome : f e <;> simp [hSome]

theorem ordersSent_concat
    {e : OmEvent}
    (hGoes : e ≠ .ext .restart) :
    ordersSent (tr ++ [e]) = ordersSent tr ++ (sentBy e).toList := by
  rw [ordersSent, sinceRestart_concat hGoes, filterMap_concat, ordersSent]

theorem ordersTaken_concat
    {e : OmEvent}
    (hGoes : e ≠ .ext .restart) :
    ordersTaken (tr ++ [e]) = ordersTaken tr ++ (takenBy e).toList := by
  rw [ordersTaken, sinceRestart_concat hGoes, filterMap_concat,
    ordersTaken]

/- Nothing is known of what the last process had in its channel. -/
theorem firstInFirstOut_restart
    (hQueue : s.chan.queue = []) :
    FirstInFirstOut (tr ++ [.ext .restart]) s := by
  have hNone : sinceRestart (tr ++ [.ext .restart]) = [] :=
    List.rtakeWhile_concat_neg _ _ _ (by decide)
  have hSent : ordersSent (tr ++ [.ext .restart]) = [] := by
    rw [ordersSent, hNone]
    rfl
  have hTaken : ordersTaken (tr ++ [.ext .restart]) = [] := by
    rw [ordersTaken, hNone]
    rfl
  constructor
  · rw [hSent, hTaken, hQueue]
    exact List.prefix_rfl
  · intro _
    rw [hSent, hTaken, hQueue]
    rfl

/- Where nothing is taken, the queue grows by what is sent. -/
theorem FirstInFirstOut.grows
    {e : OmEvent}
    (hOrder : FirstInFirstOut tr s)
    (hGoes : e ≠ .ext .restart)
    (hTaken : takenBy e = none)
    (hQueue : s'.chan.queue = s.chan.queue ++ (sentBy e).toList)
    (hAlive : s'.chan.receiverAlive = s.chan.receiverAlive)
    (hLive : (sentBy e).isSome → s.chan.receiverAlive = true) :
    FirstInFirstOut (tr ++ [e]) s' := by
  constructor
  · rw [ordersSent_concat hGoes, ordersTaken_concat hGoes, hTaken,
      Option.toList_none, List.append_nil, hQueue, ← List.append_assoc]
    cases hSent : sentBy e with
    | none =>
        rw [Option.toList_none, List.append_nil, List.append_nil]
        exact hOrder.sent
    | some o =>
        have hSome : (sentBy e).isSome = true := by
          rw [hSent]
          rfl
        have hAll := hOrder.waits (hLive hSome)
        exact hAll ▸ List.prefix_rfl
  · intro hStill
    rw [ordersSent_concat hGoes, ordersTaken_concat hGoes, hTaken,
      Option.toList_none, List.append_nil, hQueue, ← List.append_assoc,
      hOrder.waits (hAlive ▸ hStill)]

/- An order is sent only while there is a receiver. -/
theorem receiverAlive_of_enqueues
    {op : Op} {env : Outcome} {r : op.Resp}
    (hExec : State.exec op env s = some (r, s'))
    (hSent : (op.enqueues r).isSome) :
    s.chan.receiverAlive = true := by
  cases op with
  | chan op =>
      cases op with
      | orderSend o =>
          rcases exec_orderSend hExec with ⟨_, rfl, _⟩ | ⟨hLive, _, _⟩
          · cases hSent
          · exact hLive
      | eventSend ev => cases hSent
  | _ => cases hSent

theorem FirstInFirstOut.op
    {tid : ℕ} {op : Op} {env : Outcome} {r : op.Resp}
    (hOrder : FirstInFirstOut tr s)
    (hExec : State.exec op env s = some (r, s')) :
    FirstInFirstOut (tr ++ [.op tid op env r]) s' :=
  hOrder.grows op_goes rfl (exec_queue hExec) (exec_chan hExec).1
    (receiverAlive_of_enqueues hExec)

/- What happens outside without the channel leaves all as it was. -/
theorem FirstInFirstOut.apart
    {e : Ext}
    (hOrder : FirstInFirstOut tr s)
    (hGoes : e ≠ .restart)
    (hNone : e.received = none)
    (hChan : s'.chan = s.chan) :
    FirstInFirstOut (tr ++ [.ext e]) s' := by
  apply hOrder.grows (ext_goes hGoes) hNone
  · rw [hChan]
    exact (List.append_nil _).symm
  · rw [hChan]
  · intro hSent
    cases hSent

theorem FirstInFirstOut.recv
    {o : Order} {queue : List Order}
    (hOrder : FirstInFirstOut tr s)
    (hQueue : s.chan.queue = o :: queue)
    (hRest : s'.chan = { s.chan with queue := queue }) :
    FirstInFirstOut (tr ++ [.ext (.recv o)]) s' := by
  have hGoes : (.ext (.recv o) : OmEvent) ≠ .ext .restart := by
    apply ext_goes
    intro hSame
    cases hSame
  have hAll :
      (ordersTaken tr ++ [o]) ++ queue =
        ordersTaken tr ++ s.chan.queue := by
    rw [hQueue, List.append_assoc]
    rfl
  have hSent : ordersSent (tr ++ [.ext (.recv o)]) = ordersSent tr := by
    rw [ordersSent_concat hGoes]
    exact List.append_nil _
  have hTaken :
      ordersTaken (tr ++ [.ext (.recv o)]) = ordersTaken tr ++ [o] :=
    ordersTaken_concat hGoes
  constructor
  · rw [hSent, hTaken, hRest]
    exact hAll ▸ hOrder.sent
  · intro hLive
    rw [hRest] at hLive
    rw [hSent, hTaken, hRest]
    exact (hOrder.waits hLive).trans hAll.symm

theorem FirstInFirstOut.close
    (hOrder : FirstInFirstOut tr s)
    (hChan :
      s'.chan = { s.chan with receiverAlive := false, queue := [] }) :
    FirstInFirstOut (tr ++ [.ext .closeChannel]) s' := by
  have hGoes : (.ext .closeChannel : OmEvent) ≠ .ext .restart := by
    apply ext_goes
    intro hSame
    cases hSame
  constructor
  · rw [ordersSent_concat hGoes, ordersTaken_concat hGoes, hChan]
    simp only [sentBy, takenBy, Ext.received, Option.toList_none,
      List.append_nil]
    exact (List.prefix_append _ _).trans hOrder.sent
  · intro hLive
    rw [hChan] at hLive
    cases hLive

theorem FirstInFirstOut.ext
    {e : Ext}
    (hOrder : FirstInFirstOut tr s)
    (hExt : e.exec s = some s') :
    FirstInFirstOut (tr ++ [.ext e]) s' := by
  cases e with
  | recv o =>
      simp only [Ext.exec] at hExt
      split at hExt
      · cases hExt
      · rename_i head queue hQueue
        split at hExt
        · rename_i hSame
          subst hSame
          cases hExt
          exact hOrder.recv hQueue rfl
        · cases hExt
  | closeChannel =>
      cases hExt
      exact hOrder.close rfl
  | restart =>
      cases hExt
      exact firstInFirstOut_restart rfl
  | land tx =>
      simp only [Ext.exec] at hExt
      split at hExt
      · cases hExt
        exact hOrder.apart (by rintro ⟨⟩) rfl rfl
      · cases hExt
  | submitOrder o | cancelOrder id | setStatus st =>
      cases hExt
      exact hOrder.apart (by rintro ⟨⟩) rfl rfl

/- In every run of an order manager orders are taken as they were sent. -/
theorem firstInFirstOut_of_run
    {om : OrderManager} {C : OmCond} {s₀ : State} {c : OmConfig}
    (hBoot : s₀.chan.queue = [])
    (hRun : Machine.Run om.machine C s₀ tr c) :
    FirstInFirstOut tr c.state := by
  induction hRun with
  | nil =>
      constructor
      · rw [hBoot]
        exact List.prefix_rfl
      · intro _
        rw [hBoot]
        rfl
  | snoc hRun hCond hStep ih =>
      cases hStep with
      | op hTask hExec => exact ih.op hExec
      | ext hExt => exact ih.ext hExt

end FirstInFirstOut

------------------------------------------------------------
-- The Workers
------------------------------------------------------------

/-
  What became of an order that a worker received: the task `tid`
  is its pass, or stays at its start, because the order was lost
  with the worker.
-/
inductive OrderFate where
  | spawned (tid : ℕ) (order : Order) : OrderFate
  | lost (tid : ℕ) (order : Order) : OrderFate

namespace OrderFate

def tid : OrderFate → ℕ
  | spawned tid _ => tid
  | lost tid _ => tid

def order : OrderFate → Order
  | spawned _ order => order
  | lost _ order => order

def lostOrder : OrderFate → Option Order
  | spawned _ _ => none
  | lost _ order => some order

end OrderFate

/-
  `idle` workers wait for the receiver.  If `receiving`, one has
  it, and perhaps an order that waits for a permit.  `passes`
  are the tasks that hold a permit; `permits` are free.  `fates`
  are those of the orders received since the process started, in
  their order.  The trace is kept as the machine of the order
  manager has it.
-/
structure WorkerPool where
  config : OmConfig
  trace : List OmEvent
  idle : ℕ
  receiving : Bool
  received : Option Order
  permits : ℕ
  passes : List ℕ
  fates : List OrderFate

/-
  A step of the order manager and its surroundings; a worker
  gets the receiver, receives an order, spawns its pass; a pass
  is over, because it returned or panicked; a worker is aborted.
-/
inductive PoolEvent where
  | manager (choice : Machine.Choice Outcome Ext) : PoolEvent
  | lock : PoolEvent
  | recv : PoolEvent
  | spawn : PoolEvent
  | ends (tid : ℕ) : PoolEvent
  | abortIdle : PoolEvent
  | abortReceiving : PoolEvent

namespace WorkerPool

/- A process whose wallet worker has just spawned its children. -/
def boot
    (workers : ℕ)
    (state : State) : WorkerPool :=
  ⟨⟨state, []⟩, [], workers, false, none, workers, [], []⟩

/- The channel's queue, with what a worker waits with before it. -/
def held (received : Option Order) (s : State) : State :=
  { s with
    chan := { s.chan with queue := received.toList ++ s.chan.queue } }

/- What the machine of the order manager has of it. -/
def view (p : WorkerPool) : OmConfig :=
  ⟨held p.received p.config.state, p.config.tasks⟩

/- The task is a pass. -/
def isPass (p : WorkerPool) (tid : ℕ) : Bool :=
  match (p.config.tasks.map Task.root)[tid]? with
  | some (.processOrder _) => true
  | _ => false

/- The task may move: a pass does while it holds its permit. -/
def moves (p : WorkerPool) (tid : ℕ) : Bool :=
  !p.isPass tid || tid ∈ p.passes

/- The passes that have begun and are not over. -/
def underWay (p : WorkerPool) : List ℕ :=
  (List.range p.config.tasks.length).filter fun tid =>
    p.isPass tid && p.moves tid

/-
  Orders are taken off the channel by the workers only, and the
  channel is not closed while one of them has the receiver.
-/
def allows (p : WorkerPool) : Machine.Choice Outcome Ext → Bool
  | .task tid _ => p.moves tid
  | .ext (.recv _) => false
  | .ext .restart => false
  | .ext .closeChannel => !p.receiving
  | .ext _ => true

/- The orders that were lost since the process started. -/
def lost (p : WorkerPool) : List Order :=
  p.fates.filterMap OrderFate.lostOrder

/- The order gets a task, which is at its start. -/
def begin
    (om : OrderManager)
    (p : WorkerPool)
    (o : Order)
    (fate : ℕ → Order → OrderFate) : WorkerPool :=
  { p with
    config :=
      ⟨p.config.state,
        p.config.tasks ++ [om.machine.start (.processOrder o)]⟩
    trace := p.trace ++ [.ext (.recv o)]
    received := none
    fates := p.fates ++ [fate p.config.tasks.length o] }

/- The order is at the head of the channel, and is received. -/
def receive
    (p : WorkerPool)
    (o : Order)
    (queue : List Order) : WorkerPool :=
  { p with
    config :=
      ⟨{ p.config.state with
          chan := { p.config.state.chan with queue := queue } },
        p.config.tasks⟩
    received := some o }

/- Its pass begins, with a permit. -/
def spawn
    (om : OrderManager)
    (p : WorkerPool)
    (o : Order) : WorkerPool :=
  { p.begin om o .spawned with
    permits := p.permits - 1
    passes := p.passes ++ [p.config.tasks.length] }

/- The order is dropped with the worker, which has no permit yet. -/
def lose
    (om : OrderManager)
    (p : WorkerPool)
    (o : Order) : WorkerPool :=
  { p.begin om o .lost with receiving := false }

/- `execution_worker`, step by step, among `workers` of them. -/
def step
    (om : OrderManager)
    (workers : ℕ)
    (p : WorkerPool) : PoolEvent → Option WorkerPool
  | .manager (.ext .restart) =>
      (om.machine.playOne p.config (.ext .restart)).map fun q =>
        { boot workers q.2.state with
          config := q.2
          trace := p.trace ++ [q.1] }
  | .manager choice =>
      if p.allows choice then
        (om.machine.playOne p.config choice).map fun q =>
          { p with config := q.2, trace := p.trace ++ [q.1] }
      else
        none
  | .lock =>
      if 0 < p.idle ∧ p.receiving = false then
        some { p with idle := p.idle - 1, receiving := true }
      else
        none
  | .recv =>
      match p.receiving, p.received, p.config.state.chan.queue with
      | true, none, o :: queue => some (p.receive o queue)
      | _, _, _ => none
  | .spawn =>
      match p.received with
      | some o => if 0 < p.permits then some (p.spawn om o) else none
      | none => none
  | .ends tid =>
      if tid ∈ p.passes then
        some
          { p with
            permits := p.permits + 1
            passes := p.passes.erase tid }
      else
        none
  | .abortIdle =>
      if 0 < p.idle then some { p with idle := p.idle - 1 } else none
  | .abortReceiving =>
      if p.receiving then
        match p.received with
        | some o => some (p.lose om o)
        | none => some { p with receiving := false }
      else
        none

def system
    (om : OrderManager)
    (workers : ℕ) : Transition PoolEvent WorkerPool :=
  ⟨step om workers⟩

end WorkerPool

/- The steps the workers take of themselves. -/
def Serving (es : List PoolEvent) : Prop :=
  ∀ e ∈ es, e = .lock ∨ e = .recv ∨ e = .spawn

/- No worker is aborted while it waits with an order. -/
def SparesOrders (p : WorkerPool) (e : PoolEvent) : Prop :=
  e = .abortReceiving → p.received = none

/-
  A pass is the task of its order; the task of an order that was
  lost is still at its start.
-/
def OrderFate.Told (om : OrderManager) (p : WorkerPool) : OrderFate → Prop
  | spawned tid o =>
      (p.config.tasks.map Task.root)[tid]? = some (.processOrder o)
  | lost tid o =>
      p.config.tasks[tid]? = some (om.machine.start (.processOrder o))

/-
  What the workers make of a run.  It is one of the machine;
  a permit is free for every pass that is missing; the orders
  that were received, each with its own task, are those that
  were sent, in their order, up to those that wait; a pass that
  is under way is that of an order that was not lost; and the
  next order waits only for a permit, while there is a worker.
-/
structure Conducts
    (om : OrderManager)
    (workers : ℕ)
    (state : State)
    (p : WorkerPool) : Prop where
  refines :
    Machine.Run om.machine Machine.anyStep state p.trace p.view
  bounded : p.underWay.length + p.permits = workers
  sent :
    (p.fates.map OrderFate.order ++ p.received.toList ++
      p.config.state.chan.queue).IsPrefix (ordersSent p.trace)
  waits :
    p.config.state.chan.receiverAlive = true →
      ordersSent p.trace =
        p.fates.map OrderFate.order ++ p.received.toList ++
          p.config.state.chan.queue
  once : (p.fates.map OrderFate.tid).Nodup
  told : ∀ fate ∈ p.fates, fate.Told om p
  passes :
    ∀ tid ∈ p.underWay, ∃ o, .spawned tid o ∈ p.fates
  prompt :
    ∀ o rest,
      0 < p.idle ∨ p.receiving = true → 0 < p.permits →
        p.received.toList ++ p.config.state.chan.queue = o :: rest →
          ∃ es p',
            Serving es ∧
              (WorkerPool.system om workers).exec p es = some p' ∧
                p'.config.tasks =
                    p.config.tasks ++
                      [om.machine.start (.processOrder o)] ∧
                  p'.moves p.config.tasks.length = true

------------------------------------------------------------
-- The Machine Behind the Workers
------------------------------------------------------------

namespace WorkerPool

section Simulation

variable {om : OrderManager} {received : Option Order}
variable {s s' : State} {c c' : OmConfig} {e : OmEvent}

/- What a worker waits with is out of the tasks' way. -/
theorem exec_held
    {op : Op} {env : Outcome} {r : op.Resp}
    (hExec : State.exec op env s = some (r, s')) :
    State.exec op env (held received s) =
      some (r, held received s') := by
  cases op with
  | chan op =>
      cases op with
      | orderSend o =>
          rcases exec_orderSend hExec with
            ⟨hGone, rfl, rfl⟩ | ⟨hLive, rfl, rfl⟩
          · cases env <;>
              simp [State.exec, ChanOp.exec, held, hGone] at hExec ⊢
          · cases env <;>
              simp [State.exec, ChanOp.exec, held, hLive] at hExec ⊢
      | eventSend ev =>
          cases env with
          | plain =>
              cases hExec
              rfl
          | _ => cases hExec
  | engine op | metric op =>
      cases env with
      | plain =>
          cases hExec
          rfl
      | _ => cases hExec
  | db op | map op | chain op | sys op =>
      rcases Option.map_eq_some_iff.mp hExec with ⟨q, hPart, hEq⟩
      cases hEq
      exact Option.map_eq_some_iff.mpr ⟨q, hPart, rfl⟩

/- What a worker waits with was before the rest of the queue. -/
theorem ext_held
    {e : Ext}
    (hPlain : e.received = none)
    (hLeft : e = .closeChannel ∨ e = .restart → received = none)
    (hExt : e.exec s = some s') :
    e.exec (held received s) = some (held received s') := by
  cases e with
  | recv o => cases hPlain
  | closeChannel =>
      rw [hLeft (.inl rfl)]
      exact hExt
  | restart =>
      rw [hLeft (.inr rfl)]
      exact hExt
  | land tx =>
      simp only [Ext.exec] at hExt ⊢
      split at hExt
      · rename_i hLands
        cases hExt
        exact if_pos hLands
      · cases hExt
  | submitOrder o | cancelOrder id | setStatus st =>
      cases hExt
      rfl

theorem step_held
    (hPlain : ∀ x, e = .ext x → x.received = none)
    (hLeft :
      e = .ext .closeChannel ∨ e = .ext .restart → received = none)
    (hStep : Machine.Step om.machine c e c') :
    Machine.Step om.machine ⟨held received c.state, c.tasks⟩ e
      ⟨held received c'.state, c'.tasks⟩ := by
  cases hStep with
  | op hTask hExec => exact .op hTask (exec_held hExec)
  | ext hExt =>
      refine .ext (ext_held (hPlain _ rfl) ?_ hExt)
      rintro (rfl | rfl)
      · exact hLeft (.inl rfl)
      · exact hLeft (.inr rfl)

/- A choice of an outside event gives that event. -/
theorem choice_of_ext
    {choice : Machine.Choice Outcome Ext} {x : Ext}
    (hPlay : om.machine.playOne c choice = some (.ext x, c')) :
    choice = .ext x := by
  cases choice with
  | task tid env =>
      simp only [Machine.playOne] at hPlay
      split at hPlay
      · split at hPlay
        · cases hPlay
        · cases hPlay
      · cases hPlay
  | ext y =>
      simp only [Machine.playOne] at hPlay
      split at hPlay
      · cases hPlay
        rfl
      · cases hPlay

end Simulation

------------------------------------------------------------
-- Permits
------------------------------------------------------------

/- What every step of the workers keeps. -/
structure Sound
    (om : OrderManager)
    (workers : ℕ)
    (state : State)
    (p : WorkerPool) : Prop where
  refines :
    Machine.Run om.machine Machine.anyStep state p.trace p.view
  served : p.received ≠ none → p.receiving = true
  free : p.passes.length + p.permits = workers
  distinct : p.passes.Nodup
  taken : ordersTaken p.trace = p.fates.map OrderFate.order
  once : (p.fates.map OrderFate.tid).Nodup
  told : ∀ fate ∈ p.fates, fate.Told om p
  passes : ∀ tid ∈ p.passes, ∃ o, .spawned tid o ∈ p.fates

section Permits

variable {om : OrderManager} {workers : ℕ} {state : State}
variable {p p' : WorkerPool} {e : PoolEvent}

theorem isPass_of_root
    {tid : ℕ} {o : Order}
    (hRoot :
      (p.config.tasks.map Task.root)[tid]? = some (.processOrder o)) :
    p.isPass tid = true := by
  unfold isPass
  rw [hRoot]

/- What is told of a fate is told of a task. -/
theorem root_of_told
    {fate : OrderFate}
    (hTold : fate.Told om p) :
    (p.config.tasks.map Task.root)[fate.tid]? =
      some (.processOrder fate.order) := by
  cases fate with
  | spawned tid o => exact hTold
  | lost tid o =>
      have hAt :
          p.config.tasks[tid]? =
            some (om.machine.start (.processOrder o)) :=
        hTold
      rw [OrderFate.tid, List.getElem?_map, hAt]
      rfl

theorem lt_of_told
    {fate : OrderFate}
    (hTold : fate.Told om p) :
    fate.tid < p.config.tasks.length := by
  have hLt := (List.getElem?_eq_some_iff.mp (root_of_told hTold)).1
  rwa [List.length_map] at hLt

/- The passes that hold a permit are passes. -/
theorem Sound.isPass
    {tid : ℕ}
    (hSound : Sound om workers state p)
    (hMem : tid ∈ p.passes) :
    p.isPass tid = true := by
  rcases hSound.passes tid hMem with ⟨o, hFate⟩
  exact isPass_of_root (root_of_told (hSound.told _ hFate))

/- An order that was lost has no pass that moves. -/
theorem Sound.not_moves
    {tid : ℕ} {o : Order}
    (hSound : Sound om workers state p)
    (hLost : .lost tid o ∈ p.fates) :
    p.moves tid = false := by
  have hPass := isPass_of_root (root_of_told (hSound.told _ hLost))
  have hNone : tid ∉ p.passes := by
    intro hMem
    rcases hSound.passes tid hMem with ⟨o', hSpawned⟩
    have hSame :=
      List.inj_on_of_nodup_map hSound.once hLost hSpawned rfl
    cases hSame
  rw [moves, Bool.or_eq_false_iff]
  exact ⟨by rw [Bool.not_eq_false']; exact hPass, decide_eq_false hNone⟩

/- The passes under way are those that hold a permit. -/
theorem Sound.underWay_perm
    (hSound : Sound om workers state p) :
    p.underWay.Perm p.passes := by
  refine (List.perm_ext_iff_of_nodup
    (List.nodup_range.filter _) hSound.distinct).mpr fun tid => ?_
  rw [List.mem_filter, List.mem_range, Bool.and_eq_true]
  constructor
  · rintro ⟨_, hPass, hMoves⟩
    rw [moves, hPass] at hMoves
    exact of_decide_eq_true hMoves
  · intro hMem
    have hPass := hSound.isPass hMem
    rcases hSound.passes tid hMem with ⟨o, hFate⟩
    refine ⟨lt_of_told (hSound.told _ hFate), hPass, ?_⟩
    rw [moves, hPass]
    exact decide_eq_true hMem

------------------------------------------------------------
-- Orders Received
------------------------------------------------------------

/- The machine takes the order off the channel as its task begins. -/
theorem refines_begin
    {o : Order}
    (fate : ℕ → Order → OrderFate)
    (hRefines :
      Machine.Run om.machine Machine.anyStep state p.trace p.view)
    (hReceived : p.received = some o) :
    Machine.Run om.machine Machine.anyStep state
      (p.begin om o fate).trace (p.begin om o fate).view := by
  refine hRefines.snoc trivial ?_
  have hExt :
      (Ext.recv o).exec (held p.received p.config.state) =
        some p.config.state := by
    rw [hReceived]
    exact if_pos rfl
  have hStep :
      Machine.Step om.machine p.view (.ext (.recv o)) _ := .ext hExt
  have hAlive :
      p.config.tasks.mapIdx (om.machine.survive (.recv o)) =
        p.config.tasks := by
    refine List.ext_getElem? fun i => ?_
    rw [List.getElem?_mapIdx]
    cases p.config.tasks[i]? <;> rfl
  change Machine.Step om.machine p.view (.ext (.recv o))
    ⟨p.config.state,
      p.config.tasks ++ [om.machine.start (.processOrder o)]⟩
  rw [← hAlive]
  exact hStep

theorem taken_begin
    {o : Order}
    (om : OrderManager)
    (fate : ℕ → Order → OrderFate)
    (hTaken : ordersTaken p.trace = p.fates.map OrderFate.order)
    (hOrder : (fate p.config.tasks.length o).order = o) :
    ordersTaken (p.begin om o fate).trace =
      (p.begin om o fate).fates.map OrderFate.order := by
  have hGoes : (.ext (.recv o) : OmEvent) ≠ .ext .restart := by
    apply ext_goes
    rintro ⟨⟩
  change ordersTaken (p.trace ++ [.ext (.recv o)]) =
    (p.fates ++ [fate p.config.tasks.length o]).map OrderFate.order
  rw [ordersTaken_concat hGoes, List.map_append, List.map_singleton,
    hTaken, hOrder]
  rfl

/- What was told is told still, and so is what is new. -/
theorem told_begin
    {o : Order}
    (fate : ℕ → Order → OrderFate)
    (hTold : ∀ fate ∈ p.fates, fate.Told om p)
    (hNew :
      (fate p.config.tasks.length o).Told om (p.begin om o fate)) :
    ∀ f ∈ (p.begin om o fate).fates, f.Told om (p.begin om o fate) := by
  intro f hMem
  rcases List.mem_append.mp hMem with hOld | hLast
  · have hBefore := hTold f hOld
    have hLt := lt_of_told hBefore
    have hRoots :
        ((p.begin om o fate).config.tasks.map Task.root)[f.tid]? =
          (p.config.tasks.map Task.root)[f.tid]? := by
      change ((p.config.tasks ++ _).map Task.root)[f.tid]? = _
      rw [List.map_append, List.getElem?_append_left]
      rwa [List.length_map]
    cases f with
    | spawned tid o' => exact hRoots.trans hBefore
    | lost tid o' =>
        exact (List.getElem?_append_left hLt).trans hBefore
  · rw [List.mem_singleton.mp hLast]
    exact hNew

theorem once_begin
    {o : Order}
    (fate : ℕ → Order → OrderFate)
    (hOnce : (p.fates.map OrderFate.tid).Nodup)
    (hTold : ∀ fate ∈ p.fates, fate.Told om p)
    (hTid : (fate p.config.tasks.length o).tid = p.config.tasks.length) :
    ((p.begin om o fate).fates.map OrderFate.tid).Nodup := by
  change ((p.fates ++ [fate p.config.tasks.length o]).map
    OrderFate.tid).Nodup
  rw [List.map_append, List.map_singleton, hTid,
    ← List.concat_eq_append]
  refine hOnce.concat fun hMem => ?_
  rcases List.mem_map.mp hMem with ⟨f, hFate, hSame⟩
  have hLt := lt_of_told (hTold f hFate)
  omega

------------------------------------------------------------
-- Steps
------------------------------------------------------------

/- A step of the manager leaves a task that does not move as it is. -/
theorem task_kept
    {choice : Machine.Choice Outcome Ext}
    {q : OmEvent × OmConfig}
    {tid : ℕ}
    {task : Task Op Op.Resp Root Ret}
    (hGoes : choice ≠ .ext .restart)
    (hStill : ∀ env, choice ≠ .task tid env)
    (hAt : p.config.tasks[tid]? = some task)
    (hPlay : om.machine.playOne p.config choice = some q) :
    q.2.tasks[tid]? = some task := by
  have hLt := (List.getElem?_eq_some_iff.mp hAt).1
  cases choice with
  | task other env =>
      simp only [Machine.playOne] at hPlay
      split at hPlay
      · split at hPlay
        · cases hPlay
          have hOther : other ≠ tid := by
            rintro rfl
            exact hStill env rfl
          rw [List.getElem?_append_left (by rwa [List.length_set]),
            List.getElem?_set_ne hOther]
          exact hAt
        · cases hPlay
      · cases hPlay
  | ext x =>
      simp only [Machine.playOne] at hPlay
      split at hPlay
      · cases hPlay
        have hSpared : om.machine.survive x tid task = task := by
          cases x with
          | restart => exact absurd rfl hGoes
          | _ => rfl
        rw [List.getElem?_append_left (by rwa [List.length_mapIdx]),
          List.getElem?_mapIdx, hAt, Option.map_some, hSpared]
      · cases hPlay

/- The manager takes nothing off the channel itself. -/
theorem not_restart_of_allows
    {choice : Machine.Choice Outcome Ext}
    {q : OmEvent × OmConfig}
    (hGoes : choice ≠ .ext .restart)
    (hAllows : p.allows choice = true)
    (hPlay : om.machine.playOne p.config choice = some q) :
    q.1 ≠ .ext .restart ∧ takenBy q.1 = none := by
  have hChoice : ∀ x, q.1 = .ext x → choice = .ext x := by
    intro x hEq
    have hExt :
        om.machine.playOne p.config choice = some (.ext x, q.2) := by
      rw [hPlay, ← hEq]
    exact choice_of_ext hExt
  constructor
  · exact fun hRestart => hGoes (hChoice _ hRestart)
  · cases hEvent : q.1 with
    | op tid op env r => rfl
    | ext x =>
        rw [hChoice x hEvent] at hAllows
        cases x with
        | recv o => cases hAllows
        | _ => rfl

theorem Sound.manager
    {choice : Machine.Choice Outcome Ext}
    {q : OmEvent × OmConfig}
    (hSound : Sound om workers state p)
    (hGoes : choice ≠ .ext .restart)
    (hAllows : p.allows choice = true)
    (hPlay : om.machine.playOne p.config choice = some q) :
    Sound om workers state
      { p with config := q.2, trace := p.trace ++ [q.1] } := by
  have hStep : Machine.Step om.machine p.config q.1 q.2 :=
    Machine.playOne_step hPlay
  rcases not_restart_of_allows hGoes hAllows hPlay with
    ⟨hRuns, hNone⟩
  refine ⟨hSound.refines.snoc trivial (step_held ?_ ?_ hStep),
    hSound.served, hSound.free, hSound.distinct, ?_, hSound.once, ?_,
    hSound.passes⟩
  · intro x hEq
    rw [hEq] at hNone
    exact hNone
  · rintro (hEq | hEq)
    · have hClose : choice = .ext .closeChannel := by
        have hExt :
            om.machine.playOne p.config choice =
              some (.ext .closeChannel, q.2) := by
          rw [hPlay, ← hEq]
        exact choice_of_ext hExt
      rw [hClose] at hAllows
      by_contra hWaits
      have hReceiving := hSound.served hWaits
      simp [allows, hReceiving] at hAllows
    · exact absurd hEq hRuns
  · dsimp only
    rw [ordersTaken_concat hRuns, hNone, Option.toList_none,
      List.append_nil, hSound.taken]
  · intro fate hMem
    have hTold := hSound.told fate hMem
    cases fate with
    | spawned tid o =>
        have hLt : tid < (p.config.tasks.map Task.root).length :=
          (List.getElem?_eq_some_iff.mp (root_of_told hTold)).1
        have hRoots := hStep.roots_eq
        change (q.2.tasks.map Task.root)[tid]? = _
        rw [hRoots, List.getElem?_append_left hLt]
        exact hTold
    | lost tid o =>
        have hStays := hSound.not_moves hMem
        refine task_kept hGoes ?_ hTold hPlay
        rintro env rfl
        have hMoves : p.moves tid = true := hAllows
        rw [hStays] at hMoves
        cases hMoves

/- A restart drops the passes, and with them their permits. -/
theorem Sound.restart
    {q : OmEvent × OmConfig}
    (hSound : Sound om workers state p)
    (hPlay : om.machine.playOne p.config (.ext .restart) = some q) :
    Sound om workers state
      { boot workers q.2.state with
        config := q.2
        trace := p.trace ++ [q.1] } := by
  cases hPlay
  constructor
  · exact hSound.refines.snoc trivial (.ext rfl)
  · exact fun hWaits => absurd rfl hWaits
  · exact Nat.zero_add _
  · exact List.nodup_nil
  · change ordersTaken (p.trace ++ [.ext .restart]) = []
    have hNone : sinceRestart (p.trace ++ [.ext .restart]) = [] :=
      List.rtakeWhile_concat_neg _ _ _ (by decide)
    rw [ordersTaken, hNone]
    rfl
  · exact List.nodup_nil
  · exact fun fate hMem => absurd hMem List.not_mem_nil
  · exact fun tid hMem => absurd hMem List.not_mem_nil

/- A permit is handed to the pass that begins. -/
theorem Sound.spawn
    {o : Order}
    (hSound : Sound om workers state p)
    (hReceived : p.received = some o)
    (hFree : 0 < p.permits) :
    Sound om workers state (p.spawn om o) := by
  have hNew : p.config.tasks.length ∉ p.passes := by
    intro hMem
    rcases hSound.passes _ hMem with ⟨o', hFate⟩
    exact absurd (lt_of_told (hSound.told _ hFate)) (Nat.lt_irrefl _)
  refine ⟨refines_begin .spawned hSound.refines hReceived,
    fun hWaits => absurd rfl hWaits, ?_, ?_,
    taken_begin om .spawned hSound.taken rfl,
    once_begin .spawned hSound.once hSound.told rfl,
    told_begin .spawned hSound.told ?_, ?_⟩
  · have hBefore := hSound.free
    change (p.passes ++ [p.config.tasks.length]).length +
      (p.permits - 1) = workers
    rw [List.length_append, List.length_singleton]
    omega
  · change (p.passes ++ [p.config.tasks.length]).Nodup
    rw [← List.concat_eq_append]
    exact hSound.distinct.concat hNew
  · change ((p.config.tasks ++ _).map Task.root)[_]? = _
    rw [List.map_append, ← List.length_map Task.root]
    exact List.getElem?_concat_length
  · intro tid hMem
    rcases List.mem_append.mp hMem with hBefore | hLast
    · rcases hSound.passes tid hBefore with ⟨o', hFate⟩
      exact ⟨o', List.mem_append_left _ hFate⟩
    · rw [List.mem_singleton.mp hLast]
      exact ⟨o, List.mem_concat_self⟩

/- A pass that is over gives its permit back. -/
theorem Sound.ends
    {tid : ℕ}
    (hSound : Sound om workers state p)
    (hMem : tid ∈ p.passes) :
    Sound om workers state
      { p with
        permits := p.permits + 1
        passes := p.passes.erase tid } := by
  refine ⟨hSound.refines, hSound.served, ?_, hSound.distinct.erase tid,
    hSound.taken, hSound.once, hSound.told,
    fun other hOther => hSound.passes other (List.mem_of_mem_erase hOther)⟩
  have hBefore := hSound.free
  have hErase := List.length_erase_add_one hMem
  change (p.passes.erase tid).length + (p.permits + 1) = workers
  omega

/- An order is lost with the worker that waits with it. -/
theorem Sound.lose
    {o : Order}
    (hSound : Sound om workers state p)
    (hReceived : p.received = some o) :
    Sound om workers state (p.lose om o) := by
  refine ⟨refines_begin .lost hSound.refines hReceived,
    fun hWaits => absurd rfl hWaits, hSound.free, hSound.distinct,
    taken_begin om .lost hSound.taken rfl,
    once_begin .lost hSound.once hSound.told rfl,
    told_begin .lost hSound.told ?_, ?_⟩
  · exact List.getElem?_concat_length
  · intro tid hMem
    rcases hSound.passes tid hMem with ⟨o', hFate⟩
    exact ⟨o', List.mem_append_left _ hFate⟩

theorem Sound.recv
    {o : Order} {queue : List Order}
    (hSound : Sound om workers state p)
    (hReceiving : p.receiving = true)
    (hNone : p.received = none)
    (hQueue : p.config.state.chan.queue = o :: queue) :
    Sound om workers state (p.receive o queue) := by
  refine ⟨?_, fun _ => hReceiving, hSound.free, hSound.distinct,
    hSound.taken, hSound.once, hSound.told, hSound.passes⟩
  have hView : held p.received p.config.state = p.config.state := by
    rw [hNone]
    rfl
  have hSame :
      held (some o)
          { p.config.state with
            chan := { p.config.state.chan with queue := queue } } =
        p.config.state := by
    rw [held, Option.toList_some, List.singleton_append, ← hQueue]
  have hRefines := hSound.refines
  rw [view, hView] at hRefines
  change Machine.Run om.machine Machine.anyStep state p.trace
    ⟨held (some o)
        { p.config.state with
          chan := { p.config.state.chan with queue := queue } },
      p.config.tasks⟩
  rw [hSame]
  exact hRefines

/- A worker comes or goes, with nothing in its hands. -/
theorem Sound.worker
    {idle : ℕ} {receiving : Bool}
    (hSound : Sound om workers state p)
    (hServed : p.received ≠ none → receiving = true) :
    Sound om workers state
      { p with idle := idle, receiving := receiving } :=
  ⟨hSound.refines, hServed, hSound.free, hSound.distinct, hSound.taken,
    hSound.once, hSound.told, hSound.passes⟩

/- A step of the manager, or a restart. -/
theorem manager_cases
    {choice : Machine.Choice Outcome Ext}
    (hStep : step om workers p (.manager choice) = some p') :
    (∃ q,
        om.machine.playOne p.config (.ext .restart) = some q ∧
          p' =
            { boot workers q.2.state with
              config := q.2
              trace := p.trace ++ [q.1] }) ∨
      ∃ q,
        choice ≠ .ext .restart ∧ p.allows choice = true ∧
          om.machine.playOne p.config choice = some q ∧
            p' = { p with config := q.2, trace := p.trace ++ [q.1] } := by
  by_cases hRestart : choice = .ext .restart
  · left
    subst hRestart
    simp only [WorkerPool.step] at hStep
    rcases Option.map_eq_some_iff.mp hStep with ⟨q, hPlay, rfl⟩
    exact ⟨q, hPlay, rfl⟩
  · right
    have hManager :
        (if p.allows choice then
          (om.machine.playOne p.config choice).map fun q =>
            { p with config := q.2, trace := p.trace ++ [q.1] }
        else
          none) = some p' := by
      rw [← hStep]
      cases choice with
      | task tid env => rfl
      | ext e =>
          cases e with
          | restart => exact absurd rfl hRestart
          | _ => rfl
    split at hManager
    · rename_i hAllows
      rcases Option.map_eq_some_iff.mp hManager with ⟨q, hPlay, rfl⟩
      exact ⟨q, hRestart, hAllows, hPlay, rfl⟩
    · cases hManager

theorem Sound.step
    (hSound : Sound om workers state p)
    (hStep : step om workers p e = some p') :
    Sound om workers state p' := by
  cases e with
  | manager choice =>
      rcases manager_cases hStep with
        ⟨q, hPlay, rfl⟩ | ⟨q, hGoes, hAllows, hPlay, rfl⟩
      · exact hSound.restart hPlay
      · exact hSound.manager hGoes hAllows hPlay
  | lock =>
      simp only [WorkerPool.step] at hStep
      split at hStep
      · cases hStep
        exact hSound.worker fun _ => rfl
      · cases hStep
  | recv =>
      simp only [WorkerPool.step] at hStep
      split at hStep
      · rename_i o queue hReceiving hNone hQueue
        cases hStep
        exact hSound.recv hReceiving hNone hQueue
      · cases hStep
  | spawn =>
      simp only [WorkerPool.step] at hStep
      split at hStep
      · rename_i o hReceived
        split at hStep
        · rename_i hFree
          cases hStep
          exact hSound.spawn hReceived hFree
        · cases hStep
      · cases hStep
  | ends tid =>
      simp only [WorkerPool.step] at hStep
      split at hStep
      · rename_i hMem
        cases hStep
        exact hSound.ends hMem
      · cases hStep
  | abortIdle =>
      simp only [WorkerPool.step] at hStep
      split at hStep
      · cases hStep
        exact hSound.worker hSound.served
      · cases hStep
  | abortReceiving =>
      simp only [WorkerPool.step] at hStep
      split at hStep
      · split at hStep
        · rename_i o hReceived
          cases hStep
          exact hSound.lose hReceived
        · rename_i hNone
          cases hStep
          exact hSound.worker fun hWaits => absurd hNone hWaits
      · cases hStep

/- Only an abort loses an order. -/
theorem lost_step
    (hSpares : SparesOrders p e)
    (hStep : step om workers p e = some p')
    (hNone : p.lost = []) :
    p'.lost = [] := by
  cases e with
  | manager choice =>
      rcases manager_cases hStep with
        ⟨q, hPlay, rfl⟩ | ⟨q, hGoes, hAllows, hPlay, rfl⟩
      · rfl
      · exact hNone
  | lock =>
      simp only [WorkerPool.step] at hStep
      split at hStep
      · cases hStep
        exact hNone
      · cases hStep
  | recv =>
      simp only [WorkerPool.step] at hStep
      split at hStep
      · cases hStep
        exact hNone
      · cases hStep
  | spawn =>
      simp only [WorkerPool.step] at hStep
      split at hStep
      · split at hStep
        · cases hStep
          change (p.fates ++ [_]).filterMap OrderFate.lostOrder = []
          rw [List.filterMap_append]
          exact List.append_eq_nil_iff.mpr ⟨hNone, rfl⟩
        · cases hStep
      · cases hStep
  | ends tid =>
      simp only [WorkerPool.step] at hStep
      split at hStep
      · cases hStep
        exact hNone
      · cases hStep
  | abortIdle =>
      simp only [WorkerPool.step] at hStep
      split at hStep
      · cases hStep
        exact hNone
      · cases hStep
  | abortReceiving =>
      simp only [WorkerPool.step] at hStep
      split at hStep
      · rw [hSpares rfl] at hStep
        cases hStep
        exact hNone
      · cases hStep

theorem exists_spawn
    {o : Order}
    (hReceived : p.received = some o)
    (hFree : 0 < p.permits) :
    ∃ p',
      (system om workers).exec p [.spawn] = some p' ∧
        p'.config.tasks =
            p.config.tasks ++ [om.machine.start (.processOrder o)] ∧
          p'.moves p.config.tasks.length = true := by
  refine ⟨p.spawn om o, Transition.exec_singleton.mpr ?_, rfl, ?_⟩
  · change step om workers p .spawn = _
    simp only [step, hReceived, if_pos hFree]
  · have hHolds :
        p.config.tasks.length ∈ (p.spawn om o).passes :=
      List.mem_concat_self
    rw [moves, decide_eq_true hHolds, Bool.or_true]

theorem exists_recv
    {o : Order} {rest : List Order}
    (hReceiving : p.receiving = true)
    (hFree : 0 < p.permits)
    (hNone : p.received = none)
    (hQueue : p.config.state.chan.queue = o :: rest) :
    ∃ p',
      (system om workers).exec p [.recv, .spawn] = some p' ∧
        p'.config.tasks =
            p.config.tasks ++ [om.machine.start (.processOrder o)] ∧
          p'.moves p.config.tasks.length = true := by
  have hStep :
      (system om workers).step p .recv = some (p.receive o rest) := by
    change step om workers p .recv = _
    simp only [step, hReceiving, hNone, hQueue]
  have hSpawn :=
    @exists_spawn om workers (p.receive o rest) o rfl hFree
  rcases hSpawn with ⟨p', hExec, hBegun⟩
  exact ⟨p', Transition.exec_cons.mpr ⟨_, hStep, hExec⟩, hBegun⟩

/-
  With a worker and a permit there, the pass of the next order
  can be begun at once.
-/
theorem exists_serving
    {o : Order} {rest : List Order}
    (hWorker : 0 < p.idle ∨ p.receiving = true)
    (hFree : 0 < p.permits)
    (hNext :
      p.received.toList ++ p.config.state.chan.queue = o :: rest) :
    ∃ es p',
      Serving es ∧ (system om workers).exec p es = some p' ∧
        p'.config.tasks =
            p.config.tasks ++ [om.machine.start (.processOrder o)] ∧
          p'.moves p.config.tasks.length = true := by
  cases hReceived : p.received with
  | some head =>
      rw [hReceived, Option.toList_some, List.singleton_append,
        List.cons.injEq] at hNext
      rw [hNext.1] at hReceived
      rcases @exists_spawn om workers p o hReceived hFree with
        ⟨p', hExec⟩
      exact ⟨_, p', by simp [Serving], hExec⟩
  | none =>
      rw [hReceived, Option.toList_none, List.nil_append] at hNext
      cases hReceiving : p.receiving with
      | true =>
          rcases @exists_recv om workers p o rest hReceiving hFree
            hReceived hNext with ⟨p', hExec⟩
          exact ⟨_, p', by simp [Serving], hExec⟩
      | false =>
          have hIdle : 0 < p.idle := by
            rcases hWorker with hIdle | hHeld
            · exact hIdle
            · rw [hReceiving] at hHeld
              cases hHeld
          have hLock :
              (system om workers).step p .lock =
                some { p with idle := p.idle - 1, receiving := true } := by
            change step om workers p .lock = _
            simp only [step, hReceiving, hIdle, and_self, if_true]
          rcases @exists_recv om workers
            { p with idle := p.idle - 1, receiving := true } o rest rfl
            hFree hReceived hNext with ⟨p', hExec, hBegun⟩
          exact ⟨[.lock, .recv, .spawn], p', by simp [Serving],
            Transition.exec_cons.mpr ⟨_, hLock, hExec⟩, hBegun⟩

end Permits

end WorkerPool

------------------------------------------------------------
-- Every Run
------------------------------------------------------------

namespace WorkerPool

theorem sound_boot
    (om : OrderManager)
    (workers : ℕ)
    (state : State) :
    Sound om workers state (boot workers state) := by
  constructor
  · exact .nil
  · exact fun hWaits => absurd rfl hWaits
  · exact Nat.zero_add _
  · exact List.nodup_nil
  · rfl
  · exact List.nodup_nil
  · exact fun fate hMem => absurd hMem List.not_mem_nil
  · exact fun tid hMem => absurd hMem List.not_mem_nil

theorem sound_of_exec
    {om : OrderManager}
    {workers : ℕ}
    {state : State}
    {es : List PoolEvent}
    {p : WorkerPool}
    (hExec :
      (system om workers).exec (boot workers state) es = some p) :
    Sound om workers state p := by
  refine Transition.exec_induction
    (P := fun _ p => Sound om workers state p)
    (sound_boot om workers state) ?_ hExec
  intro _ p e p' _ hSound hStep
  exact hSound.step hStep

/- Without such aborts no order is lost. -/
theorem lost_of_meets
    {om : OrderManager}
    {workers : ℕ}
    {state : State}
    {es : List PoolEvent}
    {p : WorkerPool}
    (hExec :
      (system om workers).exec (boot workers state) es = some p)
    (hMeets :
      (system om workers).Meets SparesOrders (boot workers state) es) :
    p.lost = [] := by
  have hBoot : (boot workers state).lost = [] := rfl
  refine Transition.exec_invariant (P := fun _ p => p.lost = []) hBoot ?_
    hMeets hExec
  intro _ p e p' _ hNone hSpares hStep
  exact lost_step hSpares hStep hNone

end WorkerPool

open WorkerPool in
/-
  Of any number of workers, whatever happens in whichever order,
  from a process with nothing in its channel.
-/
theorem conducts_of_exec
    (om : OrderManager)
    (workers : ℕ)
    (db : Database)
    (chain : Chain)
    (seenIds : List OrderId)
    (es : List PoolEvent)
    (p : WorkerPool)
    (hExec :
      (system om workers).exec
        (.boot workers (.boot db chain seenIds)) es = some p) :
    Conducts om workers (.boot db chain seenIds) p ∧
      ((system om workers).Meets SparesOrders
          (.boot workers (.boot db chain seenIds)) es →
        p.lost = []) := by
  have hSound := sound_of_exec hExec
  have hOrder : FirstInFirstOut p.trace p.view.state :=
    firstInFirstOut_of_run rfl hSound.refines
  have hPerm := hSound.underWay_perm
  refine ⟨?_, fun hMeets => lost_of_meets hExec hMeets⟩
  constructor
  · exact hSound.refines
  · rw [hPerm.length_eq]
    exact hSound.free
  · rw [← hSound.taken, List.append_assoc]
    exact hOrder.sent
  · rw [← hSound.taken, List.append_assoc]
    exact hOrder.waits
  · exact hSound.once
  · exact hSound.told
  · exact fun tid hMem => hSound.passes tid (hPerm.mem_iff.mp hMem)
  · intro o rest hWorker hFree hNext
    exact exists_serving hWorker hFree hNext

/- Task `tid` submits an order, which is given `id` and accepted. -/
def acceptedOrder (tid : ℕ) (id : OrderId) : List PoolEvent :=
  (.ext (.submitOrder (sampleOrder "" 1000)) ::
    acceptSteps tid id []).map .manager

/-
  Three orders are accepted, and two of them are in passes; the
  third is lost with the worker that waits for a permit.
-/
def busyWorkers : List PoolEvent :=
  acceptedOrder 0 "a" ++ acceptedOrder 1 "b" ++ acceptedOrder 2 "c" ++
    [.lock, .recv, .spawn, .recv, .spawn, .recv, .abortReceiving]

theorem conducts_busyWorkers :
    ∃ p : WorkerPool,
      p.underWay = [3, 4] ∧
        p.lost.map Order.id = ["c"] ∧ p.permits = 0 ∧
          Conducts sampleManager 2 (sampleState .enabled) p := by
  have hAny :=
    Transition.exists_exec_of_any (WorkerPool.system sampleManager 2)
      (.boot 2 (sampleState .enabled)) busyWorkers
      (fun p =>
        decide
          (p.underWay = [3, 4] ∧ p.lost.map Order.id = ["c"] ∧
            p.permits = 0))
      (by decide +kernel)
  rcases hAny with ⟨p, hExec, hShown⟩
  rcases of_decide_eq_true hShown with ⟨hUnderWay, hLost, hPermits⟩
  exact ⟨p, hUnderWay, hLost, hPermits,
    (conducts_of_exec sampleManager 2 _ _ _ busyWorkers p hExec).1⟩

end Pumpy
