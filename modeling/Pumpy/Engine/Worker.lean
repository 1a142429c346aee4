import Pumpy.Engine.Holding
import Pumpy.Interleaving.Endings

/-
  The worker of a wallet and its incarnations.  Each time the
  supervisor runs the worker it has a manager of its own; the
  database, the chain and the metrics are those of the runs
  before.  The token consumer and the execution workers are
  children of the run and are aborted with it; a pass is not.

  Key definitions include:
    * `ExecutionWorker`
    * `Incarnation`
    * `WorkerState`
    * `WorkerSetup`
    * `WorkerExt`
    * `workerMachine`
    * `StopHolds`
    * `IdleAtStop`

  The main results are `stopHolds_of_idleAtStop` and
  `not_stopHolds`.
-/

------------------------------------------------------------
-- Incarnations
------------------------------------------------------------

namespace Pumpy

open Interleaving

/- Where an execution worker is in its loop. -/
inductive ExecutionWorker where
  | waiting : ExecutionWorker
  -- It has the receiver of the channel.
  | receiving : ExecutionWorker
  -- It has received the order, and waits for a permit.
  | holding (order : Order) : ExecutionWorker
  | gone : ExecutionWorker
deriving DecidableEq

/- The worker has the receiver. -/
def ExecutionWorker.locks : ExecutionWorker → Bool
  | receiving => true
  | holding _ => true
  | _ => false

/-
  What the tasks of one run of the worker share, and its
  children; `stopped` once the run has returned.
-/
structure Incarnation where
  latch : Latch
  maps : OrderMaps
  chan : Channel
  workers : List ExecutionWorker
  consumer : Bool
  stopped : Bool

/- A run of the worker that has just spawned its children. -/
def Incarnation.boot (executionWorkers : Nat) : Incarnation where
  latch := ⟨0, false, false⟩
  maps := ⟨[], false, [], []⟩
  chan := ⟨true, [], []⟩
  workers := List.replicate executionWorkers .waiting
  consumer := true
  stopped := false

/- The incarnations so far, and what they have in common. -/
structure WorkerState where
  db : Database
  chain : Chain
  metrics : Metrics
  seenIds : List OrderId
  incarnations : List Incarnation

namespace WorkerState

/- The worker has not run yet. -/
def boot
    (db : Database)
    (chain : Chain)
    (metrics : Metrics)
    (seenIds : List OrderId) : WorkerState :=
  ⟨db, chain, metrics, seenIds, []⟩

/- What a task of the incarnation sees. -/
def view (s : WorkerState) (w : Incarnation) : State where
  latch := w.latch
  db := s.db
  maps := w.maps
  chan := w.chan
  metrics := s.metrics
  chain := s.chain
  seenIds := s.seenIds

/- Write back what a task of incarnation `i` has changed. -/
def put (s : WorkerState) (i : Nat) (st : State) : WorkerState where
  db := st.db
  chain := st.chain
  metrics := st.metrics
  seenIds := st.seenIds
  incarnations :=
    s.incarnations.modify i fun w =>
      { w with latch := st.latch, maps := st.maps, chan := st.chan }

def exec
    (op : Nat × Op)
    (out : Outcome)
    (s : WorkerState) : Option (op.2.Resp × WorkerState) :=
  match s.incarnations[op.1]? with
  | none => none
  | some w =>
      (State.exec op.2 out (s.view w)).map fun p =>
        (p.1, s.put op.1 p.2)

end WorkerState

------------------------------------------------------------
-- Tasks of a Worker
------------------------------------------------------------

/- Where a task of the worker starts. -/
inductive WorkerRoot where
  | submitOrder (order : Order) : WorkerRoot
  | processOrder (order : Order) : WorkerRoot
  | pauseWallet (reason : String) (rejectCount : UInt32) : WorkerRoot
deriving DecidableEq

def WorkerRoot.root : WorkerRoot → Root
  | submitOrder order => .submitOrder order
  | processOrder order => .processOrder order
  | pauseWallet reason rejectCount => .pauseWallet reason rejectCount

/- The tasks an operation starts. -/
def Op.workerRoots : Op → List WorkerRoot
  | .sys (.spawnPauseWallet reason rejectCount) =>
      [.pauseWallet reason rejectCount]
  | _ => []

/- What a token event and the consumer's own draws fix of an order. -/
structure Snipe where
  mint : String
  id : OrderId
  clientOrderId : Uuid
  traceId : String
  createdAt : Timestamp
  updatedAt : Timestamp
deriving DecidableEq

/- The order the consumer submits on a token event. -/
def Snipe.order (snipe : Snipe) (amount : UInt64) : Order where
  id := snipe.id
  mint := snipe.mint
  orderType := .market
  side := .buy
  amount := amount
  price := none
  maxCost := none
  minOutput := none
  slippageBps := 300
  status := .pending
  strategy := "sniper"
  metadata := []
  createdAt := snipe.createdAt
  updatedAt := snipe.updatedAt
  executedAt := none
  signature := none
  error := none
  retryCount := 0
  executedPrice := none
  executedAmount := none
  clientOrderId := some snipe.clientOrderId
  traceId := some snipe.traceId

/- What a run of the worker is configured with. -/
structure WorkerSetup where
  manager : OrderManager
  executionWorkers : Nat
  autoSnipe : Bool
  snipeAmountLamports : UInt64

/- A child of the run whose doings matter to an order. -/
inductive Child where
  | consumer : Child
  | worker (n : Nat) : Child
deriving DecidableEq

/- `abort_all` drops the children, but for those just being polled. -/
def Incarnation.stop (w : Incarnation) (polled : List Child) : Incarnation :=
  { w with
    workers :=
      w.workers.mapIdx fun n worker =>
        if .worker n ∈ polled then worker else .gone
    consumer := w.consumer && .consumer ∈ polled
    stopped := true }

/- The child is dropped. -/
def Incarnation.drop (w : Incarnation) : Child → Incarnation
  | .consumer => { w with consumer := false }
  | .worker n => { w with workers := w.workers.set n .gone }

/- The process ends. -/
def Incarnation.kill (w : Incarnation) : Incarnation :=
  w.stop []

/- Nothing is left of the run that owns its manager. -/
def Incarnation.isOver (w : Incarnation) : Bool :=
  w.stopped && !w.consumer && w.workers.all (· = .gone)

/-
  What happens outside the tasks.  The supervisor runs the
  worker; its consumer hears of a token; one of its execution
  workers gets the receiver, takes an order off the channel, or
  gets a permit for it and spawns its pass (when a permit is
  free is left open here).  A child ends, and the run aborts the
  others and returns: they are dropped where they are suspended,
  or, if they are just being polled on another thread, when they
  next yield.  The receiver goes with the last owner of the
  manager.
-/
inductive WorkerExt where
  | start : WorkerExt
  | tokenEvent (i : Nat) (snipe : Snipe) : WorkerExt
  | lock (i n : Nat) : WorkerExt
  | recv (i n : Nat) (order : Order) : WorkerExt
  | spawn (i n : Nat) (order : Order) : WorkerExt
  | childEnds (i : Nat) (polled : List Child) : WorkerExt
  | childYields (i : Nat) (child : Child) : WorkerExt
  | closeChannel (i : Nat) : WorkerExt
  | setStatus (st : WalletStatus) : WorkerExt
  | land (tx : Transaction) : WorkerExt
  | restart : WorkerExt
deriving DecidableEq

/- A worker gets the receiver, unless another one has it. -/
def Incarnation.lock (w : Incarnation) (n : Nat) : Option Incarnation :=
  if w.workers[n]? = some .waiting ∧ ¬w.workers.any (·.locks) then
    some { w with workers := w.workers.set n .receiving }
  else
    none

/- It receives the order at the head of the channel. -/
def Incarnation.recv
    (w : Incarnation)
    (n : Nat)
    (order : Order) : Option Incarnation :=
  match w.chan.queue with
  | [] => none
  | head :: queue =>
      if w.workers[n]? = some .receiving ∧ head = order then
        some
          { w with
            chan := { w.chan with queue := queue }
            workers := w.workers.set n (.holding order) }
      else
        none

/- It spawns the pass of the order. -/
def Incarnation.spawn
    (w : Incarnation)
    (n : Nat)
    (order : Order) : Option Incarnation :=
  if w.workers[n]? = some (.holding order) then
    some { w with workers := w.workers.set n .receiving }
  else
    none

namespace WorkerState

/- What is done to incarnation `i`, if it can be done. -/
def update
    (s : WorkerState)
    (i : Nat)
    (f : Incarnation → Option Incarnation) : Option WorkerState :=
  match s.incarnations[i]? with
  | none => none
  | some w =>
      (f w).map fun w' =>
        { s with incarnations := s.incarnations.set i w' }

end WorkerState

namespace WorkerExt

def exec
    (setup : Nat → WorkerSetup) :
    WorkerExt → WorkerState → Option WorkerState
  | start, s =>
      if s.incarnations.all (·.stopped) then
        let i := s.incarnations.length
        some
          { s with
            incarnations :=
              s.incarnations ++ [.boot (setup i).executionWorkers] }
      else
        none
  | tokenEvent i _, s =>
      s.update i fun w =>
        if w.consumer ∧ (setup i).autoSnipe then some w else none
  | lock i n, s => s.update i (·.lock n)
  | recv i n order, s => s.update i (·.recv n order)
  | spawn i n order, s => s.update i (·.spawn n order)
  | childEnds i polled, s =>
      s.update i fun w => if w.stopped then none else some (w.stop polled)
  | childYields i child, s =>
      s.update i fun w => if w.stopped then some (w.drop child) else none
  | closeChannel i, s =>
      s.update i fun w =>
        if w.isOver then
          some
            { w with
              chan := { w.chan with receiverAlive := false, queue := [] } }
        else
          none
  | setStatus st, s =>
      some
        { s with
          db :=
            { s.db with
              registryStatus := s.db.registryStatus.map fun _ => st
              configStatus := s.db.configStatus.map fun _ => st } }
  | land tx, s =>
      if tx ∈ s.chain.accepted ∧ tx ∉ s.chain.landed then
        some
          { s with
            chain := { s.chain with landed := tx :: s.chain.landed } }
      else
        none
  | restart, s =>
      some { s with incarnations := s.incarnations.map (·.kill) }

/- The tasks an outside event starts. -/
def roots (setup : Nat → WorkerSetup) :
    WorkerExt → List (Nat × WorkerRoot)
  | tokenEvent i snipe =>
      [(i, .submitOrder (snipe.order (setup i).snipeAmountLamports))]
  | spawn i _ order => [(i, .processOrder order)]
  | _ => []

/-
  A submission is dropped with the consumer.  Passes were
  spawned apart from the children and go on.
-/
def kills : WorkerExt → Nat → Nat × WorkerRoot → Bool
  | childEnds i polled, _, (j, .submitOrder _) =>
      j = i ∧ .consumer ∉ polled
  | childYields i child, _, (j, .submitOrder _) =>
      j = i ∧ child = .consumer
  | restart, _, _ => true
  | _, _, _ => false

end WorkerExt

/- The worker of a wallet; `setup i` is what run `i` reads. -/
def workerMachine
    (setup : Nat → WorkerSetup) :
    Machine (Nat × Op) (fun op => op.2.Resp) Outcome WorkerExt
      WorkerState (Nat × WorkerRoot) Ret where
  exec := WorkerState.exec
  ext := WorkerExt.exec setup
  body := fun root =>
    ((setup root.1).manager.body root.2.root).mark root.1
  opRoots := fun op => op.2.workerRoots.map (op.1, ·)
  extRoots := WorkerExt.roots setup
  kills := WorkerExt.kills

/- Events of the worker. -/
abbrev WorkerEvent :=
  Event (Nat × Op) (fun op => op.2.Resp) Outcome WorkerExt

/- Conditions on its steps. -/
abbrev WorkerCond :=
  Machine.StepCond (Nat × Op) (fun op => op.2.Resp) Outcome WorkerExt
    WorkerState

/- Configurations of it. -/
abbrev WorkerConfig :=
  Config (Nat × Op) (fun op => op.2.Resp) WorkerState
    (Nat × WorkerRoot) Ret

/- Programs of its tasks. -/
abbrev WorkerProg := Prog (Nat × Op) (fun op => op.2.Resp)

/- Its tasks. -/
abbrev IncarnationTask :=
  Task (Nat × Op) (fun op => op.2.Resp) (Nat × WorkerRoot) Ret

------------------------------------------------------------
-- What a Stop Promises
------------------------------------------------------------

/- The operation submits a trade, or changes or moves an order. -/
def Op.touches : Op → Bool
  | .db (.insertOrder _) => true
  | .db (.updateOrder _) => true
  | .db (.insertTrade _) => true
  | .map .activeValues => false
  | .map .activeLock => false
  | .map .activeUnlock => false
  | .map _ => true
  | .chan (.orderSend _) => true
  | .chain (.sendAndConfirmTransaction _) => true
  | .chain (.sendBundle _) => true
  | _ => false

/-
  Once a run of the worker has returned, its tasks touch no
  order and submit nothing, and no order is in a pass of it, so
  that the next run's exposure is all there is.
-/
structure StopHolds
    (tr : List WorkerEvent)
    (c : WorkerConfig) : Prop where
  quiet :
    ∀ pre post i polled tid op env r,
      tr = pre ++ .ext (.childEnds i polled) :: post →
        .op tid (i, op) env r ∈ post → op.touches = false
  drained :
    ∀ i polled,
      .ext (.childEnds i polled) ∈ tr →
        ∀ task ∈ c.tasks, ∀ o op k,
          task.root = (i, .processOrder o) →
            task.prog ≠ some (.act op k)

------------------------------------------------------------
-- A Stopped Worker Trades
------------------------------------------------------------

def workerSteps (tid : Nat) (outs : List Outcome) :
    List (Machine.Choice Outcome WorkerExt) :=
  outs.map (.task tid)

def sampleSetup : WorkerSetup where
  manager := sampleManager
  executionWorkers := 2
  autoSnipe := true
  snipeAmountLamports := 1000

def sampleSnipe : Snipe where
  mint := "mint"
  id := ""
  clientOrderId := 0
  traceId := ""
  createdAt := 0
  updatedAt := 0

def sampleWorkerState : WorkerState :=
  .boot (sampleDatabase .enabled) ⟨[], []⟩ ⟨fun _ => 0, fun _ => 0⟩ []

/- The worker runs and its consumer has an order accepted as "a". -/
def snipedSchedule : List (Machine.Choice Outcome WorkerExt) :=
  [.ext .start, .ext (.tokenEvent 0 sampleSnipe)] ++
    workerSteps 0
      [.fresh "a", .iteration [], .plain, .plain, .plain, .plain,
        .plain, .time 0, .time 0, .stmt .done, .plain, .plain, .plain,
        .plain]

/- An execution worker takes the order, and spawns its pass. -/
def takenSchedule : List (Machine.Choice Outcome WorkerExt) :=
  let order := { sampleSnipe.order 1000 with id := "a" }
  snipedSchedule ++
    [.ext (.lock 0 0), .ext (.recv 0 0 order), .ext (.spawn 0 0 order)]

/-
  The order's pass is past its gate when a child panics.  The
  worker is run again, and the pass submits the trade.
-/
def stoppedTradeSchedule : List (Machine.Choice Outcome WorkerExt) :=
  takenSchedule ++
    workerSteps 1
      [.plain, .plain, .plain, .risk 0, .curve (.error "no curve"),
        .iteration
          [{ sampleSnipe.order 1000 with
              id := "a", status := .validating }],
        .plain, .plain, .plain, .plain, .time 0, .plain,
        .unit (.ok ()), .deadline false] ++
    [.ext (.childEnds 0 []), .ext .start] ++
    workerSteps 1
      [.blockhash (.ok 7), .deadline false,
        .submit true (.ok "signature")]

/- The first run has stopped, and a task of it has submitted a trade. -/
def tradesStopped : List WorkerEvent → Bool
  | [] => false
  | .ext (.childEnds 0 _) :: post =>
      post.any fun e =>
        match e with
        | .op _ (0, op) _ _ => op.touches
        | _ => false
  | _ :: post => tradesStopped post

theorem trades_of_tradesStopped
    {tr : List WorkerEvent}
    (hTrades : tradesStopped tr = true) :
    ∃ pre post polled tid op env r,
      tr = pre ++ .ext (.childEnds 0 polled) :: post ∧
        .op tid (0, op) env r ∈ post ∧ op.touches = true := by
  induction tr with
  | nil => cases hTrades
  | cons e tr ih =>
      have hLater :
          tradesStopped tr = true →
            ∃ pre post polled tid op env r,
              e :: tr = pre ++ .ext (.childEnds 0 polled) :: post ∧
                .op tid (0, op) env r ∈ post ∧ op.touches = true := by
        intro hTail
        rcases ih hTail with ⟨pre, post, polled, tid, op, env, r, rfl, hOp⟩
        exact ⟨e :: pre, post, polled, tid, op, env, r, rfl, hOp⟩
      unfold tradesStopped at hTrades
      split at hTrades
      · rename_i hEq
        cases hEq
      · rename_i polled post hEq
        cases hEq
        rcases List.any_eq_true.mp hTrades with ⟨e', hMem, hTouches⟩
        split at hTouches
        · exact ⟨[], tr, polled, _, _, _, _, rfl, hMem, hTouches⟩
        · cases hTouches
      · rename_i hEq
        cases hEq
        exact hLater hTrades

/- A run of the worker has returned, and a pass of it trades. -/
theorem not_stopHolds :
    ¬∀ (setup : Nat → WorkerSetup) (db : Database) (chain : Chain)
        (metrics : Metrics) (seenIds : List OrderId)
        (tr : List WorkerEvent) (c : WorkerConfig),
        Machine.Run (workerMachine setup) Machine.anyStep
            (.boot db chain metrics seenIds) tr c →
          StopHolds tr c := by
  intro hHolds
  have hPlay :=
    Machine.exists_run_of_play (workerMachine fun _ => sampleSetup)
      sampleWorkerState stoppedTradeSchedule
      (fun tr _ => tradesStopped tr)
      (by decide +kernel)
  rcases hPlay with ⟨tr, c, hRun, hTrades⟩
  rcases trades_of_tradesStopped hTrades with
    ⟨pre, post, polled, tid, op, env, r, hSplit, hMem, hTouches⟩
  have hQuiet :=
    (hHolds _ _ _ _ _ tr c hRun).quiet pre post 0 polled tid op env r
      hSplit hMem
  rw [hTouches] at hQuiet
  cases hQuiet

------------------------------------------------------------
-- Stopping while Nothing Is in Flight
------------------------------------------------------------

/- The task has neither returned nor panicked. -/
def InFlight
    (setup : Nat → WorkerSetup)
    (tr : List WorkerEvent)
    (tid : Nat)
    (root : Nat × WorkerRoot) : Prop :=
  ((workerMachine setup).rootsIn tr)[tid]? = some root ∧
    ∃ op k,
      ((workerMachine setup).body root).After (Machine.calls tr tid)
        (.act op k)

/-
  When a child ends, no order is in a pass of the run.  A child
  that is just being polled then has nothing in hand: the
  consumer no submission, an execution worker no order and none
  to receive; and it takes nothing up any more.
-/
structure IdleAtStop
    (setup : Nat → WorkerSetup)
    (tr : List WorkerEvent)
    (s : WorkerState)
    (e : WorkerEvent) : Prop where
  passes :
    ∀ i polled tid o,
      e = .ext (.childEnds i polled) →
        ¬InFlight setup tr tid (i, .processOrder o)
  submissions :
    ∀ i polled tid o,
      e = .ext (.childEnds i polled) →
        .consumer ∈ polled →
          ¬InFlight setup tr tid (i, .submitOrder o)
  orders :
    ∀ i polled n w worker,
      e = .ext (.childEnds i polled) →
        .worker n ∈ polled →
          s.incarnations[i]? = some w →
            w.workers[n]? = some worker →
              w.chan.queue = [] ∧ ∀ o, worker ≠ .holding o
  tokens :
    ∀ i snipe w,
      e = .ext (.tokenEvent i snipe) →
        s.incarnations[i]? = some w → w.stopped = false

------------------------------------------------------------
-- Stopped Incarnations
------------------------------------------------------------

namespace WorkerState

/- Which incarnations have stopped. -/
def stops (s : WorkerState) : List Bool :=
  s.incarnations.map (·.stopped)

def Stopped (s : WorkerState) (i : Nat) : Prop :=
  s.stops[i]? = some true

variable {s s' : WorkerState} {i : Nat}

theorem stops_put (st : State) :
    (s.put i st).stops = s.stops := by
  apply List.ext_getElem?
  intro j
  simp only [stops, put, List.getElem?_map, List.getElem?_modify]
  cases s.incarnations[j]? with
  | none => rfl
  | some w =>
      simp only [Option.map_some, Option.map_eq_map]
      split <;> rfl

/- Say once what doing something to an incarnation does. -/
theorem update_eq
    {f : Incarnation → Option Incarnation}
    (hUpdate : s.update i f = some s') :
    ∃ w w',
      s.incarnations[i]? = some w ∧ f w = some w' ∧
        s' = { s with incarnations := s.incarnations.set i w' } := by
  unfold update at hUpdate
  split at hUpdate
  · cases hUpdate
  · rename_i w hAt
    rcases Option.map_eq_some_iff.mp hUpdate with ⟨w', hW, rfl⟩
    exact ⟨w, w', hAt, hW, rfl⟩

theorem stops_update
    {f : Incarnation → Option Incarnation}
    {now : Bool → Bool}
    (hUpdate : s.update i f = some s')
    (hNow : ∀ w w', f w = some w' → w'.stopped = now w.stopped) :
    s'.stops = s.stops.modify i now := by
  rcases update_eq hUpdate with ⟨w, w', hAt, hW, rfl⟩
  apply List.ext_getElem?
  intro j
  simp only [stops, List.getElem?_map, List.getElem?_modify,
    List.getElem?_set]
  by_cases hSame : i = j
  · subst hSame
    rcases List.getElem?_eq_some_iff.mp hAt with ⟨hLt, rfl⟩
    simp [hLt, hNow _ _ hW]
  · simp [hSame]

theorem stops_update_same
    {f : Incarnation → Option Incarnation}
    (hUpdate : s.update i f = some s')
    (hSame : ∀ w w', f w = some w' → w'.stopped = w.stopped) :
    s'.stops = s.stops := by
  have hSame' : ∀ w w', f w = some w' → w'.stopped = id w.stopped :=
    hSame
  rw [stops_update hUpdate hSame']
  exact List.modify_id _ _

/- An incarnation has stopped exactly if it says so. -/
theorem stopped_iff
    {w : Incarnation}
    (hAt : s.incarnations[i]? = some w) :
    s.Stopped i ↔ w.stopped = true := by
  rw [Stopped, stops, List.getElem?_map, hAt, Option.map_some,
    Option.some.injEq]

end WorkerState

namespace Incarnation

variable {w w' : Incarnation} {n : Nat} {order : Order}

theorem stopped_lock (hLock : w.lock n = some w') :
    w'.stopped = w.stopped := by
  rcases Option.ite_none_right_eq_some.mp hLock with ⟨_, hEq⟩
  cases hEq
  rfl

theorem stopped_recv (hRecv : w.recv n order = some w') :
    w'.stopped = w.stopped := by
  unfold recv at hRecv
  split at hRecv
  · cases hRecv
  · rcases Option.ite_none_right_eq_some.mp hRecv with ⟨_, hEq⟩
    cases hEq
    rfl

theorem stopped_spawn (hSpawn : w.spawn n order = some w') :
    w'.stopped = w.stopped := by
  rcases Option.ite_none_right_eq_some.mp hSpawn with ⟨_, hEq⟩
  cases hEq
  rfl

theorem stopped_drop (child : Child) :
    (w.drop child).stopped = w.stopped := by
  cases child <;> rfl

end Incarnation

/- Which incarnations have stopped after the event. -/
def WorkerExt.stops : WorkerExt → List Bool → List Bool
  | start, l => l ++ [false]
  | childEnds i _, l => l.modify i fun _ => true
  | restart, l => l.map fun _ => true
  | _, l => l

theorem WorkerExt.stops_exec
    {setup : Nat → WorkerSetup} {e : WorkerExt} {s s' : WorkerState}
    (hExt : e.exec setup s = some s') :
    s'.stops = e.stops s.stops := by
  cases e with
  | start =>
      rcases Option.ite_none_right_eq_some.mp hExt with ⟨_, hEq⟩
      cases hEq
      simp [WorkerState.stops, WorkerExt.stops, Incarnation.boot]
  | tokenEvent i snipe =>
      apply WorkerState.stops_update_same hExt
      intro w w' hW
      rcases Option.ite_none_right_eq_some.mp hW with ⟨_, hEq⟩
      cases hEq
      rfl
  | lock i n =>
      exact WorkerState.stops_update_same hExt fun _ _ =>
        Incarnation.stopped_lock
  | recv i n order =>
      exact WorkerState.stops_update_same hExt fun _ _ =>
        Incarnation.stopped_recv
  | spawn i n order =>
      exact WorkerState.stops_update_same hExt fun _ _ =>
        Incarnation.stopped_spawn
  | childEnds i polled =>
      apply WorkerState.stops_update hExt
      intro w w' hW
      rcases Option.ite_none_left_eq_some.mp hW with ⟨_, hEq⟩
      cases hEq
      rfl
  | childYields i child =>
      apply WorkerState.stops_update_same hExt
      intro w w' hW
      rcases Option.ite_none_right_eq_some.mp hW with ⟨_, hEq⟩
      cases hEq
      exact Incarnation.stopped_drop child
  | closeChannel i =>
      apply WorkerState.stops_update_same hExt
      intro w w' hW
      rcases Option.ite_none_right_eq_some.mp hW with ⟨_, hEq⟩
      cases hEq
      rfl
  | setStatus st =>
      cases hExt
      rfl
  | land tx =>
      rcases Option.ite_none_right_eq_some.mp hExt with ⟨_, hEq⟩
      cases hEq
      rfl
  | restart =>
      cases hExt
      simp only [WorkerState.stops, WorkerExt.stops, List.map_map]
      rfl

------------------------------------------------------------
-- Orders of a Stopped Incarnation
------------------------------------------------------------

/- None of its execution workers has an order, or can get one. -/
def Incarnation.Spent (w : Incarnation) : Prop :=
  (∀ worker ∈ w.workers, worker = .gone) ∨
    (w.chan.queue = [] ∧ ∀ o, .holding o ∉ w.workers)

namespace Incarnation

variable {w w' : Incarnation} {n : Nat} {order : Order}

/- What becomes of one worker, where the channel is as it was. -/
theorem Spent.set
    {worker : ExecutionWorker}
    (hSpent : w.Spent)
    (hIdle : ∀ o, worker ≠ .holding o)
    (hGone :
      (∀ worker ∈ w.workers, worker = .gone) → worker = .gone) :
    Spent { w with workers := w.workers.set n worker } := by
  rcases hSpent with hAll | ⟨hQueue, hNone⟩
  · left
    intro other hMem
    rcases List.mem_or_eq_of_mem_set hMem with hOld | rfl
    · exact hAll other hOld
    · exact hGone hAll
  · right
    refine ⟨hQueue, fun o hMem => ?_⟩
    rcases List.mem_or_eq_of_mem_set hMem with hOld | hNew
    · exact hNone o hOld
    · exact hIdle o hNew.symm

theorem Spent.lock
    (hSpent : w.Spent)
    (hLock : w.lock n = some w') :
    w'.Spent := by
  rcases Option.ite_none_right_eq_some.mp hLock with ⟨⟨hAt, _⟩, hEq⟩
  cases hEq
  apply hSpent.set
  · intro o hSame
    cases hSame
  · intro hAll
    cases hAll _ (List.mem_of_getElem? hAt)

/- There is nothing to receive. -/
theorem Spent.not_recv
    (hSpent : w.Spent) :
    w.recv n order = none := by
  unfold recv
  split
  · rfl
  · rename_i hQueue
    apply if_neg
    rintro ⟨hAt, _⟩
    rcases hSpent with hAll | ⟨hNone, _⟩
    · cases hAll _ (List.mem_of_getElem? hAt)
    · rw [hNone] at hQueue
      cases hQueue

/- No worker holds an order to spawn the pass of. -/
theorem Spent.not_spawn
    (hSpent : w.Spent) :
    w.spawn n order = none := by
  apply if_neg
  intro hAt
  have hMem := List.mem_of_getElem? hAt
  rcases hSpent with hAll | ⟨_, hNone⟩
  · cases hAll _ hMem
  · exact hNone order hMem

theorem Spent.drop
    (hSpent : w.Spent)
    (child : Child) :
    (w.drop child).Spent := by
  cases child with
  | consumer => exact hSpent
  | worker n =>
      apply hSpent.set
      · intro o hSame
        cases hSame
      · exact fun _ => rfl

/- What the aborted children leave behind. -/
theorem spent_stop
    {polled : List Child}
    (hIdle :
      ∀ n worker,
        .worker n ∈ polled →
          w.workers[n]? = some worker →
            w.chan.queue = [] ∧ ∀ o, worker ≠ .holding o) :
    (w.stop polled).Spent := by
  by_cases hPolled :
      ∃ n worker, .worker n ∈ polled ∧ w.workers[n]? = some worker
  · right
    rcases hPolled with ⟨n, worker, hMem, hAt⟩
    refine ⟨(hIdle n worker hMem hAt).1, fun o hHolds => ?_⟩
    rcases List.mem_mapIdx.mp hHolds with ⟨m, hLt, hEq⟩
    split at hEq
    · rename_i hKept
      exact (hIdle m _ hKept (List.getElem?_eq_getElem hLt)).2 o hEq
    · cases hEq
  · left
    intro worker hMem
    rcases List.mem_mapIdx.mp hMem with ⟨m, hLt, rfl⟩
    split
    · rename_i hKept
      exact absurd ⟨m, _, hKept, List.getElem?_eq_getElem hLt⟩ hPolled
    · rfl

theorem spent_kill : w.kill.Spent :=
  spent_stop fun _ _ hMem => absurd hMem List.not_mem_nil

end Incarnation

/- So it is with every incarnation that has stopped. -/
def WorkerState.AllSpent (s : WorkerState) : Prop :=
  ∀ (i : Nat) (w : Incarnation),
    s.incarnations[i]? = some w → w.stopped = true → w.Spent

namespace WorkerState

variable {setup : Nat → WorkerSetup} {s s' : WorkerState} {i : Nat}

theorem AllSpent.update
    {f : Incarnation → Option Incarnation}
    (hAll : s.AllSpent)
    (hUpdate : s.update i f = some s')
    (hSpent :
      ∀ w w',
        s.incarnations[i]? = some w → f w = some w' →
          w'.stopped = true → w'.Spent) :
    s'.AllSpent := by
  rcases update_eq hUpdate with ⟨w, w', hAt, hW, rfl⟩
  unfold AllSpent
  intro j v hV hStopped
  rw [List.getElem?_set] at hV
  split at hV
  · rename_i hSame
    subst hSame
    rw [if_pos (List.getElem?_eq_some_iff.mp hAt).1,
      Option.some.injEq] at hV
    subst hV
    exact hSpent w w' hAt hW hStopped
  · exact hAll j v hV hStopped

/- What is done to it, whether it has stopped or not. -/
theorem AllSpent.goesOn
    {f : Incarnation → Option Incarnation}
    (hAll : s.AllSpent)
    (hUpdate : s.update i f = some s')
    (hSame : ∀ w w', f w = some w' → w'.stopped = w.stopped)
    (hSpent : ∀ w w', f w = some w' → w.Spent → w'.Spent) :
    s'.AllSpent := by
  apply hAll.update hUpdate
  intro w w' hAt hW hStopped
  rw [hSame w w' hW] at hStopped
  exact hSpent w w' hW (hAll i w hAt hStopped)

theorem AllSpent.ext
    {tr : List WorkerEvent} {e : WorkerExt}
    (hAll : s.AllSpent)
    (hCond : IdleAtStop setup tr s (.ext e))
    (hExt : e.exec setup s = some s') :
    s'.AllSpent := by
  cases e with
  | start =>
      rcases Option.ite_none_right_eq_some.mp hExt with ⟨_, hEq⟩
      cases hEq
      unfold AllSpent
      intro i w hAt hStopped
      rw [List.getElem?_append] at hAt
      split at hAt
      · exact hAll i w hAt hStopped
      · cases List.mem_singleton.mp (List.mem_of_getElem? hAt)
        cases hStopped
  | tokenEvent i snipe =>
      apply hAll.goesOn hExt
      · intro w w' hW
        cases (Option.ite_none_right_eq_some.mp hW).2
        rfl
      · intro w w' hW hSpent
        cases (Option.ite_none_right_eq_some.mp hW).2
        exact hSpent
  | lock i n =>
      apply hAll.goesOn hExt
      · exact fun _ _ => Incarnation.stopped_lock
      · exact fun _ _ hLock hSpent => hSpent.lock hLock
  | recv i n order =>
      apply hAll.goesOn hExt
      · exact fun _ _ => Incarnation.stopped_recv
      · intro w w' hRecv hSpent
        rw [hSpent.not_recv] at hRecv
        cases hRecv
  | spawn i n order =>
      apply hAll.goesOn hExt
      · exact fun _ _ => Incarnation.stopped_spawn
      · intro w w' hSpawn hSpent
        rw [hSpent.not_spawn] at hSpawn
        cases hSpawn
  | childEnds i polled =>
      apply hAll.update hExt
      intro w w' hAt hW _
      cases (Option.ite_none_left_eq_some.mp hW).2
      apply Incarnation.spent_stop
      intro n worker hMem hWorker
      exact hCond.orders i polled n w worker rfl hMem hAt hWorker
  | childYields i child =>
      apply hAll.goesOn hExt
      · intro w w' hW
        cases (Option.ite_none_right_eq_some.mp hW).2
        exact Incarnation.stopped_drop child
      · intro w w' hW hSpent
        cases (Option.ite_none_right_eq_some.mp hW).2
        exact hSpent.drop child
  | closeChannel i =>
      apply hAll.goesOn hExt
      · intro w w' hW
        cases (Option.ite_none_right_eq_some.mp hW).2
        rfl
      · intro w w' hW hSpent
        cases (Option.ite_none_right_eq_some.mp hW).2
        exact hSpent.imp id fun hNone => ⟨rfl, hNone.2⟩
  | setStatus st =>
      cases hExt
      exact hAll
  | land tx =>
      cases (Option.ite_none_right_eq_some.mp hExt).2
      exact hAll
  | restart =>
      cases hExt
      unfold AllSpent
      intro i w hAt _
      rcases List.mem_map.mp (List.mem_of_getElem? hAt) with ⟨v, _, rfl⟩
      exact Incarnation.spent_kill

end WorkerState

section Stopped

variable {setup : Nat → WorkerSetup} {C : WorkerCond}
variable {s₀ : WorkerState} {tr : List WorkerEvent}
variable {c c' : WorkerConfig} {e : WorkerEvent} {i : Nat}

theorem stops_of_exec
    {op : Nat × Op} {env : Outcome} {r : op.2.Resp}
    {s s' : WorkerState}
    (hExec : WorkerState.exec op env s = some (r, s')) :
    s'.stops = s.stops := by
  unfold WorkerState.exec at hExec
  split at hExec
  · cases hExec
  · rcases Option.map_eq_some_iff.mp hExec with ⟨p, _, hEq⟩
    cases hEq
    exact WorkerState.stops_put p.2

/- What has stopped stays so. -/
theorem stopped_step
    (hStep : Machine.Step (workerMachine setup) c e c')
    (hStopped : c.state.Stopped i) :
    c'.state.Stopped i := by
  unfold WorkerState.Stopped at *
  cases hStep with
  | op hTask hExec =>
      have hExec : WorkerState.exec _ _ _ = some _ := hExec
      rw [stops_of_exec hExec]
      exact hStopped
  | @ext s s' tasks e hExt =>
      have hExt : e.exec setup s = some s' := hExt
      have hLt := (List.getElem?_eq_some_iff.mp hStopped).1
      rw [WorkerExt.stops_exec hExt]
      cases e with
      | start =>
          rw [WorkerExt.stops, List.getElem?_append_left hLt]
          exact hStopped
      | childEnds j polled =>
          rw [WorkerExt.stops, List.getElem?_modify, hStopped]
          by_cases hSame : j = i
          · simp [hSame]
          · simp [hSame]
      | restart =>
          rw [WorkerExt.stops, List.getElem?_map, hStopped]
          rfl
      | _ => exact hStopped

/- A run stops when a child ends, or with the process. -/
theorem stopped_before
    (hStep : Machine.Step (workerMachine setup) c e c')
    (hStopped : c'.state.Stopped i) :
    c.state.Stopped i ∨ (∃ polled, e = .ext (.childEnds i polled)) ∨
      e = .ext .restart := by
  unfold WorkerState.Stopped at *
  cases hStep with
  | op hTask hExec =>
      have hExec : WorkerState.exec _ _ _ = some _ := hExec
      rw [stops_of_exec hExec] at hStopped
      exact .inl hStopped
  | @ext s s' tasks e hExt =>
      have hExt : e.exec setup s = some s' := hExt
      rw [WorkerExt.stops_exec hExt] at hStopped
      cases e with
      | start =>
          rw [WorkerExt.stops, List.getElem?_append] at hStopped
          split at hStopped
          · exact .inl hStopped
          · have hMem := List.mem_of_getElem? hStopped
            simp at hMem
      | childEnds j polled =>
          by_cases hSame : j = i
          · exact .inr (.inl ⟨polled, by rw [hSame]⟩)
          · rw [WorkerExt.stops, List.getElem?_modify] at hStopped
            simp only [hSame, if_false, Option.map_eq_map,
              Option.map_id_fun', id_eq] at hStopped
            exact .inl hStopped
      | restart => exact .inr (.inr rfl)
      | _ => exact .inl hStopped

/- The run whose child has ended has stopped. -/
theorem stopped_of_childEnds
    {polled : List Child}
    (hRun : Machine.Run (workerMachine setup) C s₀ tr c)
    (hEnds : .ext (.childEnds i polled) ∈ tr) :
    c.state.Stopped i := by
  induction hRun with
  | nil => cases hEnds
  | @snoc tr c c' e _ _ hStep ih =>
      rcases List.mem_append.mp hEnds with hBefore | hNow
      · exact stopped_step hStep (ih hBefore)
      · rw [List.mem_singleton] at hNow
        subst hNow
        cases hStep with
        | @ext s s' tasks e hExt =>
            rcases WorkerState.update_eq hExt with ⟨w, w', hAt, hW, rfl⟩
            cases (Option.ite_none_left_eq_some.mp hW).2
            have hLt := (List.getElem?_eq_some_iff.mp hAt).1
            have hNow :
                (s.incarnations.set i (w.stop polled))[i]? =
                  some (w.stop polled) := by
              rw [List.getElem?_set_self hLt]
            exact (WorkerState.stopped_iff hNow).mpr rfl

------------------------------------------------------------
-- Tasks of a Stopped Incarnation
------------------------------------------------------------

/- Pausing a wallet touches no order. -/
theorem touches_pauseWallet
    (reason : String)
    (rejectCount : UInt32) :
    (pauseWallet reason rejectCount).Always (·.touches = false) := by
  refine Prog.always_act rfl fun _ => ?_
  refine Prog.always_act rfl fun _ => ?_
  refine Prog.always_act rfl fun _ => ?_
  exact Prog.always_done _

/- A task of incarnation `i` executes in `i` what its body may. -/
theorem executes_of_task
    {tid : Nat} {root : Nat × WorkerRoot} {op : Nat × Op}
    {k : op.2.Resp → WorkerProg Ret}
    (hRun : Machine.Run (workerMachine setup) C s₀ tr c)
    (hTask : c.tasks[tid]? = some ⟨root, some (.act op k)⟩) :
    op.1 = root.1 ∧
      ((setup root.1).manager.body root.2.root).CanExecute op.2 :=
  Prog.canExecute_mark (hRun.after_calls hTask).canExecute_next

/- Of the task's work only the pause of a wallet is left, if any is. -/
def Idle (task : IncarnationTask) : Prop :=
  ∀ op k,
    task.prog = some (.act op k) →
      ∃ reason rejectCount, task.root.2 = .pauseWallet reason rejectCount

/- No task of a stopped incarnation has anything else to do. -/
def StoppedIdle (c : WorkerConfig) : Prop :=
  ∀ i, c.state.Stopped i → ∀ task ∈ c.tasks, task.root.1 = i → Idle task

/- A task that survives an outside event had been there. -/
theorem survivor
    {ext : WorkerExt}
    {tasks : List IncarnationTask}
    {task : IncarnationTask}
    (hMem : task ∈ tasks.mapIdx ((workerMachine setup).survive ext)) :
    task.prog = none ∨
      ∃ tid, tasks[tid]? = some task ∧ ext.kills tid task.root = false := by
  rcases List.mem_mapIdx.mp hMem with ⟨tid, hLt, rfl⟩
  cases hKills : ext.kills tid tasks[tid].root with
  | true =>
      have hKilled :
          (workerMachine setup).kills ext tid tasks[tid].root = true :=
        hKills
      exact .inl (by simp [Machine.survive, hKilled])
  | false =>
      have hSpared :
          (workerMachine setup).kills ext tid tasks[tid].root = false :=
        hKills
      have hSame :
          (workerMachine setup).survive ext tid tasks[tid] =
            tasks[tid] := by
        simp [Machine.survive, hSpared]
      rw [hSame]
      exact .inr ⟨tid, List.getElem?_eq_getElem hLt, hKills⟩

theorem idle_of_none
    {task : IncarnationTask}
    (hNone : task.prog = none) :
    Idle task := by
  intro op k hProg
  rw [hNone] at hProg
  cases hProg

/- The tasks an operation starts only pause the wallet. -/
theorem idle_opRoots
    {op : Nat × Op}
    {task : IncarnationTask}
    (hMem :
      task ∈ ((workerMachine setup).opRoots op).map
        (workerMachine setup).start) :
    Idle task := by
  rcases List.mem_map.mp hMem with ⟨root, hRoot, rfl⟩
  rcases List.mem_map.mp hRoot with ⟨root', hRoot', rfl⟩
  intro op' k _
  unfold Op.workerRoots at hRoot'
  split at hRoot'
  · rename_i reason rejectCount _
    exact ⟨reason, rejectCount, List.mem_singleton.mp hRoot'⟩
  · cases hRoot'

theorem StoppedIdle.op
    {s s' : WorkerState} {op : Nat × Op} {env : Outcome} {r : op.2.Resp}
    {tid : Nat} {root : Nat × WorkerRoot}
    {k : op.2.Resp → WorkerProg Ret}
    {tasks : List IncarnationTask}
    (hIdle : StoppedIdle ⟨s, tasks⟩)
    (hTask : tasks[tid]? = some ⟨root, some (.act op k)⟩)
    (hExec : WorkerState.exec op env s = some (r, s')) :
    StoppedIdle
      ⟨s', tasks.set tid ⟨root, some (k r)⟩ ++
        ((workerMachine setup).opRoots op).map
          (workerMachine setup).start⟩ := by
  intro i hStopped task hMem hRoot
  have hBefore : s.Stopped i := by
    unfold WorkerState.Stopped at *
    rw [← stops_of_exec hExec]
    exact hStopped
  rcases List.mem_append.mp hMem with hOld | hNew
  · rcases List.mem_or_eq_of_mem_set hOld with hOther | rfl
    · exact hIdle i hBefore task hOther hRoot
    · intro op' k' _
      exact hIdle i hBefore ⟨root, some (.act op k)⟩
        (List.mem_of_getElem? hTask) hRoot op k rfl
  · exact idle_opRoots hNew

/- The task of a stopped incarnation only pauses the wallet. -/
theorem untouched_of_idle
    {tid : Nat} {root : Nat × WorkerRoot} {op : Nat × Op}
    {k : op.2.Resp → WorkerProg Ret}
    (hRun : Machine.Run (workerMachine setup) C s₀ tr c)
    (hTask : c.tasks[tid]? = some ⟨root, some (.act op k)⟩)
    (hIdle : Idle ⟨root, some (.act op k)⟩) :
    op.1 = root.1 ∧ op.2.touches = false := by
  rcases executes_of_task hRun hTask with ⟨hInc, hCan⟩
  rcases hIdle op k rfl with ⟨reason, rejectCount, hPause⟩
  have hPauses : root.2 = .pauseWallet reason rejectCount := hPause
  rw [hPauses] at hCan
  have hAlways :=
    (touches_pauseWallet reason rejectCount).bind
      (f := fun _ => (pure .paused : OmProg Ret))
      fun _ _ => Prog.always_done _
  exact ⟨hInc, hAlways op.2 hCan⟩

/- What touches no order sends none. -/
theorem enqueues_of_not_touches
    {op : Op} {r : op.Resp}
    (hQuiet : op.touches = false) :
    op.enqueues r = none := by
  cases op with
  | chan op =>
      cases op with
      | orderSend o => cases hQuiet
      | eventSend ev => rfl
  | _ => rfl

/- The channel of a stopped incarnation is as it was. -/
theorem WorkerState.AllSpent.op
    {s s' : WorkerState} {op : Nat × Op} {env : Outcome} {r : op.2.Resp}
    (hAll : s.AllSpent)
    (hQuiet : s.Stopped op.1 → op.2.touches = false)
    (hExec : WorkerState.exec op env s = some (r, s')) :
    s'.AllSpent := by
  unfold WorkerState.exec at hExec
  split at hExec
  · cases hExec
  · rename_i w hAt
    rcases Option.map_eq_some_iff.mp hExec with ⟨⟨r', st⟩, hDone, hEq⟩
    cases hEq
    unfold WorkerState.AllSpent
    intro j v hV hStopped
    simp only [WorkerState.put, List.getElem?_modify] at hV
    rcases Option.map_eq_some_iff.mp hV with ⟨u, hU, hKept⟩
    split at hKept
    · rename_i hSame
      subst hSame
      rw [hAt, Option.some.injEq] at hU
      subst hU
      subst hKept
      have hNone : op.2.enqueues r' = none :=
        enqueues_of_not_touches
          (hQuiet ((WorkerState.stopped_iff hAt).mpr hStopped))
      have hQueue := exec_queue hDone
      rw [hNone, Option.toList_none, List.append_nil] at hQueue
      exact (hAll op.1 w hAt hStopped).imp id fun hSpent =>
        ⟨hQueue.trans hSpent.1, hSpent.2⟩
    · subst hKept
      exact hAll j u hU hStopped

/-
  Nothing new starts in an incarnation that has stopped: its
  consumer hears of no token, and no worker has an order.
-/
theorem runs_of_extRoots
    {ext : WorkerExt} {s s' : WorkerState} {root : Nat × WorkerRoot}
    (hAll : s.AllSpent)
    (hCond : IdleAtStop setup tr s (.ext ext))
    (hExt : ext.exec setup s = some s')
    (hRoot : root ∈ ext.roots setup) :
    ¬s.Stopped root.1 ∧ s'.stops = s.stops := by
  cases ext with
  | tokenEvent i snipe =>
      rw [List.mem_singleton.mp hRoot]
      refine ⟨fun hStopped => ?_, WorkerExt.stops_exec hExt⟩
      rcases WorkerState.update_eq hExt with ⟨w, w', hAt, _, _⟩
      have hRuns := hCond.tokens i snipe w rfl hAt
      rw [(WorkerState.stopped_iff hAt).mp hStopped] at hRuns
      cases hRuns
  | spawn i n order =>
      rw [List.mem_singleton.mp hRoot]
      refine ⟨fun hStopped => ?_, WorkerExt.stops_exec hExt⟩
      rcases WorkerState.update_eq hExt with ⟨w, w', hAt, hSpawn, _⟩
      have hSpent :=
        hAll i w hAt ((WorkerState.stopped_iff hAt).mp hStopped)
      rw [hSpent.not_spawn] at hSpawn
      cases hSpawn
  | _ => cases hRoot

/- A task that survives the end of a child has nothing in flight. -/
theorem idle_of_spared
    {polled : List Child} {s : WorkerState} {task : IncarnationTask}
    {tid : Nat}
    (hCond : IdleAtStop setup tr s (.ext (.childEnds i polled)))
    (hSpared :
      (WorkerExt.childEnds i polled).kills tid task.root = false)
    (hRoot : task.root.1 = i)
    (hFlight :
      ∀ op k, task.prog = some (.act op k) →
        InFlight setup tr tid task.root) :
    Idle task := by
  intro op k hProg
  rcases task with ⟨⟨j, root⟩, prog⟩
  have hSame : j = i := hRoot
  subst hSame
  cases root with
  | submitOrder o =>
      have hPolled : .consumer ∈ polled := by
        simpa [WorkerExt.kills] using hSpared
      exact absurd (hFlight op k hProg)
        (hCond.submissions j polled tid o rfl hPolled)
  | processOrder o =>
      exact absurd (hFlight op k hProg)
        (hCond.passes j polled tid o rfl)
  | pauseWallet reason rejectCount => exact ⟨reason, rejectCount, rfl⟩

theorem StoppedIdle.ext
    {s s' : WorkerState} {ext : WorkerExt}
    {tasks : List IncarnationTask}
    (hIdle : StoppedIdle ⟨s, tasks⟩)
    (hAll : s.AllSpent)
    (hRun : Machine.Run (workerMachine setup) C s₀ tr ⟨s, tasks⟩)
    (hCond : IdleAtStop setup tr s (.ext ext))
    (hExt : ext.exec setup s = some s') :
    StoppedIdle
      ⟨s', tasks.mapIdx ((workerMachine setup).survive ext) ++
        (ext.roots setup).map (workerMachine setup).start⟩ := by
  intro i hStopped task hMem hRoot
  rcases List.mem_append.mp hMem with hOld | hNew
  · rcases survivor hOld with hNone | ⟨tid, hTask, hSpared⟩
    · exact idle_of_none hNone
    · have hStep :
          Machine.Step (workerMachine setup) ⟨s, tasks⟩ (.ext ext) _ :=
        .ext hExt
      rcases stopped_before hStep hStopped with
        hBefore | ⟨polled, hEnds⟩ | hRestart
      · exact hIdle i hBefore task (List.mem_of_getElem? hTask) hRoot
      · cases hEnds
        apply idle_of_spared hCond hSpared hRoot
        intro op k hProg
        have hTask' :
            tasks[tid]? = some ⟨task.root, some (.act op k)⟩ := by
          rw [hTask, ← hProg]
        refine ⟨?_, op, k, hRun.after_calls hTask'⟩
        rw [← hRun.roots_eq, List.getElem?_map, hTask']
        rfl
      · cases hRestart
        cases hSpared
  · rcases List.mem_map.mp hNew with ⟨root, hNewRoot, rfl⟩
    rcases runs_of_extRoots hAll hCond hExt hNewRoot with
      ⟨hRuns, hStops⟩
    have hSame : root.1 = i := hRoot
    subst hSame
    refine absurd ?_ hRuns
    unfold WorkerState.Stopped at *
    rw [← hStops]
    exact hStopped

/- The tasks and children of stopped incarnations are idle throughout. -/
theorem stoppedIdle_of_run
    (hBoot : s₀.incarnations = [])
    (hRun :
      Machine.Run (workerMachine setup) (IdleAtStop setup) s₀ tr c) :
    StoppedIdle c ∧ c.state.AllSpent := by
  induction hRun with
  | nil =>
      constructor
      · intro i _ task hMem
        cases hMem
      · unfold WorkerState.AllSpent
        intro i w hAt
        rw [hBoot] at hAt
        cases hAt
  | snoc hRun hCond hStep ih =>
      rcases ih with ⟨hIdle, hAll⟩
      cases hStep with
      | op hTask hExec =>
          refine ⟨hIdle.op hTask hExec, hAll.op (fun hStopped => ?_) hExec⟩
          have hInc := (executes_of_task hRun hTask).1
          rw [hInc] at hStopped
          exact (untouched_of_idle hRun hTask
            (hIdle _ hStopped _ (List.mem_of_getElem? hTask) rfl)).2
      | ext hExt =>
          exact ⟨hIdle.ext hAll hRun hCond hExt, hAll.ext hCond hExt⟩

end Stopped

/-
  In every run in which, whenever a child ends, no order is in
  a pass and nothing is in the hands of a child that is just
  being polled, nor taken up by it, a run of the worker that has
  returned touches no order any more.
-/
theorem stopHolds_of_idleAtStop
    (setup : Nat → WorkerSetup)
    (db : Database)
    (chain : Chain)
    (metrics : Metrics)
    (seenIds : List OrderId)
    {tr : List WorkerEvent}
    {c : WorkerConfig}
    (hRun :
      Machine.Run (workerMachine setup) (IdleAtStop setup)
        (.boot db chain metrics seenIds) tr c) :
    StopHolds tr c := by
  constructor
  · intro pre post i polled tid op env r hSplit hMem
    rcases List.append_of_mem hMem with ⟨mid, rest, rfl⟩
    have hLater :
        tr =
          (pre ++ .ext (.childEnds i polled) :: mid) ++
            .op tid (i, op) env r :: rest := by
      rw [hSplit, List.append_assoc]
      rfl
    rcases hRun.step_at hLater with ⟨c₀, c₁, hEarly, _, hStep⟩
    have hStopped : c₀.state.Stopped i :=
      stopped_of_childEnds hEarly
        (List.mem_append_right _ List.mem_cons_self)
    have hIdle := (stoppedIdle_of_run rfl hEarly).1
    cases hStep with
    | op hTask hExec =>
        have hInc := (executes_of_task hEarly hTask).1
        exact (untouched_of_idle hEarly hTask
          (hIdle i hStopped _ (List.mem_of_getElem? hTask) hInc.symm)).2
  · intro i polled hEnds task hTask o op k hRoot hProg
    have hStopped := stopped_of_childEnds hRun hEnds
    rcases (stoppedIdle_of_run rfl hRun).1 i hStopped task hTask
        (by rw [hRoot]) op k hProg with
      ⟨reason, rejectCount, hPause⟩
    rw [hRoot] at hPause
    cases hPause

/- The order's pass files it as executed. -/
def filedSchedule : List (Machine.Choice Outcome WorkerExt) :=
  takenSchedule ++
    workerSteps 1
      [.plain, .plain, .plain, .risk 0, .curve (.error "no curve"),
        .iteration
          [{ sampleSnipe.order 1000 with
              id := "a", status := .validating }],
        .plain, .plain, .plain, .plain, .time 0, .plain,
        .unit (.ok ()), .deadline false, .blockhash (.ok 7),
        .deadline false, .submit true (.ok "signature"),
        .deadline false, .time 0, .time 0, .plain, .stmt .done,
        .stmt .done, .plain, .plain, .plain, .plain, .plain, .plain]

def allOver (c : WorkerConfig) : Bool :=
  c.tasks.all fun task =>
    match task.prog with
    | some (.done _) => true
    | _ => false

/- No child has ended, nor has the process. -/
def neverEnds (tr : List WorkerEvent) : Bool :=
  tr.all fun e =>
    match e with
    | .ext (.childEnds _ _) => false
    | .ext .restart => false
    | _ => true

theorem neverEnds_append
    {tr tr' : List WorkerEvent} :
    neverEnds (tr ++ tr') = true ↔
      neverEnds tr = true ∧ neverEnds tr' = true := by
  simp only [neverEnds, List.all_append, Bool.and_eq_true]

/- Then no run has stopped. -/
theorem not_stopped_of_neverEnds
    {setup : Nat → WorkerSetup} {C : WorkerCond} {s₀ : WorkerState}
    {tr : List WorkerEvent} {c : WorkerConfig} {i : Nat}
    (hBoot : s₀.incarnations = [])
    (hRun : Machine.Run (workerMachine setup) C s₀ tr c)
    (hNever : neverEnds tr = true) :
    ¬c.state.Stopped i := by
  induction hRun with
  | nil =>
      rw [WorkerState.Stopped, WorkerState.stops, hBoot]
      nofun
  | snoc hRun hCond hStep ih =>
      rcases neverEnds_append.mp hNever with ⟨hBefore, hNow⟩
      intro hStopped
      rcases stopped_before hStep hStopped with
        hOld | ⟨polled, rfl⟩ | rfl
      · exact ih hBefore hOld
      · cases hNow
      · cases hNow

theorem idleAtStop_of_neverEnds
    {setup : Nat → WorkerSetup} {C : WorkerCond} {s₀ : WorkerState}
    {tr : List WorkerEvent} {c : WorkerConfig}
    (hBoot : s₀.incarnations = [])
    (hRun : Machine.Run (workerMachine setup) C s₀ tr c)
    (hNever : neverEnds tr = true) :
    Machine.Run (workerMachine setup) (IdleAtStop setup) s₀ tr c := by
  apply hRun.meets
  intro pre post e c' hSplit hPre
  rw [hSplit, ← List.singleton_append, ← List.append_assoc] at hNever
  rcases neverEnds_append.mp (neverEnds_append.mp hNever).1 with
    ⟨hBefore, hNow⟩
  constructor
  · rintro i polled tid o rfl
    cases hNow
  · rintro i polled tid o rfl
    cases hNow
  · rintro i polled n w worker rfl
    cases hNow
  · intro i snipe w _ hAt
    have hRuns := not_stopped_of_neverEnds hBoot hPre hBefore (i := i)
    rw [WorkerState.stopped_iff hAt] at hRuns
    exact eq_false_of_ne_true hRuns

theorem not_inFlight_of_allOver
    {setup : Nat → WorkerSetup} {C : WorkerCond} {s₀ : WorkerState}
    {tr : List WorkerEvent} {c : WorkerConfig} {tid : Nat}
    {root : Nat × WorkerRoot}
    (hRun : Machine.Run (workerMachine setup) C s₀ tr c)
    (hOver : allOver c = true) :
    ¬InFlight setup tr tid root := by
  rintro ⟨hRoot, op, k, hAfter⟩
  rw [← hRun.roots_eq, List.getElem?_map] at hRoot
  rcases Option.map_eq_some_iff.mp hRoot with ⟨⟨root', prog⟩, hTask, rfl⟩
  have hDone := List.all_eq_true.mp hOver _ (List.mem_of_getElem? hTask)
  dsimp only at hDone
  split at hDone
  · rename_i a
    cases (hRun.after_calls hTask).unique hAfter
  · cases hDone

/-
  An order's pass has filed it before a child ends, while the
  consumer and an execution worker are just being polled.
-/
theorem exists_stopHolds :
    ∃ (tr : List WorkerEvent) (c : WorkerConfig),
      c.state.stops = [true] ∧
        c.state.db.orders.map (fun row => row.status) = [.executed] ∧
          StopHolds tr c := by
  have hPlay :=
    Machine.exists_run_of_play (workerMachine fun _ => sampleSetup)
      sampleWorkerState filedSchedule
      (fun tr c =>
        allOver c && neverEnds tr &&
          decide (c.state.incarnations.map
                (fun w => (w.stopped, w.chan.queue, w.workers)) =
              [(false, [], [.receiving, .waiting])] ∧
            c.state.db.orders.map (fun row => row.status) = [.executed]))
      (by decide +kernel)
  rcases hPlay with ⟨tr, ⟨s, tasks⟩, hRun, hShown⟩
  simp only [Bool.and_eq_true, decide_eq_true_eq] at hShown
  rcases hShown with ⟨⟨hOver, hNever⟩, hOne, hFiled⟩
  rcases List.map_eq_singleton_iff.mp hOne with ⟨w, hAlone, hW⟩
  rw [Prod.mk.injEq, Prod.mk.injEq] at hW
  rcases hW with ⟨hRuns, hQueue, hWorkers⟩
  have hEnds :
      (WorkerExt.childEnds 0 [.consumer, .worker 0]).exec
          (fun _ => sampleSetup) s =
        some
          { s with
            incarnations := [w.stop [.consumer, .worker 0]] } := by
    simp only [WorkerExt.exec, WorkerState.update, hAlone, hRuns,
      List.getElem?_cons_zero, Bool.false_eq_true, if_false,
      Option.map_some, List.set_cons_zero]
  have hStep :
      Machine.Step (workerMachine fun _ => sampleSetup) ⟨s, tasks⟩
        (.ext (.childEnds 0 [.consumer, .worker 0])) _ :=
    .ext hEnds
  have hCond :
      IdleAtStop (fun _ => sampleSetup) tr s
        (.ext (.childEnds 0 [.consumer, .worker 0])) := by
    constructor
    · exact fun i polled tid o _ => not_inFlight_of_allOver hRun hOver
    · exact fun i polled tid o _ _ => not_inFlight_of_allOver hRun hOver
    · rintro i polled n v worker ⟨⟩ hPolled hAt hWorker
      rw [hAlone, List.getElem?_cons_zero, Option.some.injEq] at hAt
      subst hAt
      refine ⟨hQueue, ?_⟩
      rintro o rfl
      have hHeld := List.mem_of_getElem? hWorker
      rw [hWorkers] at hHeld
      simp at hHeld
    · rintro i snipe v ⟨⟩
  have hLast := (idleAtStop_of_neverEnds rfl hRun hNever).snoc hCond hStep
  refine ⟨_, _, ?_, ?_, stopHolds_of_idleAtStop _ _ _ _ _ hLast⟩
  · rfl
  · exact hFiled

end Pumpy
