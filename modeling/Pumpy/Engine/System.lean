import Pumpy.Engine.OrderManager

/-
  This file defines the machine the engine's tasks run on: the
  memory of the process, its database, the chain, and what
  each operation does to them.  Whatever the outside world
  decides (whether a statement takes effect, what a node
  answers, in which order a map is iterated) is the outcome an
  operation is given.

  Key definitions include:
    * `Outcome`
    * `State`
    * `State.exec`
    * `Ext`
    * `Root`
    * `OrderManager.machine`
-/

------------------------------------------------------------
-- Outcomes
------------------------------------------------------------

namespace Pumpy

open Interleaving

/- A SQL statement takes effect, fails, or fails although it did. -/
inductive StmtOutcome where
  | done : StmtOutcome
  | lost (e : DbError) : StmtOutcome
  | failed (e : DbError) : StmtOutcome
deriving DecidableEq, Repr

namespace StmtOutcome

def applies : StmtOutcome → Bool
  | done => true
  | lost _ => true
  | failed _ => false

def result : StmtOutcome → Except DbError Unit
  | done => .ok ()
  | lost e => .error e
  | failed e => .error e

end StmtOutcome

/- What the outside world contributes to one operation. -/
inductive Outcome where
  | plain : Outcome
  | stmt (o : StmtOutcome) : Outcome
  | query (reached : Bool) : Outcome
  | setting (v : Option String) : Outcome
  | fresh (id : OrderId) : Outcome
  | time (t : Timestamp) : Outcome
  | iteration (l : List Order) : Outcome
  | risk (score : UInt32) : Outcome
  | curve (r : Except String BondingCurveParams) : Outcome
  | unit (r : Except String Unit) : Outcome
  | blockhash (r : Except String Hash) : Outcome
  | answer (r : Except String String) : Outcome
  | submit (accepted : Bool) (r : Except String String) : Outcome
  | tipAccount (a : Option Pubkey) : Outcome
  | deadline (fired : Bool) : Outcome

------------------------------------------------------------
-- State
------------------------------------------------------------

/- The atomics of the decision engine. -/
structure Latch where
  consecutiveRejects : UInt32
  autoPaused : Bool
  needsDbPause : Bool
deriving DecidableEq

/- A row of the table `orders`, as its columns hold an order. -/
structure OrderRow where
  id : OrderId
  mint : String
  orderType : OrderType
  side : OrderSide
  amount : Int64
  price : Option F64
  maxCost : Option Int64
  minOutput : Option Int64
  slippageBps : Int64
  status : OrderStatus
  strategy : String
  metadata : List (String × String)
  createdAt : Timestamp
  updatedAt : Timestamp
  executedAt : Option Timestamp
  signature : Option String
  error : Option String
  retryCount : Int32
  clientOrderId : Option Uuid
deriving DecidableEq

/- A row of the table `trades`; its status is always "Executed". -/
structure TradeRow where
  id : OrderId
  mint : String
  side : OrderSide
  amountSol : F64
  price : Option F64
  strategy : String
  signature : Option String
  slippageBps : Int32
  createdAt : Timestamp
  executedAt : Option Timestamp
  clientOrderId : Option Uuid
deriving DecidableEq

/- The rows of the wallet the manager trades for, and its orders. -/
structure Database where
  registryStatus : Option WalletStatus
  configStatus : Option WalletStatus
  alertCount : Option Int32
  orders : List OrderRow
  trades : List TradeRow
deriving DecidableEq

/- The order maps; `activeLocked` while a write guard is held. -/
structure OrderMaps where
  active : List Order
  activeLocked : Bool
  pending : List Order
  history : List Order
deriving DecidableEq

/- The order channel and the events sent to subscribers. -/
structure Channel where
  receiverAlive : Bool
  queue : List Order
  events : List OrderEvent
deriving DecidableEq

structure Metrics where
  gauges : Gauge → ℤ
  counters : Counter → Nat

/- The transactions the network has accepted, and those on chain. -/
structure Chain where
  accepted : List Transaction
  landed : List Transaction
deriving DecidableEq

/- `seenIds` are the identifiers drawn or named so far. -/
structure State where
  latch : Latch
  db : Database
  maps : OrderMaps
  chan : Channel
  metrics : Metrics
  chain : Chain
  seenIds : List OrderId

/- The state of a process that has just started on a database. -/
def State.boot
    (db : Database)
    (chain : Chain)
    (seenIds : List OrderId) : State where
  latch := ⟨0, false, false⟩
  db := db
  maps := ⟨[], false, [], []⟩
  chan := ⟨true, [], []⟩
  metrics := ⟨fun _ => 0, fun _ => 0⟩
  chain := chain
  seenIds := seenIds

------------------------------------------------------------
-- Maps and Rows
------------------------------------------------------------

/- `map.insert(order.id, order)`. -/
def insertById (o : Order) (l : List Order) : List Order :=
  o :: l.filter (·.id ≠ o.id)

/- `map.remove(id)`, the map that is left. -/
def removeById (id : OrderId) (l : List Order) : List Order :=
  l.filter (·.id ≠ id)

/- `map.remove(id)`, the entry taken out. -/
def findById (id : OrderId) (l : List Order) : Option Order :=
  l.find? (·.id = id)

/- The row `store_order` inserts. -/
def Order.row (o : Order) : OrderRow where
  id := o.id
  mint := o.mint
  orderType := o.orderType
  side := o.side
  amount := o.amount.toInt64
  price := o.price
  maxCost := o.maxCost.map UInt64.toInt64
  minOutput := o.minOutput.map UInt64.toInt64
  slippageBps := o.slippageBps.toInt64
  status := o.status
  strategy := o.strategy
  metadata := o.metadata
  createdAt := o.createdAt
  updatedAt := o.updatedAt
  executedAt := o.executedAt
  signature := o.signature
  error := o.error
  retryCount := o.retryCount.toInt32
  clientOrderId := o.clientOrderId

/- The row `record_trade` inserts. -/
def Order.trade (o : Order) : TradeRow where
  id := o.id
  mint := o.mint
  side := o.side
  amountSol := solOf o.amount
  price := o.price
  strategy := o.strategy
  signature := o.signature
  slippageBps := o.slippageBps.toUInt32.toInt32
  createdAt := o.createdAt
  executedAt := o.executedAt
  clientOrderId := o.clientOrderId

/- The columns `update_order_status` writes. -/
def OrderRow.update (row : OrderRow) (o : Order) : OrderRow :=
  { row with
    status := o.status
    updatedAt := o.updatedAt
    executedAt := o.executedAt
    signature := o.signature
    error := o.error
    retryCount := o.retryCount.toInt32 }

namespace Database

/- `INSERT INTO orders ... ON CONFLICT (id) DO NOTHING`. -/
def insertOrder (db : Database) (o : Order) : Database :=
  if db.orders.any (·.id = o.id) then
    db
  else
    { db with orders := o.row :: db.orders }

/- `UPDATE orders ... WHERE id = ..`. -/
def updateOrder (db : Database) (o : Order) : Database :=
  { db with
    orders :=
      db.orders.map fun row =>
        if row.id = o.id then row.update o else row }

/- `INSERT INTO trades ... ON CONFLICT (id) DO NOTHING`. -/
def insertTrade (db : Database) (o : Order) : Database :=
  if db.trades.any (·.id = o.id) then
    db
  else
    { db with trades := o.trade :: db.trades }

end Database

------------------------------------------------------------
-- Execution
------------------------------------------------------------

def EngineOp.exec :
    (op : EngineOp) → Latch → op.Resp × Latch
  | loadAutoPaused, l => (l.autoPaused, l)
  | isAutoPaused, l => (l.autoPaused, l)
  | storeAutoPaused b, l => ((), { l with autoPaused := b })
  | swapAutoPaused b, l =>
      (l.autoPaused, { l with autoPaused := b })
  | storeNeedsDbPause b, l => ((), { l with needsDbPause := b })
  | swapNeedsDbPause b, l =>
      (l.needsDbPause, { l with needsDbPause := b })
  | loadConsecutiveRejects, l => (l.consecutiveRejects, l)
  | storeConsecutiveRejects n, l =>
      ((), { l with consecutiveRejects := n })
  | fetchAddConsecutiveRejects n, l =>
      (l.consecutiveRejects,
        { l with consecutiveRejects := l.consecutiveRejects + n })
  | emit _, l => ((), l)

/- A statement with a result, by whether it takes effect. -/
def execStmt
    (db db' : Database)
    (o : StmtOutcome) : Except DbError Unit × Database :=
  (o.result, if o.applies then db' else db)

def DbOp.exec :
    (op : DbOp) → Outcome → Database → Option (op.Resp × Database)
  | getWalletStatus, .query reached, db =>
      some (if reached then db.registryStatus else none, db)
  | updateRegistryStatus st, .stmt o, db =>
      some (execStmt db
        { db with
          registryStatus := db.registryStatus.map fun _ => st } o)
  | updateConfigStatus st, .stmt o, db =>
      some (execStmt db
        { db with
          configStatus := db.configStatus.map fun _ => st } o)
  | upsertWalletAlert count, .stmt o, db =>
      some (execStmt db { db with alertCount := some count } o)
  | insertOrder order, .stmt o, db =>
      some (execStmt db (db.insertOrder order) o)
  | updateOrder order, .stmt o, db =>
      some (execStmt db (db.updateOrder order) o)
  | insertTrade order, .stmt o, db =>
      some (execStmt db (db.insertTrade order) o)
  | getConfigValue _, .setting v, db => some (v, db)
  | _, _, _ => none

def MapOp.exec :
    (op : MapOp) → Outcome → OrderMaps → Option (op.Resp × OrderMaps)
  | activeInsert o, .plain, m =>
      if m.activeLocked then
        none
      else
        some ((), { m with active := insertById o m.active })
  | activeValues, .iteration l, m =>
      if m.activeLocked = false ∧ l.isPerm m.active = true then
        some (l, m)
      else
        none
  | activeLock, .plain, m =>
      if m.activeLocked then
        none
      else
        some ((), { m with activeLocked := true })
  | activeRemove id, .plain, m =>
      some (findById id m.active,
        { m with active := removeById id m.active })
  | activeUnlock, .plain, m =>
      some ((), { m with activeLocked := false })
  | pendingPush max o, .plain, m =>
      if max ≤ m.pending.length then
        some (false, m)
      else
        some (true, { m with pending := m.pending ++ [o] })
  | pendingRetain id, .plain, m =>
      some (m.pending.any (·.id = id),
        { m with pending := removeById id m.pending })
  | historyInsert o, .plain, m =>
      some ((), { m with history := insertById o m.history })
  | _, _, _ => none

def ChanOp.exec : (op : ChanOp) → Channel → op.Resp × Channel
  | orderSend o, c =>
      if c.receiverAlive then
        (true, { c with queue := c.queue ++ [o] })
      else
        (false, c)
  | eventSend ev, c => ((), { c with events := c.events ++ [ev] })

def MetricOp.exec (m : Metrics) : MetricOp → Metrics
  | inc g =>
      { m with gauges := Function.update m.gauges g (m.gauges g + 1) }
  | dec g =>
      { m with gauges := Function.update m.gauges g (m.gauges g - 1) }
  | count c =>
      { m with
        counters := Function.update m.counters c (m.counters c + 1) }

/- The network has `tx` from now on, if it accepted it. -/
def Chain.submit (c : Chain) (tx : Transaction) (accepted : Bool) :
    Chain :=
  if accepted then { c with accepted := tx :: c.accepted } else c

def ChainOp.exec :
    (op : ChainOp) → Outcome → Chain → Option (op.Resp × Chain)
  | analyzeSandwichRisk _ _, .risk score, c => some (score, c)
  | getBondingCurveParams _, .curve r, c => some (r, c)
  | getClient, .unit r, c => some (r, c)
  | getLatestBlockhash, .blockhash r, c => some (r, c)
  | sendAndConfirmTransaction tx, .submit accepted r, c =>
      some (r, c.submit tx accepted)
  | chooseTipAccount, .tipAccount a, c => some (a, c)
  | simulateTransaction _, .unit r, c => some (r, c)
  | sendBundle tx, .submit accepted r, c =>
      some (r, c.submit tx accepted)
  | getBundleStatus _, .answer r, c => some (r, c)
  | _, _, _ => none

def SysOp.exec :
    (op : SysOp) → Outcome → List OrderId →
      Option (op.Resp × List OrderId)
  | newUuid, .fresh id, ids =>
      if id ∈ ids then none else some (id, id :: ids)
  | utcNow, .time t, ids => some (t, ids)
  | sleep _, .plain, ids => some ((), ids)
  | timer, .deadline fired, ids => some (fired, ids)
  | spawnPauseWallet _ _, .plain, ids => some ((), ids)
  | _, _, _ => none

/- What one operation does to the whole state. -/
def State.exec :
    (op : Op) → Outcome → State → Option (op.Resp × State)
  | .engine op, .plain, s =>
      let p := op.exec s.latch
      some (p.1, { s with latch := p.2 })
  | .db op, out, s =>
      (op.exec out s.db).map fun p => (p.1, { s with db := p.2 })
  | .map op, out, s =>
      (op.exec out s.maps).map fun p =>
        (p.1, { s with maps := p.2 })
  | .chan op, .plain, s =>
      let p := op.exec s.chan
      some (p.1, { s with chan := p.2 })
  | .metric op, .plain, s =>
      some ((), { s with metrics := op.exec s.metrics })
  | .chain op, out, s =>
      (op.exec out s.chain).map fun p =>
        (p.1, { s with chain := p.2 })
  | .sys op, out, s =>
      (op.exec out s.seenIds).map fun p =>
        (p.1, { s with seenIds := p.2 })
  | _, _, _ => none

------------------------------------------------------------
-- The Outside World
------------------------------------------------------------

/- Where a task starts. -/
inductive Root where
  | submitOrder (order : Order) : Root
  | processOrder (order : Order) : Root
  | cancelOrder (id : OrderId) : Root
  | pauseWallet (reason : String) (rejectCount : UInt32) : Root
deriving DecidableEq

/- What a task returns. -/
inductive Ret where
  | submitted (r : Except OrderError OrderId) : Ret
  | processed (r : Except OrderError Unit) : Ret
  | cancelled (r : Except OrderError Unit) : Ret
  | paused : Ret

/-
  What happens outside the tasks: a request comes in, the
  execution worker takes an order off the channel, the wallet
  API writes a status, a transaction lands, the receiver of
  the channel is dropped, the process restarts.
-/
inductive Ext where
  | submitOrder (order : Order) : Ext
  | cancelOrder (id : OrderId) : Ext
  | recv (order : Order) : Ext
  | setStatus (st : WalletStatus) : Ext
  | land (tx : Transaction) : Ext
  | closeChannel : Ext
  | restart : Ext
deriving DecidableEq

def Ext.exec : Ext → State → Option State
  | submitOrder _, s => some s
  | cancelOrder id, s => some { s with seenIds := id :: s.seenIds }
  | recv order, s =>
      match s.chan.queue with
      | [] => none
      | head :: queue =>
          if head = order then
            some { s with chan := { s.chan with queue := queue } }
          else
            none
  | setStatus st, s =>
      some
        { s with
          db :=
            { s.db with
              registryStatus := s.db.registryStatus.map fun _ => st
              configStatus := s.db.configStatus.map fun _ => st } }
  | land tx, s =>
      if tx ∈ s.chain.accepted ∧ tx ∉ s.chain.landed then
        some
          { s with
            chain := { s.chain with landed := tx :: s.chain.landed } }
      else
        none
  | closeChannel, s =>
      some
        { s with
          chan := { s.chan with receiverAlive := false, queue := [] } }
  | restart, s => some (State.boot s.db s.chain s.seenIds)

/- The tasks an outside event starts. -/
def Ext.roots : Ext → List Root
  | submitOrder order => [.submitOrder order]
  | cancelOrder id => [.cancelOrder id]
  | recv order => [.processOrder order]
  | _ => []

/- The tasks an operation starts. -/
def Op.roots : Op → List Root
  | .sys (.spawnPauseWallet reason rejectCount) =>
      [.pauseWallet reason rejectCount]
  | _ => []

/- A restart drops every task. -/
def Ext.kills : Ext → Nat → Root → Bool
  | restart, _, _ => true
  | _, _, _ => false

------------------------------------------------------------
-- The Machine
------------------------------------------------------------

namespace OrderManager

/- The code of a task. -/
def body (om : OrderManager) : Root → OmProg Ret
  | .submitOrder order => do
      let r ← om.submitOrder order
      pure (.submitted r)
  | .processOrder order => do
      let r ← om.processOrder order
      pure (.processed r)
  | .cancelOrder id => do
      let r ← cancelOrder id
      pure (.cancelled r)
  | .pauseWallet reason rejectCount => do
      pauseWallet reason rejectCount
      pure .paused

/- The order manager and its surroundings. -/
def machine
    (om : OrderManager) :
    Machine Op Op.Resp Outcome Ext State Root Ret where
  exec := State.exec
  ext := Ext.exec
  body := om.body
  opRoots := Op.roots
  extRoots := Ext.roots
  kills := Ext.kills

end OrderManager

/- Events of the order manager's machine. -/
abbrev OmEvent := Event Op Op.Resp Outcome Ext

/- Conditions on its steps. -/
abbrev OmCond := Machine.StepCond Op Op.Resp Outcome Ext State

/- Configurations of it. -/
abbrev OmConfig := Config Op Op.Resp State Root Ret

------------------------------------------------------------
-- A Manager to Schedule
------------------------------------------------------------

/- The steps of one task, one outcome each. -/
def steps (tid : Nat) (outs : List Outcome) :
    List (Machine.Choice Outcome Ext) :=
  outs.map (.task tid)

/- The default limits, direct submission, one known mint. -/
def sampleManager : OrderManager where
  config :=
    { maxPendingOrders := 100
      orderTimeout := 30000000000
      maxRetries := 3
      retryDelay := 200000000
      maxPositionSizeSol := .fin 10
      maxPortfolioExposureSol := .fin 100
      maxDailyLossSol := .fin 50
      maxSandwichRiskScore := 70
      maxSlippageBps := 500 }
  mevEnabled := false
  jitoClient := none
  demoMode := false
  decisionEngine := ⟨10, .dev⟩
  payer := ⟨Vector.replicate 32 1⟩
  walletPubkey := "wallet"
  configVersionHash := "00000000"
  pubkeyFromStr := fun mint =>
    if mint = "mint" then some ⟨Vector.replicate 32 2⟩ else none

/- A market buy of `amount`. -/
def sampleOrder (id : OrderId) (amount : UInt64) : Order where
  id := id
  mint := "mint"
  orderType := .market
  side := .buy
  amount := amount
  price := none
  maxCost := none
  minOutput := none
  slippageBps := 100
  status := .pending
  strategy := "manual"
  metadata := []
  createdAt := 0
  updatedAt := 0
  executedAt := none
  signature := none
  error := none
  retryCount := 0
  executedPrice := none
  executedAmount := none
  clientOrderId := none
  traceId := none

/- A database with a wallet row and no orders. -/
def sampleDatabase (st : WalletStatus) : Database where
  registryStatus := some st
  configStatus := some st
  alertCount := none
  orders := []
  trades := []

/- The process has just started, with nothing on chain. -/
def sampleState (st : WalletStatus) : State :=
  State.boot (sampleDatabase st) ⟨[], []⟩ []

/- Task `tid` submits an order, which is given `id` and accepted. -/
def acceptSteps (tid : Nat) (id : OrderId) (active : List Order) :
    List (Machine.Choice Outcome Ext) :=
  steps tid
    [.fresh id, .iteration active, .plain, .plain, .plain, .plain,
      .plain, .time 0, .time 0, .stmt .done, .plain, .plain, .plain,
      .plain]

/- Task `tid` takes an order from its start to the end of its gate. -/
def gateSteps (tid : Nat) (active : List Order) :
    List (Machine.Choice Outcome Ext) :=
  steps tid
    [.plain, .plain, .plain, .risk 0, .curve (.error "no curve"),
      .iteration active, .plain, .plain, .plain, .plain]

end Pumpy
