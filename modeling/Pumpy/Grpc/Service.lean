import Pumpy.Engine.Types
import Pumpy.Interleaving.Machine

/-
  The `SubmitOrder` call of the engine's gRPC service, and the
  machine its handlers run on: any number of engine processes,
  each with its own cache of idempotency keys, over one table
  of keys.

  Key definitions include:
    * `SubmitOrderRequest`
    * `BotService`
    * `claimKey`
    * `BotService.place`
    * `BotService.submitOrder`
    * `GrpcState`
    * `GrpcExt`
    * `BotService.machine`
-/

------------------------------------------------------------
-- Messages
------------------------------------------------------------

namespace Pumpy

open Interleaving

structure SubmitOrderRequest where
  tokenMint : String
  orderType : String
  side : String
  amount : UInt64
  price : Option F64
  maxSolCost : Option UInt64
  minSolOutput : Option UInt64
  slippageBps : UInt64
  strategyName : String
  metadata : List (String × String)
  clientOrderId : String
  idempotencyKey : String
  traceId : String
deriving DecidableEq

structure SubmitOrderResponse where
  orderId : OrderId
  success : Bool
  message : String
deriving DecidableEq

inductive StatusCode where
  | failedPrecondition | invalidArgument | unavailable
deriving DecidableEq, Repr

structure Status where
  code : StatusCode
  message : String
deriving DecidableEq

/-
  `c.to_uppercase()`, for the characters whose upper case has
  letters of the Latin alphabet only.  The others stay apart
  from those letters.
-/
def upperChar (c : Char) : List Char :=
  if c = 'ı' then ['I']
  else if c = 'ſ' then ['S']
  else if c = 'ß' then ['S', 'S']
  else if c = 'ﬀ' then ['F', 'F']
  else if c = 'ﬁ' then ['F', 'I']
  else if c = 'ﬂ' then ['F', 'L']
  else if c = 'ﬃ' then ['F', 'F', 'I']
  else if c = 'ﬄ' then ['F', 'F', 'L']
  else if c = 'ﬅ' ∨ c = 'ﬆ' then ['S', 'T']
  else [c.toUpper]

def toUppercase (s : String) : String :=
  String.ofList (s.toList.flatMap upperChar)

def OrderType.fromStr (s : String) : Except String OrderType :=
  let upper := toUppercase s
  if upper = "MARKET" then .ok .market
  else if upper = "LIMIT" then .ok .limit
  else if upper = "STOP_LOSS" then .ok .stopLoss
  else if upper = "TAKE_PROFIT" then .ok .takeProfit
  else .error ("Unknown order type: " ++ s)

def OrderSide.fromStr (s : String) : Except String OrderSide :=
  let upper := toUppercase s
  if upper = "BUY" then .ok .buy
  else if upper = "SELL" then .ok .sell
  else .error ("Unknown order side: " ++ s)

/- `e.to_string()`. -/
def OrderError.text : OrderError → String
  | queueFull => "Order queue full"
  | databaseError e => "Database error: " ++ e.message
  | executionError reason => "Execution error: " ++ reason
  | channelError => "Channel error"

------------------------------------------------------------
-- Operations
------------------------------------------------------------

/-
  Sections under the lock of a process' cache of keys.  The
  number of the handler that places an entry or a row is not
  in the cache or the table; it is there to tell them apart.
-/
inductive CacheOp where
  | lookup (ikey : String) (placer : Nat) : CacheOp
  | setOrderId (ikey : String) (orderId : OrderId) : CacheOp
  | remove (ikey : String) : CacheOp
deriving DecidableEq

/- Statements on the table `idempotency_keys`. -/
inductive KeyOp where
  | check (ikey : String) : KeyOp
  | reserve (ikey : String) (placer : Nat) : KeyOp
  | commit (ikey : String) (orderId : OrderId) : KeyOp
  | release (ikey : String) : KeyOp
deriving DecidableEq

/- The operations of a handler, in process `p` where it matters. -/
inductive GrpcOp where
  | cache (p : Nat) (op : CacheOp) : GrpcOp
  | key (op : KeyOp) : GrpcOp
  | utcNow : GrpcOp
  | submitOrder (p : Nat) (order : Order) : GrpcOp
deriving DecidableEq

/- A lookup gives the order of the entry it finds. -/
abbrev CacheOp.Resp : CacheOp → Type
  | lookup _ _ => Option OrderId
  | setOrderId _ _ => Unit
  | remove _ => Unit

/- What a statement yields; a check gives the order of the row. -/
abbrev KeyOp.Value : KeyOp → Type
  | check _ => Option OrderId
  | reserve _ _ => Bool
  | commit _ _ => Unit
  | release _ => Unit

abbrev GrpcOp.Resp : GrpcOp → Type
  | cache _ op => op.Resp
  | key op => Except DbError op.Value
  | utcNow => Timestamp
  | submitOrder _ _ => Except OrderError OrderId

theorem GrpcOp.nonempty_resp
    (op : GrpcOp) :
    Nonempty op.Resp := by
  cases op with
  | cache p op =>
      cases op with
      | lookup ikey placer => exact ⟨(none : Option OrderId)⟩
      | setOrderId ikey orderId => exact ⟨()⟩
      | remove ikey => exact ⟨()⟩
  | key op => exact ⟨.error ⟨""⟩⟩
  | utcNow => exact ⟨(0 : Nat)⟩
  | submitOrder p order => exact ⟨.error .queueFull⟩

/- Programs of the service. -/
abbrev GrpcProg := Prog GrpcOp GrpcOp.Resp

namespace Rpc

abbrev lookup (p : Nat) (ikey : String) (placer : Nat) :
    GrpcProg (Option OrderId) :=
  .perform (GrpcOp.cache p (.lookup ikey placer))

abbrev setOrderId (p : Nat) (ikey : String) (orderId : OrderId) :
    GrpcProg Unit :=
  .perform (GrpcOp.cache p (.setOrderId ikey orderId))

abbrev remove (p : Nat) (ikey : String) : GrpcProg Unit :=
  .perform (GrpcOp.cache p (.remove ikey))

abbrev check (ikey : String) :
    GrpcProg (Except DbError (Option OrderId)) :=
  .perform (GrpcOp.key (.check ikey))

abbrev reserve (ikey : String) (placer : Nat) :
    GrpcProg (Except DbError Bool) :=
  .perform (GrpcOp.key (.reserve ikey placer))

abbrev commit (ikey : String) (orderId : OrderId) :
    GrpcProg (Except DbError Unit) :=
  .perform (GrpcOp.key (.commit ikey orderId))

abbrev release (ikey : String) : GrpcProg (Except DbError Unit) :=
  .perform (GrpcOp.key (.release ikey))

abbrev utcNow : GrpcProg Timestamp :=
  .perform GrpcOp.utcNow

abbrev submitOrder (p : Nat) (order : Order) :
    GrpcProg (Except OrderError OrderId) :=
  .perform (GrpcOp.submitOrder p order)

end Rpc

------------------------------------------------------------
-- The Handler
------------------------------------------------------------

/- The configuration of the service; `Uuid::parse_str` is a library's. -/
structure BotService where
  demoMode : Bool
  parseUuid : String → Option Uuid

/- What is told a caller whose order somebody else has in hand. -/
def acknowledged : SubmitOrderResponse where
  orderId := ""
  success := true
  message :=
    "Duplicate request acknowledged — order is being processed"

/- Whether a request goes on, or has its answer. -/
inductive Admission where
  | answer (r : Except Status SubmitOrderResponse) : Admission
  | proceed : Admission

/-
  The check of a key in two tiers.  The cache is looked up, and
  a placeholder put into it, under one lock; then the table is
  asked and the key reserved there.
-/
def claimKey (n p : Nat) (ikey : String) : GrpcProg Admission := do
  let hit ← Rpc.lookup p ikey n
  match hit with
  | some orderId =>
      if orderId ≠ "" then
        pure
          (.answer
            (.ok ⟨orderId, true, "Duplicate: returning existing order"⟩))
      else
        pure (.answer (.ok acknowledged))
  | none => do
      let row ← Rpc.check ikey
      match row with
      | .error _ => unavailable
      | .ok (some orderId) =>
          if orderId ≠ "" then do
            Rpc.setOrderId p ikey orderId
            pure
              (.answer
                (.ok ⟨orderId, true,
                  "Duplicate: returning existing order (crash recovery)"⟩))
          else
            pure (.answer (.ok acknowledged))
      | .ok none => do
          let reserved ← Rpc.reserve ikey n
          match reserved with
          | .error _ => unavailable
          | .ok false => do
              Rpc.remove p ikey
              pure (.answer (.ok acknowledged))
          | .ok true => pure .proceed
where
  unavailable : GrpcProg Admission := do
    Rpc.remove p ikey
    pure
      (.answer
        (.error ⟨.unavailable,
          "Idempotency DB temporarily unavailable — please retry"⟩))

namespace BotService

/- The fields that are parsed before the key is looked at. -/
def validate
    (svc : BotService)
    (req : SubmitOrderRequest) :
    Except Status (Option Uuid × OrderType × OrderSide) := do
  let clientOrderId ←
    if req.clientOrderId = "" then
      pure none
    else
      match svc.parseUuid req.clientOrderId with
      | some uuid => pure (some uuid)
      | none =>
          .error ⟨.invalidArgument,
            "client_order_id is not a valid UUID: " ++
              req.clientOrderId⟩
  let orderType ←
    match OrderType.fromStr req.orderType with
    | .ok orderType => pure orderType
    | .error e => .error ⟨.invalidArgument, "Invalid order type: " ++ e⟩
  let side ←
    match OrderSide.fromStr req.side with
    | .ok side => pure side
    | .error e => .error ⟨.invalidArgument, "Invalid order side: " ++ e⟩
  pure (clientOrderId, orderType, side)

/- Hand the order to the manager, and settle its key. -/
def place
    (p : Nat)
    (req : SubmitOrderRequest)
    (clientOrderId : Option Uuid)
    (orderType : OrderType)
    (side : OrderSide) :
    GrpcProg (Except Status SubmitOrderResponse) := do
  let createdAt ← Rpc.utcNow
  let updatedAt ← Rpc.utcNow
  let submitted ←
    Rpc.submitOrder p
      { id := ""
        mint := req.tokenMint
        orderType := orderType
        side := side
        amount := req.amount
        price := req.price
        maxCost := req.maxSolCost
        minOutput := req.minSolOutput
        slippageBps := req.slippageBps
        status := .pending
        strategy := req.strategyName
        metadata := req.metadata
        createdAt := createdAt
        updatedAt := updatedAt
        executedAt := none
        signature := none
        error := none
        retryCount := 0
        executedPrice := none
        executedAmount := none
        clientOrderId := clientOrderId
        traceId :=
          some (if req.traceId = "" then "no-trace" else req.traceId) }
  match submitted with
  | .ok orderId =>
      if req.idempotencyKey = "" then
        pure (.ok ⟨orderId, true, "Order submitted successfully"⟩)
      else do
        Rpc.setOrderId p req.idempotencyKey orderId
        -- A failure of the statement is only logged.
        let _ ← Rpc.commit req.idempotencyKey orderId
        pure (.ok ⟨orderId, true, "Order submitted successfully"⟩)
  | .error e =>
      if req.idempotencyKey = "" then
        pure (.ok ⟨"", false, e.text⟩)
      else do
        Rpc.remove p req.idempotencyKey
        let _ ← Rpc.release req.idempotencyKey
        pure (.ok ⟨"", false, e.text⟩)

/- Handler `n`, in process `p`, of a request to submit an order. -/
def submitOrder
    (svc : BotService)
    (n p : Nat)
    (req : SubmitOrderRequest) :
    GrpcProg (Except Status SubmitOrderResponse) :=
  if svc.demoMode then
    pure
      (.error ⟨.failedPrecondition,
        "Trading disabled: set WALLET_PRIVATE_KEY in Replit Secrets to enable live trading"⟩)
  else
    match svc.validate req with
    | .error status => pure (.error status)
    | .ok (clientOrderId, orderType, side) => do
        let admission ←
          if req.idempotencyKey = "" then
            pure .proceed
          else
            claimKey n p req.idempotencyKey
        match admission with
        | .answer r => pure r
        | .proceed => place p req clientOrderId orderType side

end BotService

------------------------------------------------------------
-- State
------------------------------------------------------------

/- `IKEY_TTL_SECS`, and the interval of the clean-up. -/
def ikeyTtl : Duration := 60 * 1000000000

structure IdempotencyEntry where
  orderId : OrderId
  recordedAt : Duration
  placer : Nat
deriving DecidableEq

/- `order_id` is empty while the order is in flight. -/
structure IdempotencyKeyRow where
  orderId : OrderId
  createdAt : Timestamp
  placer : Nat
deriving DecidableEq

abbrev IdempotencyCache := String → Option IdempotencyEntry

/- The table, by its primary key. -/
abbrev KeyTable := String → Option IdempotencyKeyRow

/- The memory of an engine process, and its monotonic clock. -/
structure EngineProcess where
  now : Duration
  cache : IdempotencyCache

/-
  All processes and the database they share.  `pending` are
  statements whose sender was told that they failed, and that
  take effect later, if ever.
-/
structure GrpcState where
  clock : Timestamp
  table : KeyTable
  pending : List KeyOp
  processes : Nat → EngineProcess
  requests : Nat

/- Processes that have just started on a table. -/
def GrpcState.boot (clock : Timestamp) (table : KeyTable) :
    GrpcState where
  clock := clock
  table := table
  pending := []
  processes := fun _ => ⟨0, fun _ => none⟩
  requests := 0

------------------------------------------------------------
-- Execution
------------------------------------------------------------

/- `cache.retain(|_, v| v.recorded_at.elapsed() < TTL)`. -/
def IdempotencyCache.retain
    (cache : IdempotencyCache)
    (now : Duration) : IdempotencyCache :=
  fun ikey => (cache ikey).filter fun v => now - v.recordedAt < ikeyTtl

def CacheOp.exec :
    (op : CacheOp) → EngineProcess → op.Resp × EngineProcess
  | lookup ikey placer, s =>
      let cache := IdempotencyCache.retain s.cache s.now
      match cache ikey with
      | some entry => (some entry.orderId, { s with cache := cache })
      | none =>
          (none,
            { s with
              cache :=
                Function.update cache ikey
                  (some ⟨"", s.now, placer⟩) })
  | setOrderId ikey orderId, s =>
      ((),
        { s with
          cache :=
            Function.update s.cache ikey
              ((s.cache ikey).map fun entry =>
                { entry with orderId := orderId }) })
  | remove ikey, s =>
      ((), { s with cache := Function.update s.cache ikey none })

/- What a statement yields where it takes effect. -/
def KeyOp.value : (op : KeyOp) → KeyTable → op.Value
  | check ikey, t => (t ikey).map IdempotencyKeyRow.orderId
  | reserve ikey _, t => (t ikey).isNone
  | commit _ _, _ => ()
  | release _, _ => ()

/- The effect of a statement. -/
def KeyOp.apply (clock : Timestamp) : KeyOp → KeyTable → KeyTable
  | check _, t => t
  | reserve ikey placer, t =>
      if (t ikey).isNone then
        Function.update t ikey (some ⟨"", clock, placer⟩)
      else
        t
  | commit ikey orderId, t =>
      Function.update t ikey
        ((t ikey).map fun row => { row with orderId := orderId })
  | release ikey, t => Function.update t ikey none

/-
  A statement is answered, or fails: although it has taken
  effect, before it does, or without it ever doing so.
-/
inductive Delivery where
  | answered : Delivery
  | lost (e : DbError) : Delivery
  | late (e : DbError) : Delivery
  | failed (e : DbError) : Delivery
deriving DecidableEq

/- What the outside world contributes to an operation of a handler. -/
inductive GrpcOutcome where
  | plain : GrpcOutcome
  | delivery (d : Delivery) : GrpcOutcome
  | time (t : Timestamp) : GrpcOutcome
  | order (r : Except OrderError OrderId) : GrpcOutcome

def KeyOp.exec
    (op : KeyOp) :
    Delivery → GrpcState → Except DbError op.Value × GrpcState
  | .answered, s =>
      (.ok (op.value s.table),
        { s with table := op.apply s.clock s.table })
  | .lost e, s =>
      (.error e, { s with table := op.apply s.clock s.table })
  | .late e, s => (.error e, { s with pending := op :: s.pending })
  | .failed e, s => (.error e, s)

/- The identifier of an order that is accepted is not empty. -/
def GrpcState.exec :
    (op : GrpcOp) → GrpcOutcome → GrpcState →
      Option (op.Resp × GrpcState)
  | .cache p op, .plain, s =>
      let x := op.exec (s.processes p)
      some
        (x.1, { s with processes := Function.update s.processes p x.2 })
  | .key op, .delivery d, s => some (op.exec d s)
  | .utcNow, .time t, s => some (t, s)
  | .submitOrder _ _, .order r, s =>
      if r = .ok "" then none else some (r, s)
  | _, _, _ => none

------------------------------------------------------------
-- The Outside World
------------------------------------------------------------

/- A handler: its number, its process, its request. -/
structure GrpcRoot where
  number : Nat
  process : Nat
  req : SubmitOrderRequest
deriving DecidableEq

/-
  What happens outside the handlers.  A request comes in; a
  handler is dropped; a process ends and starts anew; a
  statement that was given up takes effect; the table is
  cleaned up; clocks go on.
-/
inductive GrpcExt where
  | request (root : GrpcRoot) : GrpcExt
  | drop (n : Nat) : GrpcExt
  | restart (p : Nat) : GrpcExt
  | takeEffect (op : KeyOp) : GrpcExt
  | cleanup : GrpcExt
  | dbTick (d : Duration) : GrpcExt
  | tick (p : Nat) (d : Duration) : GrpcExt
deriving DecidableEq

namespace GrpcExt

def exec : GrpcExt → GrpcState → Option GrpcState
  | request root, s =>
      if root.number = s.requests then
        some { s with requests := s.requests + 1 }
      else
        none
  | drop _, s => some s
  | restart p, s =>
      some
        { s with
          processes :=
            Function.update s.processes p
              { s.processes p with cache := fun _ => none } }
  | takeEffect op, s =>
      if op ∈ s.pending then
        some
          { s with
            table := op.apply s.clock s.table
            pending := s.pending.erase op }
      else
        none
  | cleanup, s =>
      some
        { s with
          table := fun ikey =>
            (s.table ikey).filter fun row =>
              !(row.createdAt + ikeyTtl < s.clock) }
  | dbTick d, s => some { s with clock := s.clock + d }
  | tick p d, s =>
      some
        { s with
          processes :=
            Function.update s.processes p
              { s.processes p with now := (s.processes p).now + d } }

def roots : GrpcExt → List GrpcRoot
  | request root => [root]
  | _ => []

def kills : GrpcExt → Nat → GrpcRoot → Bool
  | drop n, tid, _ => tid = n
  | restart p, _, root => root.process = p
  | _, _, _ => false

end GrpcExt

/- The service and its surroundings. -/
def BotService.machine
    (svc : BotService) :
    Machine GrpcOp GrpcOp.Resp GrpcOutcome GrpcExt GrpcState GrpcRoot
      (Except Status SubmitOrderResponse) where
  exec := GrpcState.exec
  ext := GrpcExt.exec
  body := fun root =>
    svc.submitOrder root.number root.process root.req
  opRoots := fun _ => []
  extRoots := GrpcExt.roots
  kills := GrpcExt.kills

/- Events of the service. -/
abbrev GrpcEvent := Event GrpcOp GrpcOp.Resp GrpcOutcome GrpcExt

/- Conditions on its steps. -/
abbrev GrpcCond :=
  Machine.StepCond GrpcOp GrpcOp.Resp GrpcOutcome GrpcExt GrpcState

/- Configurations of it. -/
abbrev GrpcConfig :=
  Config GrpcOp GrpcOp.Resp GrpcState GrpcRoot
    (Except Status SubmitOrderResponse)

/- Handlers, and what is left of their programs. -/
abbrev GrpcTask :=
  Task GrpcOp GrpcOp.Resp GrpcRoot (Except Status SubmitOrderResponse)

/- The handler has answered with `success: true`. -/
def GrpcTask.succeeded (task : GrpcTask) : Bool :=
  match task.prog with
  | some (.done (.ok response)) => response.success
  | _ => false

/- The handler has neither answered nor been dropped. -/
def GrpcTask.inFlight (task : GrpcTask) : Bool :=
  match task.prog with
  | some (.act _ _) => true
  | _ => false

------------------------------------------------------------
-- A Service to Schedule
------------------------------------------------------------

def sampleService : BotService where
  demoMode := false
  parseUuid := fun _ => none

/- A market buy under the key. -/
def sampleRequest (ikey : String) : SubmitOrderRequest where
  tokenMint := "mint"
  orderType := "MARKET"
  side := "BUY"
  amount := 1000
  price := none
  maxSolCost := none
  minSolOutput := none
  slippageBps := 100
  strategyName := "manual"
  metadata := []
  clientOrderId := ""
  idempotencyKey := ikey
  traceId := ""

/- A table without rows, at time zero. -/
def sampleGrpcState : GrpcState :=
  .boot 0 fun _ => none

/- The steps of one handler, one outcome each. -/
def grpcSteps (tid : Nat) (outs : List GrpcOutcome) :
    List (Machine.Choice GrpcOutcome GrpcExt) :=
  outs.map (.task tid)

/- The request with this key comes in at the process. -/
def arrives (n p : Nat) (ikey : String) :
    Machine.Choice GrpcOutcome GrpcExt :=
  .ext (.request ⟨n, p, sampleRequest ikey⟩)

/- How many handlers have answered with `success: true`. -/
def successes (c : GrpcConfig) : Nat :=
  c.tasks.countP GrpcTask.succeeded

end Pumpy
