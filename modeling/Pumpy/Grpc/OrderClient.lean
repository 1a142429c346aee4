import Pumpy.Grpc.Service
import Mathlib.Data.Rat.Defs
import Mathlib.Algebra.Order.Ring.Unbundled.Rat

/-
  The strategy service's client of the engine
  (python-strategy/grpc_client/client.py): its circuit breaker,
  and `submit_order` with the retries that are wrapped around
  it.

  One event loop runs all calls.  Where a call awaits, the other
  calls and the reconnect loop may have changed the client.

  Key definitions include:
    * `CircuitBreaker`
    * `BotGrpcClient`
    * `SubmitOrderArgs.request`
    * `BotGrpcClient.prepare`
    * `BotGrpcClient.settle`
    * `BotGrpcClient.submitOrder`
    * `submitManualOrder`
    * `executeSignal`
-/

namespace Pumpy

------------------------------------------------------------
-- The circuit breaker
------------------------------------------------------------

/- A reading of `time.monotonic()`, or a span of it, in seconds. -/
abbrev Seconds := ℚ

/- `_state`, with `_opened_at` where it is read. -/
inductive BreakerState where
  | closed : BreakerState
  | opened (openedAt : Seconds) : BreakerState
  | halfOpen : BreakerState
deriving DecidableEq

structure CircuitBreaker where
  failureThreshold : ℤ
  recoveryInterval : Seconds
  failures : Nat
  state : BreakerState
deriving DecidableEq

namespace CircuitBreaker

/- The property `is_open`; asking may half open the breaker. -/
def isOpen
    (cb : CircuitBreaker)
    (now : Seconds) : Bool × CircuitBreaker :=
  match cb.state with
  | .opened openedAt =>
      if cb.recoveryInterval ≤ now - openedAt then
        (false, { cb with state := .halfOpen })
      else
        (true, cb)
  | _ => (false, cb)

def recordSuccess (cb : CircuitBreaker) : CircuitBreaker :=
  { cb with state := .closed, failures := 0 }

def recordFailure
    (cb : CircuitBreaker)
    (now : Seconds) : CircuitBreaker :=
  let failures := cb.failures + 1
  match cb.state with
  | .halfOpen =>
      { cb with failures := failures, state := .opened now }
  | .closed =>
      if cb.failureThreshold ≤ failures then
        { cb with failures := failures, state := .opened now }
      else
        { cb with failures := failures }
  | .opened _ => { cb with failures := failures }

end CircuitBreaker

------------------------------------------------------------
-- The client
------------------------------------------------------------

/- `grpc.StatusCode`, of calls that fail. -/
inductive RpcCode where
  | cancelled | unknown | invalidArgument | deadlineExceeded
  | notFound | alreadyExists | permissionDenied | resourceExhausted
  | failedPrecondition | aborted | outOfRange | unimplemented
  | internal | unavailable | dataLoss | unauthenticated
deriving DecidableEq, Repr

/- `_FATAL_GRPC_CODES`. -/
def fatalGrpcCodes : List RpcCode :=
  [.unavailable, .deadlineExceeded, .internal]

/- `_connected` and `_circuit_breaker`. -/
structure BotGrpcClient where
  connected : Bool
  breaker : CircuitBreaker
deriving DecidableEq

namespace BotGrpcClient

/- `_on_rpc_error`; the code is `none` if asking for it raises. -/
def onRpcError
    (client : BotGrpcClient)
    (code : Option RpcCode)
    (now : Seconds) : BotGrpcClient :=
  if code.any (· ∈ fatalGrpcCodes) then
    { connected := false, breaker := client.breaker.recordFailure now }
  else
    client

end BotGrpcClient

/-
  What else touches the client: a probe of the connection, its
  end, somebody who asks whether the breaker is open, the end
  of another call.
-/
inductive ClientEvent where
  | probed (ready : Bool) : ClientEvent
  | disconnected : ClientEvent
  | askedOpen (now : Seconds) : ClientEvent
  | succeeded : ClientEvent
  | failed (code : Option RpcCode) (now : Seconds) : ClientEvent
deriving DecidableEq

def ClientEvent.apply
    (client : BotGrpcClient) : ClientEvent → BotGrpcClient
  | probed ready => { client with connected := ready }
  | disconnected => { client with connected := false }
  | askedOpen now =>
      { client with breaker := (client.breaker.isOpen now).2 }
  | succeeded =>
      { client with breaker := client.breaker.recordSuccess }
  | failed code now => client.onRpcError code now

/- The client after all of these. -/
def BotGrpcClient.meanwhile
    (client : BotGrpcClient)
    (events : List ClientEvent) : BotGrpcClient :=
  events.foldl ClientEvent.apply client

------------------------------------------------------------
-- Requests
------------------------------------------------------------

/- `str(uuid.uuid4())`; of its text only that there is some matters. -/
abbrev UuidText := { text : String // text ≠ "" }

/- The arguments of `submit_order`, with their defaults. -/
structure SubmitOrderArgs where
  tokenMint : String
  side : String
  amount : ℤ
  orderType : String := "MARKET"
  slippageBps : ℤ := 100
  strategyName : String := "python_strategy"
  metadata : Option (List (String × String)) := none
  price : Option F64 := none
  maxSolCost : Option ℤ := none
  minSolOutput : Option ℤ := none
  clientOrderId : Option String := none
  traceId : Option String := none

/- `given or drawn`: an empty text counts as none. -/
def orElseDrawn (given : Option String) (drawn : UuidText) : String :=
  match given with
  | some text => if text = "" then drawn else text
  | none => drawn

/- What the messages take as a `uint64`; they raise for all else. -/
def checkUInt64 (n : ℤ) : Option UInt64 :=
  if 0 ≤ n ∧ n < 2 ^ 64 then some (UInt64.ofNat n.toNat) else none

def checkOptionalUInt64 : Option ℤ → Option (Option UInt64)
  | none => some none
  | some n => (checkUInt64 n).map some

/- The message for the engine, with the identifiers chosen. -/
def SubmitOrderArgs.request
    (args : SubmitOrderArgs)
    (coid tid : String) : Option SubmitOrderRequest := do
  let amount ← checkUInt64 args.amount
  let slippageBps ← checkUInt64 args.slippageBps
  let maxSolCost ← checkOptionalUInt64 args.maxSolCost
  let minSolOutput ← checkOptionalUInt64 args.minSolOutput
  pure
    { tokenMint := args.tokenMint
      side := toUppercase args.side
      amount := amount
      orderType := toUppercase args.orderType
      slippageBps := slippageBps
      strategyName := args.strategyName
      metadata := args.metadata.getD []
      price := args.price
      maxSolCost := maxSolCost
      minSolOutput := minSolOutput
      clientOrderId := coid
      idempotencyKey := coid
      traceId := tid }

------------------------------------------------------------
-- One attempt
------------------------------------------------------------

/- The dictionary `submit_order` returns. -/
structure OrderResult where
  success : Bool
  orderId : String
  message : String
  clientOrderId : Option String
  traceId : Option String
deriving DecidableEq

def notConnected : OrderResult where
  success := false
  orderId := ""
  message := "Not connected to Rust engine"
  clientOrderId := none
  traceId := none

def breakerOpen : OrderResult where
  success := false
  orderId := ""
  message := "Circuit breaker open — engine temporarily unavailable"
  clientOrderId := none
  traceId := none

/- An attempt ends early, raises, or sends a request and waits. -/
inductive Prepared where
  | returned (result : OrderResult) : Prepared
  | raised : Prepared
  | sent (req : SubmitOrderRequest) : Prepared

namespace BotGrpcClient

/- An attempt up to the call of the stub, with what it may draw. -/
def prepare
    (client : BotGrpcClient)
    (args : SubmitOrderArgs)
    (now : Seconds)
    (drawnCoid drawnTid : UuidText) : Prepared × BotGrpcClient :=
  if client.connected then
    let (isOpen, breaker) := client.breaker.isOpen now
    let client := { client with breaker := breaker }
    if isOpen then
      (.returned breakerOpen, client)
    else
      let coid := orElseDrawn args.clientOrderId drawnCoid
      let tid := orElseDrawn args.traceId drawnTid
      match args.request coid tid with
      | none => (.raised, client)
      | some req => (.sent req, client)
  else
    (.returned notConnected, client)

/- How the call of the stub ends, if not with a response. -/
inductive CallError where
  | rpc (code : Option RpcCode) : CallError
  | other : CallError
deriving DecidableEq

/- An attempt from there on; it raises if there is no result. -/
def settle
    (client : BotGrpcClient)
    (req : SubmitOrderRequest)
    (now : Seconds) :
    Except CallError SubmitOrderResponse →
      Option OrderResult × BotGrpcClient
  | .ok response =>
      (some
        { success := response.success
          orderId := response.orderId
          message := response.message
          clientOrderId := some req.clientOrderId
          traceId := some req.traceId },
        { client with breaker := client.breaker.recordSuccess })
  | .error (.rpc code) => (none, client.onRpcError code now)
  | .error .other => (none, client)

end BotGrpcClient

------------------------------------------------------------
-- The retries
------------------------------------------------------------

/-
  What an attempt meets: what happens to the client while the
  retry waits and while the call is out, the clock, the
  identifiers drawn, how the call ends.
-/
structure Surroundings where
  before : List ClientEvent
  startedAt : Seconds
  drawnCoid : UuidText
  drawnTid : UuidText
  during : List ClientEvent
  outcome : Except BotGrpcClient.CallError SubmitOrderResponse
  endedAt : Seconds

/- How a call of `submit_order` ends. -/
inductive CallEnd where
  | returned (result : OrderResult) : CallEnd
  | retryError : CallEnd
  | cancelled : CallEnd
deriving DecidableEq

/- The requests a call has sent, and how it has ended. -/
structure OrderCall where
  requests : List SubmitOrderRequest
  ending : CallEnd
  client : BotGrpcClient

namespace BotGrpcClient

/- The request of one attempt, its result if any, the client then. -/
def attempt
    (client : BotGrpcClient)
    (args : SubmitOrderArgs)
    (around : Surroundings) :
    Option SubmitOrderRequest × Option OrderResult × BotGrpcClient :=
  let client := client.meanwhile around.before
  match client.prepare args around.startedAt around.drawnCoid
      around.drawnTid with
  | (.returned result, client) => (none, some result, client)
  | (.raised, client) => (none, none, client)
  | (.sent req, client) =>
      (some req,
        (client.meanwhile around.during).settle req around.endedAt
          around.outcome)

/-
  `retry(stop=stop_after_attempt(n))` around the attempts: they
  go on as long as they raise.  The call is cancelled where the
  surroundings end.
-/
def attempts
    (args : SubmitOrderArgs) :
    Nat → List Surroundings → BotGrpcClient → OrderCall
  | 0, _, client => ⟨[], .retryError, client⟩
  | _ + 1, [], client => ⟨[], .cancelled, client⟩
  | n + 1, around :: rest, client =>
      match client.attempt args around with
      | (req, some result, client) =>
          ⟨req.toList, .returned result, client⟩
      | (req, none, client) =>
          let call := attempts args n rest client
          { call with requests := req.toList ++ call.requests }

/- `submit_order`. -/
def submitOrder
    (client : BotGrpcClient)
    (args : SubmitOrderArgs)
    (arounds : List Surroundings) : OrderCall :=
  attempts args 3 arounds client

end BotGrpcClient

------------------------------------------------------------
-- Its callers
------------------------------------------------------------

/- `int(x)`: towards zero; it raises for what is not finite. -/
def truncated : F64 → Option ℤ
  | .fin q => some (if q < 0 then ⌈q⌉ else ⌊q⌋)
  | _ => none

/- `int(amount_sol * 1_000_000_000)`. -/
def amountLamports (amountSol : F64) : Option ℤ :=
  truncated (amountSol.mul (.fin 1000000000))

/- The body of `POST /api/orders`. -/
structure OrderRequest where
  tokenMint : String
  side : String
  amountSol : F64
  orderType : String := "MARKET"
  slippageBps : ℤ := 100
  strategyName : String := "manual"
  traceId : Option String := none

/- What `submit_manual_order` calls the client with. -/
def submitManualOrder
    (order : OrderRequest)
    (drawnTid : UuidText) : Option SubmitOrderArgs := do
  let amount ← amountLamports order.amountSol
  pure
    { tokenMint := order.tokenMint
      side := toUppercase order.side
      amount := amount
      orderType := order.orderType
      slippageBps := order.slippageBps
      strategyName := order.strategyName
      traceId := some (orElseDrawn order.traceId drawnTid) }

/- What a strategy asks for. -/
structure TradeSignal where
  tokenMint : String
  side : String
  amountSol : F64
  strategyName : String
  slippageBps : ℤ := 100
  metadata : List (String × String) := []

/- What `_execute_signal` calls it with. -/
def executeSignal
    (signal : TradeSignal)
    (drawnCoid drawnTid : UuidText) : Option SubmitOrderArgs := do
  let amount ← amountLamports signal.amountSol
  pure
    { tokenMint := signal.tokenMint
      side := signal.side
      amount := amount
      orderType := "MARKET"
      slippageBps := signal.slippageBps
      strategyName := signal.strategyName
      metadata := some signal.metadata
      clientOrderId := some drawnCoid
      traceId := some drawnTid }

------------------------------------------------------------
-- What an attempt sends
------------------------------------------------------------

section Requests

variable {client client' : BotGrpcClient} {args : SubmitOrderArgs}
variable {req : SubmitOrderRequest} {coid tid : String}
variable {now : Seconds} {drawnCoid drawnTid : UuidText}
variable {around : Surroundings} {arounds : List Surroundings}

theorem key_request
    (hRequest : args.request coid tid = some req) :
    req.clientOrderId = coid ∧ req.idempotencyKey = coid ∧
      req.traceId = tid := by
  unfold SubmitOrderArgs.request at hRequest
  simp only [Option.bind_eq_bind, Option.bind_eq_some_iff] at hRequest
  rcases hRequest with ⟨_, _, _, _, _, _, _, _, hReq⟩
  cases hReq
  exact ⟨rfl, rfl, rfl⟩

/- A text that is given is taken, whatever is drawn. -/
theorem orElseDrawn_given
    {text : String}
    (drawn : UuidText)
    (hText : text ≠ "") :
    orElseDrawn (some text) drawn = text :=
  if_neg hText

namespace BotGrpcClient

/- What is sent has been built with the identifier chosen for it. -/
theorem prepare_sent
    (hSent :
      client.prepare args now drawnCoid drawnTid =
        (.sent req, client')) :
    args.request (orElseDrawn args.clientOrderId drawnCoid)
      (orElseDrawn args.traceId drawnTid) = some req := by
  unfold prepare at hSent
  split at hSent
  · dsimp only at hSent
    split at hSent
    · cases hSent
    · split at hSent
      · cases hSent
      · rename_i hRequest
        cases hSent
        exact hRequest
  · cases hSent

theorem attempt_request
    (hReq : (client.attempt args around).1 = some req) :
    args.request (orElseDrawn args.clientOrderId around.drawnCoid)
      (orElseDrawn args.traceId around.drawnTid) = some req := by
  unfold attempt at hReq
  dsimp only at hReq
  split at hReq
  · cases hReq
  · cases hReq
  · rename_i req' client' hSent
    cases hReq
    exact prepare_sent hSent

/- Every request of a call is that of one of its attempts. -/
theorem request_of_mem
    {n : Nat}
    (hMem : req ∈ (attempts args n arounds client).requests) :
    ∃ around ∈ arounds,
      args.request (orElseDrawn args.clientOrderId around.drawnCoid)
        (orElseDrawn args.traceId around.drawnTid) = some req := by
  induction n generalizing arounds client with
  | zero => cases hMem
  | succ n ih =>
    cases arounds with
    | nil => cases hMem
    | cons around rest =>
      rw [attempts] at hMem
      split at hMem
      · rename_i req' result client' hAttempt
        have hReq := congrArg Prod.fst hAttempt
        rw [Option.mem_toList.mp hMem] at hReq
        exact ⟨around, List.mem_cons_self, attempt_request hReq⟩
      · rename_i req' client' hAttempt
        rcases List.mem_append.mp hMem with hFirst | hRest
        · have hReq := congrArg Prod.fst hAttempt
          rw [Option.mem_toList.mp hFirst] at hReq
          exact ⟨around, List.mem_cons_self, attempt_request hReq⟩
        · rcases ih hRest with ⟨around', hLater, hRequest⟩
          exact ⟨around', List.mem_cons_of_mem _ hLater, hRequest⟩

end BotGrpcClient

end Requests

end Pumpy
