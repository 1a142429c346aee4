import Pumpy.Grpc.OrderClient
import Pumpy.Interleaving.Transition

/-
  A client's order on its way to the engine
  (artifacts/api-server/src/routes/bot.ts): the handler of
  `POST /bot/orders` calls the engine, and if that fails the
  strategy service, whose client calls the engine in up to
  three attempts.

  The engine is the machine of its handlers, with whatever else
  it serves.  A request may be delayed, may be lost, and may be
  handled although its caller never learns of it.

  Key definitions include:
    * `OrderBody.read`
    * `PostedOrder.grpcRequest`
    * `PostedOrder.pythonOrder`
    * `OrderRoute`
    * `OrderRoute.step`
    * `OrderRoute.system`
-/

namespace Pumpy

open Interleaving

------------------------------------------------------------
-- Bodies and requests
------------------------------------------------------------

/- The body of a POST, as it is declared. -/
structure OrderBody where
  tokenMint : Option String
  side : Option String
  amountSol : Option F64
  orderType : Option String
  slippageBps : Option F64
  strategyName : Option String
  clientOrderId : Option String
  traceId : Option String

/- An order that has the required fields, its defaults filled in. -/
structure PostedOrder where
  tokenMint : String
  side : String
  amountSol : F64
  orderType : String
  slippageBps : F64
  strategyName : String
  clientOrderId : String
  traceId : String

/- A number that counts as given. -/
def truthy : F64 → Bool
  | .nan => false
  | .fin q => q ≠ 0
  | .inf _ => true

/- The order of a body; there is none if a required field is missing. -/
def OrderBody.read
    (body : OrderBody)
    (drawnCoid drawnTid : UuidText) : Option PostedOrder := do
  let tokenMint ← body.tokenMint.filter (· ≠ "")
  let side ← body.side.filter (· ≠ "")
  let amountSol ← body.amountSol.filter truthy
  pure
    { tokenMint := tokenMint
      side := side
      amountSol := amountSol
      orderType := body.orderType.getD "MARKET"
      slippageBps := body.slippageBps.getD (.fin 100)
      strategyName := body.strategyName.getD "manual"
      clientOrderId := body.clientOrderId.getD drawnCoid
      traceId := body.traceId.getD drawnTid }

/- `Math.round`. -/
def mathRound : F64 → F64
  | .fin q => .fin ⌊q + 1 / 2⌋
  | x => x

namespace PostedOrder

/-
  The message for the engine; `toUInt64` is how the library puts
  a number into a field.  No key is set, which is the empty one.
-/
def grpcRequest
    (toUInt64 : F64 → UInt64)
    (order : PostedOrder) : SubmitOrderRequest where
  tokenMint := order.tokenMint
  orderType := order.orderType
  side := order.side
  amount := toUInt64 (mathRound (order.amountSol.mul (.fin 1000000000)))
  price := none
  maxSolCost := none
  minSolOutput := none
  slippageBps := toUInt64 order.slippageBps
  strategyName := order.strategyName
  metadata := []
  clientOrderId := order.clientOrderId
  idempotencyKey := ""
  traceId := order.traceId

/-
  What the strategy service reads of the body it is sent; there
  is nothing if it does not validate: a number that is not
  finite is `null` there, and a tolerance has to be integral.
-/
def pythonOrder (order : PostedOrder) : Option OrderRequest :=
  match order.amountSol, order.slippageBps with
  | .fin amountSol, .fin slippageBps =>
      if slippageBps.den = 1 then
        some
          { tokenMint := order.tokenMint
            side := order.side
            amountSol := .fin amountSol
            orderType := order.orderType
            slippageBps := slippageBps.num
            strategyName := order.strategyName
            traceId := some order.traceId }
      else
        none
  | _, _ => none

end PostedOrder

------------------------------------------------------------
-- The parties
------------------------------------------------------------

/- Where a request to the engine is: its handler has a number. -/
inductive Fate where
  | flying : Fate
  | lost : Fate
  | handled (tid : Nat) : Fate
deriving DecidableEq

structure SentCall where
  req : SubmitOrderRequest
  fate : Fate

/-
  What is under way for a POST: the handler waits for the engine
  on a call of that number; Python's client is to make an
  attempt, of which it has made some; it waits for the engine;
  nothing is under way, and Python has had that to answer.
-/
inductive Route where
  | grpc (call : Nat) : Route
  | between (args : SubmitOrderArgs) (made : Nat) : Route
  | attempt (args : SubmitOrderArgs) (made call : Nat) : Route
  | finished (python : Option OrderResult) : Route

inductive PostResponse where
  | rust (response : SubmitOrderResponse) (coid tid : String) :
      PostResponse
  | python (result : OrderResult) : PostResponse
  | notAvailable (tid : String) : PostResponse

/- A POST, what is under way for it, and how it has been answered. -/
structure Post where
  order : PostedOrder
  route : Route
  response : Option PostResponse

/- All parties; `trace` is what has happened at the engine. -/
structure OrderRoute where
  engine : GrpcConfig
  trace : List GrpcEvent
  client : BotGrpcClient
  calls : List SentCall
  posts : List Post

/-
  A POST with the client's order id comes in; a request reaches
  a process of the engine, or is lost; the engine takes a step;
  something touches Python's client; the handler's call of the
  engine is answered, or fails, and the call of the strategy
  service arrives there or not; Python's client makes an
  attempt, which is answered or fails; the handler's call of the
  strategy service is answered, or fails; the process at work
  for a POST ends.
-/
inductive RouteEvent where
  | post (body : OrderBody) (drawnCoid drawnTid : UuidText) :
      RouteEvent
  | arrive (call p : Nat) : RouteEvent
  | lose (call : Nat) : RouteEvent
  | engine (ch : Machine.Choice GrpcOutcome GrpcExt) : RouteEvent
  | touch (e : ClientEvent) : RouteEvent
  | grpcReply (i : Nat) : RouteEvent
  | grpcError (i : Nat) (arrives : Bool) (drawnTid : UuidText) :
      RouteEvent
  | attempt
      (i : Nat) (now : Seconds) (drawnCoid drawnTid : UuidText) :
      RouteEvent
  | attemptReply (i : Nat) (now : Seconds) : RouteEvent
  | attemptError
      (i : Nat) (error : BotGrpcClient.CallError) (now : Seconds) :
      RouteEvent
  | pythonReply (i : Nat) : RouteEvent
  | pythonError (i : Nat) : RouteEvent
  | stop (i : Nat) : RouteEvent

------------------------------------------------------------
-- Steps
------------------------------------------------------------

namespace OrderRoute

/- The engine after a step of it. -/
def stepEngine
    (svc : BotService)
    (s : OrderRoute)
    (ch : Machine.Choice GrpcOutcome GrpcExt) : Option OrderRoute :=
  match svc.machine.playOne s.engine ch with
  | some (e, engine) =>
      some { s with engine := engine, trace := s.trace ++ [e] }
  | none => none

/- Another request is sent to the engine. -/
def send (s : OrderRoute) (req : SubmitOrderRequest) : OrderRoute :=
  { s with calls := s.calls ++ [⟨req, .flying⟩] }

/- A call that is under way comes to something. -/
def meet (s : OrderRoute) (call : Nat) (fate : Fate) : OrderRoute :=
  { s with
    calls := s.calls.modify call fun c => { c with fate := fate } }

/- What is under way for a POST. -/
def routeOf (s : OrderRoute) (i : Nat) : Option Route :=
  (s.posts[i]?).map Post.route

def reroute (s : OrderRoute) (i : Nat) (route : Route) : OrderRoute :=
  { s with
    posts := s.posts.modify i fun post => { post with route := route } }

/- The handler answers, unless it has. -/
def respond
    (s : OrderRoute)
    (i : Nat)
    (response : PostedOrder → PostResponse) : OrderRoute :=
  { s with
    posts := s.posts.modify i fun post =>
      { post with response := some (response post.order) } }

/- What the handler of a call has answered. -/
def answerOf
    (s : OrderRoute)
    (call : Nat) : Option (Except Status SubmitOrderResponse) :=
  match s.calls[call]? with
  | some ⟨_, .handled tid⟩ =>
      match s.engine.tasks[tid]? with
      | some ⟨_, some (.done r)⟩ => some r
      | _ => none
  | _ => none

/- An attempt has raised; after the third the call is over. -/
def raised (args : SubmitOrderArgs) (made : Nat) : Route :=
  if made + 1 < 3 then .between args (made + 1) else .finished none

/- What the handler of `/api/orders` returns for a result. -/
def answered (result : OrderResult) : Option OrderResult :=
  if result.success then some result else none

/- The call of the strategy service, if it arrives there. -/
def fallBack
    (order : PostedOrder)
    (arrives : Bool)
    (drawnTid : UuidText) : Route :=
  if arrives then
    match order.pythonOrder with
    | some request =>
        match submitManualOrder request drawnTid with
        | some args => .between args 0
        | none => .finished none
    | none => .finished none
  else
    .finished none

/- For the order id `id`, with the service and a library's coding. -/
def step
    (svc : BotService)
    (toUInt64 : F64 → UInt64)
    (id : String)
    (s : OrderRoute) : RouteEvent → Option OrderRoute
  | .post body drawnCoid drawnTid =>
      if body.clientOrderId = some id then
        match body.read drawnCoid drawnTid with
        | some order =>
            some
              { s.send (order.grpcRequest toUInt64) with
                posts := s.posts ++ [⟨order, .grpc s.calls.length, none⟩] }
        -- A field is missing: the answer is 400, and that is all.
        | none => some s
      else
        none
  | .arrive call p =>
      match s.calls[call]? with
      | some ⟨req, .flying⟩ =>
          (s.stepEngine svc
              (.ext (.request ⟨s.engine.state.requests, p, req⟩))).map
            fun s' => s'.meet call (.handled s.engine.tasks.length)
      | _ => none
  | .lose call =>
      match s.calls[call]? with
      | some ⟨_, .flying⟩ => some (s.meet call .lost)
      | _ => none
  | .engine ch => s.stepEngine svc ch
  | .touch e => some { s with client := e.apply s.client }
  | .grpcReply i =>
      match s.routeOf i with
      | some (.grpc call) =>
          match s.answerOf call with
          | some (.ok response) =>
              some
                ((s.reroute i (.finished none)).respond i fun order =>
                  .rust response order.clientOrderId order.traceId)
          | _ => none
      | _ => none
  | .grpcError i arrives drawnTid =>
      match s.posts[i]? with
      | some ⟨order, .grpc _, _⟩ =>
          some (s.reroute i (fallBack order arrives drawnTid))
      | _ => none
  | .attempt i now drawnCoid drawnTid =>
      match s.routeOf i with
      | some (.between args made) =>
          match s.client.prepare args now drawnCoid drawnTid with
          | (.returned result, client) =>
              some
                (({ s with client := client } : OrderRoute).reroute i
                  (.finished (answered result)))
          | (.raised, client) =>
              some
                (({ s with client := client } : OrderRoute).reroute i
                  (raised args made))
          | (.sent req, client) =>
              some
                ((({ s with client := client } : OrderRoute).send
                    req).reroute i (.attempt args made s.calls.length))
      | _ => none
  | .attemptReply i now =>
      match s.routeOf i with
      | some (.attempt _ _ call) =>
          match s.calls[call]?, s.answerOf call with
          | some ⟨req, _⟩, some (.ok response) =>
              let (result, client) :=
                s.client.settle req now (.ok response)
              some
                (({ s with client := client } : OrderRoute).reroute i
                  (.finished (result.bind answered)))
          | _, _ => none
      | _ => none
  | .attemptError i error now =>
      match s.routeOf i with
      | some (.attempt args made call) =>
          match s.calls[call]? with
          | some ⟨req, _⟩ =>
              let (_, client) := s.client.settle req now (.error error)
              some
                (({ s with client := client } : OrderRoute).reroute i
                  (raised args made))
          | none => none
      | _ => none
  | .pythonReply i =>
      match s.posts[i]? with
      | some ⟨_, .finished python, none⟩ =>
          some
            (s.respond i fun order =>
              match python with
              | some result => .python result
              | none => .notAvailable order.traceId)
      | _ => none
  | .pythonError i =>
      match s.posts[i]? with
      | some ⟨_, .grpc _, _⟩ => none
      | some ⟨_, _, none⟩ =>
          some (s.respond i fun order => .notAvailable order.traceId)
      | _ => none
  | .stop i => some (s.reroute i (.finished none))

/- The parties, for one order id. -/
def system
    (svc : BotService)
    (toUInt64 : F64 → UInt64)
    (id : String) : Transition RouteEvent OrderRoute where
  step := step svc toUInt64 id

/- Nothing has been posted, and no handler runs. -/
def start (engine : GrpcState) (client : BotGrpcClient) :
    OrderRoute where
  engine := ⟨engine, []⟩
  trace := []
  client := client
  calls := []
  posts := []

end OrderRoute

end Pumpy
