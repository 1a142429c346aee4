import Pumpy.Interleaving.Transition
import Pumpy.Numeric.Binary64

/-
  The fan-out of order updates in the API server: one
  StreamOrders call, opened again with a back-off after it has
  ended, whose updates are enriched from the trades table and
  sent to the WebSocket clients.

  A callback runs to its next `await`; what comes in between,
  and when a timer fires or a look-up is answered, is up to the
  events.  The length of a delay is left out with the time.

  Key definitions include:
    * `enrichUpdate`
    * `Fanout`
    * `Fanout.startSingletonStream`
    * `Fanout.onEnd`
    * `Fanout.system`
-/

namespace Pumpy

open Interleaving

------------------------------------------------------------
-- Updates and payloads
------------------------------------------------------------

/- An update, as much of it as is relayed. -/
structure OrderUpdate where
  orderId : String
  tokenMint : Option String
  status : String
  signature : Option String
  executedAt : Option String
  executedPrice : Option F64
  executedAmount : Option UInt64
deriving DecidableEq

/- A row of the trades table, as much of it as is relayed. -/
structure TradesRow where
  side : String
  amountSol : F64
  tokenSymbol : Option String
  tokenName : Option String
  strategy : String
  pnlSol : Option F64
  traceId : Option String
deriving DecidableEq

/-
  What the clients are sent.  The inner option of `pnlSol` and
  of `traceId` is `null`, the outer one `undefined`.
-/
structure LiveTradePayload where
  id : String
  mint : String
  status : String
  signature : Option String
  executedAt : Option String
  price : Option F64
  amountSol : Option F64
  side : Option String
  tokenSymbol : Option String
  tokenName : Option String
  strategy : Option String
  pnlSol : Option (Option F64)
  createdAt : String
  traceId : Option (Option String)
deriving DecidableEq

/- The payload before the look-up. -/
def basePayload
    (update : OrderUpdate)
    (createdAt : String) : LiveTradePayload where
  id := update.orderId
  mint := update.tokenMint.getD ""
  status := update.status
  signature := update.signature
  executedAt := update.executedAt
  price := update.executedPrice
  amountSol :=
    update.executedAmount.map fun amount =>
      (F64.ofNat amount.toNat).divConst 1000000000
  side := none
  tokenSymbol := none
  tokenName := none
  strategy := none
  pnlSol := none
  createdAt := createdAt
  traceId := none

/-
  `enrichUpdate`, whose look-up finds `rows`, or fails, which
  is `none`.
-/
def enrichUpdate
    (update : OrderUpdate)
    (createdAt : String)
    (rows : Option (List TradesRow)) : LiveTradePayload :=
  let payload := basePayload update createdAt
  match rows with
  | some (row :: _) =>
      { payload with
        side := some row.side
        tokenSymbol := row.tokenSymbol
        tokenName := row.tokenName
        strategy := some row.strategy
        pnlSol := some row.pnlSol
        traceId := some row.traceId
        amountSol := some (payload.amountSol.getD row.amountSol) }
  | some [] => payload
  | none => payload

------------------------------------------------------------
-- The state of the server
------------------------------------------------------------

/- A StreamOrders call, and which of its callbacks have run. -/
structure StreamCall where
  ended : Bool
  failed : Bool
deriving DecidableEq

/- A call is live until one of the two callbacks has run. -/
def StreamCall.live (call : StreamCall) : Bool :=
  !call.ended && !call.failed

/-
  A call of `enrichUpdate` that waits for the database, for
  the update of that number.
-/
structure Lookup where
  number : Nat
  update : OrderUpdate
  createdAt : String
deriving DecidableEq

/-
  A WebSocket client, and what it has been sent: each payload
  with the number of the update it was made from.
-/
structure WsClient where
  isOpen : Bool
  filterIds : List String
  received : List (Nat × LiveTradePayload)
deriving DecidableEq

/- The filter of the client lets the order through. -/
def WsClient.admits
    (client : WsClient)
    (orderId : String) : Bool :=
  client.filterIds.isEmpty || client.filterIds.contains orderId

/- `onOrder`. -/
def WsClient.onOrder
    (client : WsClient)
    (number : Nat)
    (payload : LiveTradePayload) : WsClient :=
  if !client.isOpen then
    client
  else if !client.admits payload.id then
    client
  else
    { client with received := client.received ++ [(number, payload)] }

/-
  The state of the module.  `calls` are the calls opened so
  far, and `delivered` the updates they have delivered.
-/
structure Fanout where
  singletonActive : Bool
  singletonCancelFn : Option Nat
  backoffAttempt : Nat
  streamHealthTimer : Bool
  reconnectTimer : Bool
  calls : List StreamCall
  delivered : List OrderUpdate
  lookups : List Lookup
  clients : List WsClient
deriving DecidableEq

namespace Fanout

------------------------------------------------------------
-- The callbacks
------------------------------------------------------------

def resetBackoff (s : Fanout) : Fanout :=
  { s with backoffAttempt := 0, streamHealthTimer := false }

def scheduleReconnect (s : Fanout) : Fanout :=
  if s.reconnectTimer then
    s
  else
    { s with
      backoffAttempt := s.backoffAttempt + 1
      reconnectTimer := true }

/- `throws` if `streamOrders` throws before it returns. -/
def startSingletonStream
    (s : Fanout)
    (throws : Bool) : Fanout :=
  if s.singletonActive then
    s
  else if throws then
    { s with singletonActive := false }.scheduleReconnect
  else
    { s with
      singletonActive := true
      singletonCancelFn := some s.calls.length
      calls := s.calls ++ [⟨false, false⟩] }

/- The first part of `onUpdate`, to the look-up. -/
def onUpdate
    (s : Fanout)
    (update : OrderUpdate)
    (now : String) : Fanout :=
  { s with
    streamHealthTimer := true
    delivered := s.delivered ++ [update]
    lookups := s.lookups ++ [⟨s.delivered.length, update, now⟩] }

/- The rest of it, once the look-up is answered. -/
def relay
    (s : Fanout)
    (lookup : Lookup)
    (rows : Option (List TradesRow)) : Fanout :=
  let payload := enrichUpdate lookup.update lookup.createdAt rows
  { s with
    lookups := s.lookups.erase lookup
    clients := s.clients.map (·.onOrder lookup.number payload) }

/- `onEnd`, which both callbacks of an ended call run. -/
def onEnd (s : Fanout) : Fanout :=
  { s with
    streamHealthTimer := false
    singletonActive := false
    singletonCancelFn := none }.scheduleReconnect

/- Scheduling a reconnect leaves the rest of the state alone. -/
@[simp] theorem reconnectTimer_scheduleReconnect (s : Fanout) :
    s.scheduleReconnect.reconnectTimer = true := by
  unfold scheduleReconnect
  split <;> simp_all

@[simp] theorem singletonActive_scheduleReconnect (s : Fanout) :
    s.scheduleReconnect.singletonActive = s.singletonActive := by
  unfold scheduleReconnect
  split <;> rfl

@[simp] theorem calls_scheduleReconnect (s : Fanout) :
    s.scheduleReconnect.calls = s.calls := by
  unfold scheduleReconnect
  split <;> rfl

@[simp] theorem delivered_scheduleReconnect (s : Fanout) :
    s.scheduleReconnect.delivered = s.delivered := by
  unfold scheduleReconnect
  split <;> rfl

@[simp] theorem lookups_scheduleReconnect (s : Fanout) :
    s.scheduleReconnect.lookups = s.lookups := by
  unfold scheduleReconnect
  split <;> rfl

@[simp] theorem clients_scheduleReconnect (s : Fanout) :
    s.scheduleReconnect.clients = s.clients := by
  unfold scheduleReconnect
  split <;> rfl

------------------------------------------------------------
-- The events
------------------------------------------------------------

inductive Event where
  -- A call delivers an update.
  | data (call : Nat) (update : OrderUpdate) (now : String) : Event
  -- The two callbacks of a call that has ended.
  | ended (call : Nat) : Event
  | failed (call : Nat) : Event
  | healthTimer : Event
  | reconnectTimer (throws : Bool) : Event
  -- The look-up for the update of that number is answered.
  | lookedUp
      (number : Nat)
      (rows : Option (List TradesRow)) : Event
  -- A client connects, changes its filter, and goes.
  | connected (orderIds : List String) : Event
  | filtered (client : Nat) (orderIds : List String) : Event
  | closed (client : Nat) : Event
deriving DecidableEq

/- The look-up that waits for the update of that number. -/
def waiting (s : Fanout) (number : Nat) : Option Lookup :=
  s.lookups.find? (·.number = number)

/- The callbacks of one call run once each, in either order. -/
def step (s : Fanout) : Event → Option Fanout
  | .data call update now =>
      if call < s.calls.length then
        some (s.onUpdate update now)
      else
        none
  | .ended call =>
      match s.calls[call]? with
      | none => none
      | some c =>
          if c.ended then
            none
          else
            let calls := s.calls.set call { c with ended := true }
            some { s with calls := calls }.onEnd
  | .failed call =>
      match s.calls[call]? with
      | none => none
      | some c =>
          if c.failed then
            none
          else
            let calls := s.calls.set call { c with failed := true }
            some { s with calls := calls }.onEnd
  | .healthTimer =>
      if s.streamHealthTimer then
        some s.resetBackoff
      else
        none
  | .reconnectTimer throws =>
      if s.reconnectTimer then
        some ({ s with reconnectTimer := false }.startSingletonStream
          throws)
      else
        none
  | .lookedUp number rows =>
      match s.waiting number with
      | none => none
      | some lookup => some (s.relay lookup rows)
  | .connected orderIds =>
      some { s with clients := s.clients ++ [⟨true, orderIds, []⟩] }
  | .filtered client orderIds =>
      match s.clients[client]? with
      | none => none
      | some c =>
          let c := { c with filterIds := orderIds }
          some { s with clients := s.clients.set client c }
  | .closed client =>
      match s.clients[client]? with
      | none => none
      | some c =>
          let c := { c with isOpen := false }
          some { s with clients := s.clients.set client c }

variable {s s' : Fanout} {e : Event}

/- Either callback leaves its call dead, and runs `onEnd`. -/
theorem ends_of_callback
    {call : Nat}
    (hStep : s.step e = some s')
    (hEvent : e = .ended call ∨ e = .failed call) :
    ∃ c c' : StreamCall,
      s.calls[call]? = some c ∧ c'.live = false ∧
        s' = { s with calls := s.calls.set call c' }.onEnd := by
  cases hCall : s.calls[call]? with
  | none =>
      rcases hEvent with rfl | rfl <;> simp [step, hCall] at hStep
  | some c =>
      rcases hEvent with rfl | rfl
      · simp only [step, hCall] at hStep
        split at hStep
        · cases hStep
        · cases hStep
          exact ⟨c, { c with ended := true }, rfl,
            by simp [StreamCall.live], rfl⟩
      · simp only [step, hCall] at hStep
        split at hStep
        · cases hStep
        · cases hStep
          exact ⟨c, { c with failed := true }, rfl,
            by simp [StreamCall.live], rfl⟩

/- A client that changes its filter or goes keeps what it has. -/
theorem keeps_received_of_client
    {client : Nat}
    (hStep : s.step e = some s')
    (hEvent :
      (∃ orderIds, e = .filtered client orderIds) ∨
        e = .closed client) :
    ∃ c c' : WsClient,
      s.clients[client]? = some c ∧ c'.received = c.received ∧
        s' = { s with clients := s.clients.set client c' } := by
  cases hClient : s.clients[client]? with
  | none =>
      rcases hEvent with ⟨orderIds, rfl⟩ | rfl <;>
        simp [step, hClient] at hStep
  | some c =>
      rcases hEvent with ⟨orderIds, rfl⟩ | rfl
      · simp only [step, hClient] at hStep
        cases hStep
        exact ⟨c, { c with filterIds := orderIds }, rfl, rfl, rfl⟩
      · simp only [step, hClient] at hStep
        cases hStep
        exact ⟨c, { c with isOpen := false }, rfl, rfl, rfl⟩

def system : Transition Event Fanout where
  step := step

/- The state before the first start. -/
def initial : Fanout :=
  ⟨false, none, 0, false, false, [], [], [], []⟩

/- The state once the server has booted. -/
def boot (throws : Bool) : Fanout :=
  initial.startSingletonStream throws

end Fanout

end Pumpy
