import Pumpy.Api.Relay
import Pumpy.Dashboard.LiveFeed
import Pumpy.Grpc.OrderStream

/-
  The way of an order's outcome from the engine to the
  dashboards: the StreamOrders calls of the engine's lives, the
  API servers that read them (artifacts/api-server/src/lib/
  grpc-client.ts, src/index.ts), and the lists of the browsers.

  The engine and the servers start again at any time; what a call
  has yielded comes out of its connection later, or never.

  Key definitions include:
    * `readUpdate`
    * `Pipeline`
    * `Pipeline.system`
    * `Depicts`

  The main result is `depicts_of_run`: whatever is lost or late
  on the way, an outcome that a dashboard shows is the one
  outcome of the order.
-/

namespace Pumpy

open Interleaving BotService

------------------------------------------------------------
-- What the Servers Read
------------------------------------------------------------

/- `OrderStatus::fmt`. -/
def statusText : OrderStatus → String
  | .pending => "Pending"
  | .validating => "Validating"
  | .executing => "Executing"
  | .executed => "Executed"
  | .failed => "Failed"
  | .cancelled => "Cancelled"
  | .expired => "Expired"

/- An update as it is decoded; `toRfc3339` writes its time. -/
def readUpdate
    (toRfc3339 : Timestamp → String)
    (update : BotService.OrderUpdate) : OrderUpdate where
  orderId := update.orderId
  tokenMint := some update.tokenMint
  status := statusText update.status
  signature := update.signature
  executedAt := update.executedAt.map toRfc3339
  executedPrice := update.executedPrice
  executedAmount := update.executedAmount

/- The event as a server reads it. -/
def readEvent
    (toRfc3339 : Timestamp → String)
    (event : OrderEvent) : OrderUpdate :=
  readUpdate toRfc3339 (orderUpdate event)

------------------------------------------------------------
-- Engine, Servers and Connections
------------------------------------------------------------

/-
  The connection of a server's call: the life of the engine that
  has taken it, which call it is there, and how many of its
  updates have come out.
-/
structure Wire where
  engine : ℕ
  call : ℕ
  taken : ℕ

/-
  The earlier lives of the engine and the present one; the
  servers; and the connections, by server and its call.
-/
structure Pipeline where
  past : List OrderStreams
  engine : OrderStreams
  servers : List Fanout
  wires : ℕ × ℕ → Option Wire

inductive PathEvent where
  | engine (e : StreamEvent) : PathEvent
  -- the engine starts again
  | restart : PathEvent
  -- a server starts, and `throws` if there is no stream
  | boot (throws : Bool) : PathEvent
  -- something else than an update happens to a server
  | server (i : ℕ) (e : Fanout.Event) : PathEvent
  -- the engine takes the call of a server
  | connect (i call : ℕ) : PathEvent
  -- an update comes out of the connection of a call
  | data (i call : ℕ) (now : String) : PathEvent

/- The event is an update that a server is sent. -/
def bringsUpdate : Fanout.Event → Bool
  | .data _ _ _ => true
  | _ => false

namespace Pipeline

def start : Pipeline where
  past := []
  engine := .start
  servers := []
  wires := fun _ => none

/- All lives of the engine. -/
def engines (s : Pipeline) : List OrderStreams :=
  s.past ++ [s.engine]

/- The next update that is to come out of a connection. -/
def next (s : Pipeline) (w : Wire) : Option BotService.OrderUpdate :=
  match s.engines[w.engine]? with
  | none => none
  | some engine =>
      match engine.calls[w.call]? with
      | none => none
      | some call => call.yielded[w.taken]?

/- An event at server number `i`. -/
def atServer
    (s : Pipeline)
    (i : ℕ)
    (e : Fanout.Event) : Option Pipeline :=
  match s.servers[i]? with
  | none => none
  | some server =>
      (server.step e).map fun server' =>
        { s with servers := s.servers.set i server' }

def step
    (toRfc3339 : Timestamp → String)
    (s : Pipeline) : PathEvent → Option Pipeline
  | .engine e =>
      (s.engine.step e).map fun engine' => { s with engine := engine' }
  | .restart => some { s with past := s.engines, engine := .start }
  | .boot throws =>
      some { s with servers := s.servers ++ [Fanout.boot throws] }
  | .server i e =>
      if bringsUpdate e then none else s.atServer i e
  | .connect i call =>
      match s.wires (i, call) with
      | some _ => none
      | none =>
          (s.engine.step (.stream [])).map fun engine' =>
            { s with
              engine := engine'
              wires :=
                Function.update s.wires (i, call)
                  (some ⟨s.past.length, s.engine.calls.length, 0⟩) }
  | .data i call now =>
      match s.wires (i, call) with
      | none => none
      | some w =>
          match s.next w with
          | none => none
          | some update =>
              (s.atServer i
                (.data call (readUpdate toRfc3339 update) now)).map
                  fun s' =>
                    { s' with
                      wires :=
                        Function.update s'.wires (i, call)
                          (some { w with taken := w.taken + 1 }) }

def system (toRfc3339 : Timestamp → String) :
    Transition PathEvent Pipeline where
  step := step toRfc3339

/- Some server has sent the message to one of its clients. -/
def Sent (s : Pipeline) (message : LiveTradePayload) : Prop :=
  ∃ server ∈ s.servers, ∃ client ∈ server.clients,
    message ∈ client.received.map Prod.snd

end Pipeline

/- The events that the engine has emitted in all its lives. -/
def PathEvent.emitted? : PathEvent → Option OrderEvent
  | .engine e => e.emitted?
  | _ => none

def emittedOnPath (es : List PathEvent) : List OrderEvent :=
  es.filterMap PathEvent.emitted?

/- The trade shows what the event says. -/
structure Depicts
    (toRfc3339 : Timestamp → String)
    (event : OrderEvent)
    (trade : LiveTrade) : Prop where
  id : trade.id = event.orderId
  status : trade.status = statusText event.status
  signature : trade.signature = event.signature
  executedAt : trade.executedAt = event.executedAt.map toRfc3339
  price : trade.price = event.executedPrice.bind jsonNumber

------------------------------------------------------------
-- The Engine's Side
------------------------------------------------------------

/-
  A life of the engine holds events of the log, and its calls
  have yielded updates of such events.
-/
structure YieldsFrom
    (log : List OrderEvent)
    (engine : OrderStreams) : Prop where
  held : ∃ sent, engine.channel.Retains sent ∧ sent ⊆ log
  yielded :
    ∀ call ∈ engine.calls, ∀ update ∈ call.yielded,
      ∃ event ∈ log, update = orderUpdate event

section Engine

variable {log log' : List OrderEvent}
variable {engine engine' : OrderStreams} {e : StreamEvent}

theorem YieldsFrom.mono
    (hYields : YieldsFrom log engine)
    (hLog : log ⊆ log') :
    YieldsFrom log' engine := by
  rcases hYields.held with ⟨sent, hRetains, hSent⟩
  refine ⟨⟨sent, hRetains, List.Subset.trans hSent hLog⟩, ?_⟩
  intro call hCall update hUpdate
  rcases hYields.yielded call hCall update hUpdate with
    ⟨event, hMem, hEq⟩
  exact ⟨event, hLog hMem, hEq⟩

theorem yieldsFrom_start :
    YieldsFrom log OrderStreams.start := by
  refine ⟨⟨[], Broadcast.retains_start _, List.nil_subset _⟩, ?_⟩
  intro call hCall
  cases hCall

/- A call makes updates of what the channel holds. -/
theorem YieldsFrom.turn
    {call call' : StreamOrders}
    (hYields : YieldsFrom log engine)
    (hCall : call ∈ engine.calls)
    (hTurn : call.turn engine.channel engine.closed = some call') :
    ∀ update ∈ call'.yielded,
      ∃ event ∈ log, update = orderUpdate event := by
  rcases turn_cases hTurn with ⟨r, next, hRecv, rfl⟩ | ⟨_, rfl⟩
  · intro update hUpdate
    rcases List.mem_append.mp hUpdate with hOld | hNew
    · exact hYields.yielded call hCall update hOld
    · rcases hYields.held with ⟨sent, hRetains, hSent⟩
      rcases List.mem_map.mp hNew with ⟨event, hMem, rfl⟩
      rcases Broadcast.recv_cases hRetains hRecv with
        ⟨x, rfl, hAt, _⟩ | ⟨k, rfl, _⟩
      · have hSame : event = x :=
          List.mem_singleton.mp (List.mem_of_mem_filter hMem)
        rw [hSame]
        exact ⟨x, hSent (List.mem_of_getElem? hAt), rfl⟩
      · cases List.mem_of_mem_filter hMem
  · exact hYields.yielded call hCall

theorem YieldsFrom.step
    (hYields : YieldsFrom log engine)
    (hStep : engine.step e = some engine') :
    YieldsFrom (log ++ e.emitted?.toList) engine' := by
  have hLater : YieldsFrom (log ++ e.emitted?.toList) engine :=
    hYields.mono (List.subset_append_left log _)
  rcases step_cases hStep with
    ⟨order, rfl, rfl⟩ | ⟨ids, rfl, rfl⟩ |
      ⟨j, call, call', hCall, rfl, hWhich⟩ | ⟨rfl, rfl⟩
  · refine ⟨?_, hLater.yielded⟩
    rcases hYields.held with ⟨sent, hRetains, hSent⟩
    refine ⟨_, hRetains.send order.event, ?_⟩
    intro event hMem
    rcases List.mem_append.mp hMem with hOld | hNew
    · exact List.mem_append_left _ (hSent hOld)
    · exact List.mem_append_right _ hNew
  · refine ⟨hLater.held, ?_⟩
    intro call hCall update hUpdate
    rcases List.mem_append.mp hCall with hOld | hNew
    · exact hLater.yielded call hOld update hUpdate
    · rw [List.mem_singleton.mp hNew] at hUpdate
      cases hUpdate
  · have hHere : call ∈ engine.calls := List.mem_of_getElem? hCall
    refine ⟨hLater.held, ?_⟩
    intro other hOther
    rcases List.mem_or_eq_of_mem_set hOther with hOld | rfl
    · exact hLater.yielded other hOld
    · rcases hWhich with ⟨rfl, hTurn⟩ | ⟨rfl, rfl⟩
      · exact hLater.turn hHere hTurn
      · exact hLater.yielded call hHere
  · exact ⟨hLater.held, hLater.yielded⟩

end Engine

------------------------------------------------------------
-- The Servers' Side
------------------------------------------------------------

/- What a server looks up and sends says what some event says. -/
structure SendsFrom
    (toRfc3339 : Timestamp → String)
    (log : List OrderEvent)
    (server : Fanout) : Prop where
  lookups :
    ∀ lookup ∈ server.lookups,
      ∃ event ∈ log, lookup.update = readEvent toRfc3339 event
  received :
    ∀ client ∈ server.clients, ∀ message ∈ client.received,
      ∃ event ∈ log, message.2.Tells (readEvent toRfc3339 event)

section Server

variable {toRfc3339 : Timestamp → String}
variable {log log' : List OrderEvent}
variable {server server' : Fanout} {e : Fanout.Event}

theorem SendsFrom.mono
    (hSends : SendsFrom toRfc3339 log server)
    (hLog : log ⊆ log') :
    SendsFrom toRfc3339 log' server := by
  constructor
  · intro lookup hMem
    rcases hSends.lookups lookup hMem with ⟨event, hEvent, hEq⟩
    exact ⟨event, hLog hEvent, hEq⟩
  · intro client hClient message hMem
    rcases hSends.received client hClient message hMem with
      ⟨event, hEvent, hTells⟩
    exact ⟨event, hLog hEvent, hTells⟩

theorem sendsFrom_boot (throws : Bool) :
    SendsFrom toRfc3339 log (Fanout.boot throws) := by
  cases throws with
  | true =>
    exact ⟨fun _ hMem => absurd hMem List.not_mem_nil,
      fun _ hMem => absurd hMem List.not_mem_nil⟩
  | false =>
    exact ⟨fun _ hMem => absurd hMem List.not_mem_nil,
      fun _ hMem => absurd hMem List.not_mem_nil⟩

/- An event changes this only if it is an update from elsewhere. -/
theorem SendsFrom.step
    (hSends : SendsFrom toRfc3339 log server)
    (hData :
      ∀ call update now, e = .data call update now →
        ∃ event ∈ log, update = readEvent toRfc3339 event)
    (hStep : server.step e = some server') :
    SendsFrom toRfc3339 log server' := by
  cases Fanout.relays_of_step hStep with
  | @delivers call update now _ hDelivered hLookups hClients =>
    constructor
    · intro lookup hMem
      rw [hLookups] at hMem
      rcases List.mem_append.mp hMem with hOld | hNew
      · exact hSends.lookups lookup hOld
      · rw [List.mem_singleton.mp hNew]
        exact hData call update now rfl
    · rw [hClients]
      exact hSends.received
  | @answers lookup rows hWaiting =>
    constructor
    · intro other hMem
      exact hSends.lookups other (List.mem_of_mem_erase hMem)
    · intro client hClient message hMem
      rcases List.mem_map.mp hClient with ⟨before, hBefore, rfl⟩
      rcases Fanout.mem_received_onOrder hMem with hOld | hNew
      · exact hSends.received before hBefore message hOld
      · rcases hSends.lookups lookup hWaiting with ⟨event, hEvent, hEq⟩
        refine ⟨event, hEvent, ?_⟩
        rw [hNew, ← hEq]
        exact Fanout.tells_enrichUpdate _ _ _
  | other _ _ hLookups hClients _ =>
    constructor
    · rw [hLookups]
      exact hSends.lookups
    · intro client hClient message hMem
      rcases List.mem_iff_getElem?.mp hClient with ⟨i, hAt⟩
      rcases hClients i client hAt with ⟨before, hBefore, hSame⟩ |
        ⟨_, hNone⟩
      · rw [hSame] at hMem
        exact hSends.received before (List.mem_of_getElem? hBefore)
          message hMem
      · rw [hNone] at hMem
        cases hMem

end Server

------------------------------------------------------------
-- The Whole Way
------------------------------------------------------------

/- Nothing on the way was not emitted by the engine. -/
structure Sound
    (toRfc3339 : Timestamp → String)
    (log : List OrderEvent)
    (s : Pipeline) : Prop where
  engines : ∀ engine ∈ s.engines, YieldsFrom log engine
  servers : ∀ server ∈ s.servers, SendsFrom toRfc3339 log server

section Way

variable {toRfc3339 : Timestamp → String}
variable {log log' : List OrderEvent}
variable {s s' : Pipeline} {e : PathEvent}

theorem Sound.mono
    (hSound : Sound toRfc3339 log s)
    (hLog : log ⊆ log') :
    Sound toRfc3339 log' s where
  engines := fun engine hMem => (hSound.engines engine hMem).mono hLog
  servers := fun server hMem => (hSound.servers server hMem).mono hLog

/- The engine that runs may be replaced by one that is as sound. -/
theorem Sound.withEngine
    {engine' : OrderStreams}
    {wires : ℕ × ℕ → Option Wire}
    (hSound : Sound toRfc3339 log s)
    (hEngine : YieldsFrom log engine') :
    Sound toRfc3339 log
      { s with engine := engine', wires := wires } := by
  refine ⟨?_, hSound.servers⟩
  intro engine hMem
  rcases List.mem_append.mp hMem with hPast | hHere
  · exact hSound.engines engine (List.mem_append_left _ hPast)
  · rw [List.mem_singleton.mp hHere]
    exact hEngine

theorem Sound.engine
    (hSound : Sound toRfc3339 log s) :
    YieldsFrom log s.engine :=
  hSound.engines s.engine
    (List.mem_append_right _ (List.mem_singleton.mpr rfl))

theorem Sound.atServer
    {i : ℕ} {e : Fanout.Event}
    (hSound : Sound toRfc3339 log s)
    (hData :
      ∀ call update now, e = .data call update now →
        ∃ event ∈ log, update = readEvent toRfc3339 event)
    (hStep : s.atServer i e = some s') :
    Sound toRfc3339 log s' := by
  unfold Pipeline.atServer at hStep
  split at hStep
  · cases hStep
  · rename_i server hServer
    rcases Option.map_eq_some_iff.mp hStep with ⟨server', hEvent, rfl⟩
    refine ⟨hSound.engines, ?_⟩
    intro other hMem
    rcases List.mem_or_eq_of_mem_set hMem with hOld | rfl
    · exact hSound.servers other hOld
    · exact (hSound.servers server (List.mem_of_getElem? hServer)).step
        hData hEvent

/- What comes out of a connection was emitted. -/
theorem Sound.next
    {w : Wire} {update : BotService.OrderUpdate}
    (hSound : Sound toRfc3339 log s)
    (hNext : s.next w = some update) :
    ∃ event ∈ log, update = orderUpdate event := by
  unfold Pipeline.next at hNext
  split at hNext
  · cases hNext
  · rename_i engine hEngine
    split at hNext
    · cases hNext
    · rename_i call hCall
      exact (hSound.engines engine
        (List.mem_of_getElem? hEngine)).yielded call
          (List.mem_of_getElem? hCall) update
            (List.mem_of_getElem? hNext)

theorem Sound.step
    (hSound : Sound toRfc3339 log s)
    (hStep : s.step toRfc3339 e = some s') :
    Sound toRfc3339 (log ++ e.emitted?.toList) s' := by
  have hLater : Sound toRfc3339 (log ++ e.emitted?.toList) s :=
    hSound.mono (List.subset_append_left log _)
  cases e with
  | engine e =>
    rcases Option.map_eq_some_iff.mp hStep with ⟨engine', hEngine, rfl⟩
    exact hLater.withEngine (hSound.engine.step hEngine)
  | restart =>
    cases hStep
    refine ⟨?_, hLater.servers⟩
    intro engine hMem
    rcases List.mem_append.mp hMem with hPast | hNew
    · exact hLater.engines engine hPast
    · rw [List.mem_singleton.mp hNew]
      exact yieldsFrom_start
  | boot throws =>
    cases hStep
    refine ⟨hLater.engines, ?_⟩
    intro server hMem
    rcases List.mem_append.mp hMem with hOld | hNew
    · exact hLater.servers server hOld
    · rw [List.mem_singleton.mp hNew]
      exact sendsFrom_boot throws
  | server i e =>
    rw [Pipeline.step] at hStep
    split at hStep
    · cases hStep
    · rename_i hOther
      apply hLater.atServer ?_ hStep
      intro call update now hData
      rw [hData] at hOther
      exact absurd rfl hOther
  | connect i call =>
    rw [Pipeline.step] at hStep
    split at hStep
    · cases hStep
    · rcases Option.map_eq_some_iff.mp hStep with
        ⟨engine', hEngine, rfl⟩
      exact hLater.withEngine (hSound.engine.step hEngine)
  | data i call now =>
    rw [Pipeline.step] at hStep
    split at hStep
    · cases hStep
    · split at hStep
      · cases hStep
      · rename_i update hNext
        rcases Option.map_eq_some_iff.mp hStep with ⟨m, hServer, rfl⟩
        have hAfter :
            Sound toRfc3339
              (log ++ (PathEvent.data i call now).emitted?.toList) m := by
          apply hLater.atServer ?_ hServer
          intro call' update' now' hData
          cases hData
          rcases hLater.next hNext with ⟨event, hMem, rfl⟩
          exact ⟨event, hMem, rfl⟩
        exact ⟨hAfter.engines, hAfter.servers⟩

theorem emittedOnPath_concat (es : List PathEvent) :
    emittedOnPath (es ++ [e]) =
      emittedOnPath es ++ e.emitted?.toList := by
  unfold emittedOnPath
  rw [List.filterMap_append]
  congr 1

theorem sound_of_exec
    {es : List PathEvent}
    (hExec :
      (Pipeline.system toRfc3339).exec .start es = some s) :
    Sound toRfc3339 (emittedOnPath es) s := by
  apply Transition.exec_induction
    (P := fun es s => Sound toRfc3339 (emittedOnPath es) s) ?_ ?_ hExec
  · refine ⟨?_, fun _ hMem => absurd hMem List.not_mem_nil⟩
    intro engine hMem
    rw [List.mem_singleton.mp hMem]
    exact yieldsFrom_start
  · intro es t e t' _ hSound hStep
    rw [emittedOnPath_concat]
    exact hSound.step hStep

end Way

------------------------------------------------------------
-- Outcomes
------------------------------------------------------------

section Outcomes

variable {tr : List OmEvent} {event event' : OrderEvent}

/- An outcome that was sent is the one of its order. -/
theorem filter_outcomeEvents
    (hOnce : ((outcomeEvents tr).map OrderEvent.orderId).Nodup)
    (hSent : event ∈ sentEvents tr)
    (hOutcome : event.status.isOutcome = true) :
    (outcomeEvents tr).filter (·.orderId = event.orderId) =
      [event] := by
  have hMem : event ∈ outcomeEvents tr := by
    rw [outcomeEvents_eq_filter]
    exact List.mem_filter.mpr ⟨hSent, hOutcome⟩
  rcases List.append_of_mem hMem with ⟨before, after, hSplit⟩
  rw [hSplit] at hOnce ⊢
  rw [List.map_append, List.map_cons, List.nodup_append,
    List.nodup_cons] at hOnce
  rcases hOnce with ⟨_, ⟨hAfter, _⟩, hApart⟩
  have hBeforeNone :
      before.filter (·.orderId = event.orderId) = [] := by
    apply List.filter_eq_nil_iff.mpr
    intro other hOther hSame
    exact hApart _ (List.mem_map_of_mem hOther) _ List.mem_cons_self
      (of_decide_eq_true hSame)
  have hAfterNone :
      after.filter (·.orderId = event.orderId) = [] := by
    apply List.filter_eq_nil_iff.mpr
    intro other hOther hSame
    apply hAfter
    rw [← of_decide_eq_true hSame]
    exact List.mem_map_of_mem hOther
  rw [List.filter_append, hBeforeNone, List.nil_append,
    List.filter_cons, hAfterNone, if_pos (decide_eq_true rfl)]

/- A trade that is read off a message shows what the message says. -/
theorem depicts_of_tells
    {toRfc3339 : Timestamp → String}
    {message : LiveTradePayload}
    (hTells : message.Tells (readEvent toRfc3339 event)) :
    Depicts toRfc3339 event (.ofPayload message) where
  id := hTells.id
  status := hTells.status
  signature := hTells.signature
  executedAt := hTells.executedAt
  price := congrArg (·.bind jsonNumber) hTells.price

/-
  Of all runs of the engine, and all ways of its events to the
  dashboards: a trade that is shown is what the engine once said
  of its order; and if that is an outcome, the order has no
  other.
-/
theorem depicts_of_run
    (om : OrderManager)
    (db : Database)
    (chain : Chain)
    (seenIds : List OrderId)
    {tr : List OmEvent}
    {c : OmConfig}
    (hRun :
      Machine.Run om.machine Machine.anyStep
        (State.boot db chain seenIds) tr c)
    (toRfc3339 : Timestamp → String)
    {es : List PathEvent}
    {s : Pipeline}
    (hEmitted : emittedOnPath es ⊆ sentEvents tr)
    (hExec :
      (Pipeline.system toRfc3339).exec .start es = some s)
    (messages : List LiveTradePayload)
    (hSent : ∀ message ∈ messages, s.Sent message)
    (trade : LiveTrade)
    (hShown : trade ∈ liveTrades messages) :
    ∃ event ∈ sentEvents tr,
      Depicts toRfc3339 event trade ∧
        (event.status.isOutcome = true →
          (outcomeEvents tr).filter (·.orderId = trade.id) =
            [event]) := by
  rcases Protocol.shadowRun_of_run om.follows_judging hRun with
    ⟨shs, hShadow⟩
  have hOnce := (told_of_judgedRun hShadow).once
  rcases current_liveTrades hShown with ⟨message, hLast, rfl⟩
  have hMessage : message ∈ messages :=
    List.mem_of_mem_filter (List.mem_of_getLast? hLast)
  rcases hSent message hMessage with
    ⟨server, hServer, client, hClient, hReceived⟩
  rcases List.mem_map.mp hReceived with ⟨numbered, hNumbered, rfl⟩
  rcases ((sound_of_exec hExec).servers server hServer).received client
    hClient numbered hNumbered with ⟨event, hEvent, hTells⟩
  have hDepicts := depicts_of_tells hTells
  refine ⟨event, hEmitted hEvent, hDepicts, ?_⟩
  intro hOutcome
  rw [hDepicts.id]
  exact filter_outcomeEvents hOnce (hEmitted hEvent) hOutcome

end Outcomes

/- The trade of `executedOrder` on its way to one dashboard. -/
def oneOutcome : List PathEvent :=
  [.boot false, .connect 0 0, .engine (.emit executedOrder),
    .engine (.turn 0), .restart, .server 0 (.connected []),
    .data 0 0 "now", .server 0 (.lookedUp 0 none)]

/- What the clients of all servers were sent. -/
def sentMessages (s : Pipeline) : List LiveTradePayload :=
  s.servers.flatMap fun server =>
    server.clients.flatMap fun client => client.received.map Prod.snd

theorem exists_depicts :
    ∃ (tr : List OmEvent) (s : Pipeline),
      (liveTrades (sentMessages s)).map
          (fun trade => (trade.id, trade.status)) =
        [("a", "Executed")] ∧
        ∀ trade ∈ liveTrades (sentMessages s),
          ∃ event ∈ sentEvents tr,
            Depicts toString event trade ∧
              (event.status.isOutcome = true →
                (outcomeEvents tr).filter (·.orderId = trade.id) =
                  [event]) := by
  have hPlay :=
    Machine.exists_run_of_play sampleManager.machine
      (sampleState .enabled) retriedOrderSchedule
      (fun tr _ => decide (executedOrder.event ∈ sentEvents tr))
      (by decide +kernel)
  rcases hPlay with ⟨tr, c, hRun, hShown⟩
  have hAny :=
    Transition.exists_exec_of_any (Pipeline.system toString) .start
      oneOutcome
      (fun s =>
        decide
          ((liveTrades (sentMessages s)).map
              (fun trade => (trade.id, trade.status)) =
            [("a", "Executed")]))
      (by decide +kernel)
  rcases hAny with ⟨s, hExec, hTrades⟩
  refine ⟨tr, s, of_decide_eq_true hTrades, ?_⟩
  refine depicts_of_run sampleManager _ _ _ hRun toString ?_ hExec
    (sentMessages s) ?_
  · exact List.cons_subset.mpr
      ⟨of_decide_eq_true hShown, List.nil_subset _⟩
  · intro message hMem
    rcases List.mem_flatMap.mp hMem with ⟨server, hServer, hMem⟩
    rcases List.mem_flatMap.mp hMem with ⟨client, hClient, hMem⟩
    exact ⟨server, hServer, client, hClient, hMem⟩

end Pumpy
