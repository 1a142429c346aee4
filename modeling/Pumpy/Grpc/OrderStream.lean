import Pumpy.Engine.Outcomes
import Pumpy.Interleaving.Broadcast
import Pumpy.Interleaving.Transition

/-
  The `StreamOrders` calls of the engine's gRPC service
  (rust-engine/src/grpc_server.rs) on the broadcast channel of
  the order manager (`emit_event`, `subscribe_events`).

  A call runs one turn of its loop at a time; which call runs
  next, what is emitted in between and when a client goes away
  is up to the events.  A value that is sent while nobody
  listens is seen by nobody, so it may as well be held.

  Key definitions include:
    * `StreamOrders`
    * `StreamOrders.turn`
    * `OrderStreams.system`
    * `updates`
    * `Relays`

  The main result is `relays_of_exec`: whatever else goes on, a
  call yields the updates of its own orders in the order in
  which they were emitted, none twice, and lacks at most what
  was emitted before the channel's capacity of newer events.
  With what the engine guarantees of its events,
  `toldOnce_of_run` follows: no client is told of two outcomes of
  one order.
-/

namespace Pumpy

open Interleaving

------------------------------------------------------------
-- Calls
------------------------------------------------------------

namespace BotService

/- `bot_proto::OrderUpdate`. -/
structure OrderUpdate where
  orderId : OrderId
  status : OrderStatus
  signature : Option String
  error : Option String
  executedAt : Option Timestamp
  executedPrice : Option F64
  executedAmount : Option UInt64
  tokenMint : String
deriving DecidableEq

/- What a call makes of an event. -/
def orderUpdate (event : OrderEvent) : OrderUpdate where
  orderId := event.orderId
  status := event.status
  signature := event.signature
  error := event.error
  executedAt := event.executedAt
  executedPrice := event.executedPrice
  executedAmount := event.executedAmount
  tokenMint := event.tokenMint

/- `filter_ids.is_empty() || filter_ids.contains(&order_id)`. -/
def wanted
    (filterIds : List OrderId)
    (event : OrderEvent) : Bool :=
  filterIds.isEmpty || filterIds.contains event.orderId

/- The updates a call would make of some events. -/
def updates
    (filterIds : List OrderId)
    (events : List OrderEvent) : List OrderUpdate :=
  (events.filter (wanted filterIds)).map orderUpdate

/-
  A call of `stream_orders`: the orders it was asked for, the
  event it waits for, what it has yielded, whether it goes on.
-/
structure StreamOrders where
  filterIds : List OrderId
  next : ℕ
  yielded : List OrderUpdate
  alive : Bool

/- `broadcast::channel(1000)`, rounded up to a power of two. -/
def eventCapacity : ℕ := 1024

namespace StreamOrders

/- One turn of the loop; it waits where nothing has come in. -/
def turn
    (channel : Broadcast OrderEvent)
    (closed : Bool)
    (call : StreamOrders) : Option StreamOrders :=
  match channel.recv call.next with
  | some (.value event, next) =>
      some
        { call with
          next := next
          yielded :=
            if wanted call.filterIds event then
              call.yielded ++ [orderUpdate event]
            else
              call.yielded }
  | some (.lagged _, next) => some { call with next := next }
  | none =>
      if closed then some { call with alive := false } else none

end StreamOrders

/- The channel, whether its senders are gone, and all calls. -/
structure OrderStreams where
  channel : Broadcast OrderEvent
  closed : Bool
  calls : List StreamOrders

inductive StreamEvent where
  -- the order manager tells what has become of an order
  | emit (order : Order) : StreamEvent
  -- a client asks for updates
  | stream (filterIds : List OrderId) : StreamEvent
  -- a call runs one turn
  | turn (call : ℕ) : StreamEvent
  -- the client of a call goes away
  | gone (call : ℕ) : StreamEvent
  -- the last sender is dropped
  | close : StreamEvent

namespace OrderStreams

def start : OrderStreams where
  channel := .start eventCapacity
  closed := false
  calls := []

def step
    (s : OrderStreams) : StreamEvent → Option OrderStreams
  | .emit order =>
      if s.closed then none
      else some { s with channel := s.channel.send order.event }
  | .stream filterIds =>
      some
        { s with
          calls := s.calls ++ [⟨filterIds, s.channel.sent, [], true⟩] }
  | .turn i =>
      match s.calls[i]? with
      | some call =>
          if call.alive then
            (call.turn s.channel s.closed).map fun call' =>
              { s with calls := s.calls.set i call' }
          else
            none
      | none => none
  | .gone i =>
      match s.calls[i]? with
      | some call =>
          some
            { s with
              calls := s.calls.set i { call with alive := false } }
      | none => none
  | .close => some { s with closed := true }

def system : Transition StreamEvent OrderStreams where
  step := step

end OrderStreams

------------------------------------------------------------
-- What Was Emitted
------------------------------------------------------------

def StreamEvent.emitted? : StreamEvent → Option OrderEvent
  | .emit order => some order.event
  | _ => none

def StreamEvent.opens : StreamEvent → Bool
  | .stream _ => true
  | _ => false

/- The events that were emitted in a run. -/
def emitted (es : List StreamEvent) : List OrderEvent :=
  es.filterMap StreamEvent.emitted?

/- How many calls were made in a run. -/
def opened (es : List StreamEvent) : ℕ :=
  es.countP StreamEvent.opens

/-
  A call with the filter `filterIds` and the events emitted
  since it was made.  It has been through `seen` and not yet
  through `unread`.
-/
structure Relays
    (filterIds : List OrderId)
    (events : List OrderEvent)
    (channel : Broadcast OrderEvent)
    (call : StreamOrders)
    (seen unread : List OrderEvent) : Prop where
  split : events = seen ++ unread
  unread : channel.sent = call.next + unread.length
  -- in order, none twice, and no others
  ordered : call.yielded.Sublist (updates filterIds seen)
  -- the last ones were not missed
  recent :
    updates filterIds
        (seen.drop (events.length - eventCapacity)) <:+
      call.yielded

/- A call does not run when it is too far behind. -/
def KeepsUp
    (i : ℕ)
    (s : OrderStreams)
    (e : StreamEvent) : Prop :=
  e = .turn i →
    ∀ call ∈ s.calls[i]?, s.channel.sent ≤ call.next + eventCapacity

section Lists

variable {filterIds : List OrderId} {l l' : List OrderEvent}
variable {es : List StreamEvent} {e : StreamEvent}

theorem updates_append :
    updates filterIds (l ++ l') =
      updates filterIds l ++ updates filterIds l' := by
  unfold updates
  rw [List.filter_append, List.map_append]

theorem updates_singleton (event : OrderEvent) :
    updates filterIds [event] =
      if wanted filterIds event then [orderUpdate event] else [] := by
  unfold updates
  rw [List.filter_singleton]
  cases wanted filterIds event with
  | true => rfl
  | false => rfl

theorem updates_sublist
    (hSub : l.Sublist l') :
    (updates filterIds l).Sublist (updates filterIds l') :=
  (hSub.filter _).map _

theorem updates_suffix
    (hSuffix : l <:+ l') :
    updates filterIds l <:+ updates filterIds l' := by
  rcases hSuffix with ⟨older, rfl⟩
  exact ⟨_, updates_append.symm⟩

@[simp] theorem emitted_append (es es' : List StreamEvent) :
    emitted (es ++ es') = emitted es ++ emitted es' :=
  List.filterMap_append

theorem emitted_singleton :
    emitted [e] = e.emitted?.toList := by
  unfold emitted
  cases hEmitted : e.emitted? with
  | none => simp [hEmitted]
  | some event => simp [hEmitted]

theorem emitted_quiet
    (hNone : e.emitted? = none) :
    emitted (es ++ [e]) = emitted es := by
  rw [emitted_append, emitted_singleton, hNone]
  exact List.append_nil _

theorem opened_concat :
    opened (es ++ [e]) = opened es + if e.opens then 1 else 0 := by
  unfold opened
  rw [List.countP_append, List.countP_singleton]

end Lists

------------------------------------------------------------
-- Runs
------------------------------------------------------------

open OrderStreams

/- What is so of the channel and the calls in every run. -/
structure StreamsHold
    (es : List StreamEvent)
    (s : OrderStreams) : Prop where
  retains : s.channel.Retains (emitted es)
  capacity : s.channel.capacity = eventCapacity
  calls : s.calls.length = opened es

/- Call `i`, made after `first` events, has received `rs`. -/
structure Tracks
    (filterIds : List OrderId)
    (log : List OrderEvent)
    (first i : ℕ)
    (rs : List (Received OrderEvent))
    (s : OrderStreams)
    (call : StreamOrders) : Prop where
  at_index : s.calls[i]? = some call
  filter : call.filterIds = filterIds
  follows : Follows eventCapacity log first rs call.next
  yielded : call.yielded = updates filterIds (Received.values rs)

section Steps

variable {s s' : OrderStreams} {call call' : StreamOrders}
variable {es pre post : List StreamEvent} {e : StreamEvent}
variable {filterIds : List OrderId} {log : List OrderEvent}
variable {first i j : ℕ} {rs : List (Received OrderEvent)}

/- A turn moves the call on, unless it ends it. -/
theorem turn_cases
    {channel : Broadcast OrderEvent} {closed : Bool}
    (hTurn : call.turn channel closed = some call') :
    (∃ r next,
        channel.recv call.next = some (r, next) ∧
          call' =
            { call with
              next := next
              yielded :=
                call.yielded ++
                  updates call.filterIds (Received.values [r]) }) ∨
      (channel.recv call.next = none ∧
        call' = { call with alive := false }) := by
  unfold StreamOrders.turn at hTurn
  cases hRecv : channel.recv call.next with
  | none =>
      rw [hRecv] at hTurn
      right
      cases closed with
      | true => exact ⟨rfl, (Option.some.inj hTurn).symm⟩
      | false => cases hTurn
  | some got =>
      rcases got with ⟨r, next⟩
      rw [hRecv] at hTurn
      left
      refine ⟨r, next, rfl, ?_⟩
      cases r with
      | value event =>
          rw [← Option.some.inj hTurn]
          have hValues :
              Received.values [Received.value event] = [event] := rfl
          rw [hValues, updates_singleton]
          cases wanted call.filterIds event with
          | true => rfl
          | false => simp
      | lagged missed =>
          rw [← Option.some.inj hTurn]
          have hValues :
              Received.values
                [(Received.lagged missed : Received OrderEvent)] = [] :=
            rfl
          rw [hValues]
          simp [updates]

/- All that an event can do. -/
theorem step_cases
    (hStep : system.step s e = some s') :
    (∃ order,
        e = .emit order ∧
          s' = { s with channel := s.channel.send order.event }) ∨
      (∃ ids,
        e = .stream ids ∧
          s' =
            { s with
              calls := s.calls ++ [⟨ids, s.channel.sent, [], true⟩] }) ∨
      (∃ j call call',
        s.calls[j]? = some call ∧
          s' = { s with calls := s.calls.set j call' } ∧
            ((e = .turn j ∧
                call.turn s.channel s.closed = some call') ∨
              (e = .gone j ∧ call' = { call with alive := false }))) ∨
      (e = .close ∧ s' = { s with closed := true }) := by
  cases e with
  | emit order =>
      change (if s.closed then none else some _) = some s' at hStep
      split at hStep
      · cases hStep
      · exact .inl ⟨order, rfl, (Option.some.inj hStep).symm⟩
  | stream ids =>
      exact .inr (.inl ⟨ids, rfl, (Option.some.inj hStep).symm⟩)
  | turn j =>
      change
        (match s.calls[j]? with
          | some call => if call.alive then _ else none
          | none => none) = some s' at hStep
      right; right; left
      cases hCall : s.calls[j]? with
      | none => simp [hCall] at hStep
      | some call =>
          rw [hCall] at hStep
          dsimp only at hStep
          split at hStep
          · rcases Option.map_eq_some_iff.mp hStep with
              ⟨call', hTurn, hSame⟩
            exact ⟨j, call, call', hCall, hSame.symm, .inl ⟨rfl, hTurn⟩⟩
          · cases hStep
  | gone j =>
      change
        (match s.calls[j]? with
          | some call => some _
          | none => none) = some s' at hStep
      right; right; left
      cases hCall : s.calls[j]? with
      | none => simp [hCall] at hStep
      | some call =>
          rw [hCall] at hStep
          exact ⟨j, call, _, hCall, (Option.some.inj hStep).symm,
            .inr ⟨rfl, rfl⟩⟩
  | close =>
      exact .inr (.inr (.inr ⟨rfl, (Option.some.inj hStep).symm⟩))

/- The channel has what was emitted, and calls are only added. -/
theorem StreamsHold.step
    (hHolds : StreamsHold es s)
    (hStep : system.step s e = some s') :
    StreamsHold (es ++ [e]) s' := by
  rcases hHolds with ⟨hRetains, hCapacity, hCalls⟩
  rcases step_cases hStep with
    ⟨order, rfl, rfl⟩ | ⟨ids, rfl, rfl⟩ |
      ⟨j, call, call', hCall, rfl, hWhich⟩ | ⟨rfl, rfl⟩
  · refine ⟨?_, hCapacity, ?_⟩
    · rw [emitted_append]
      exact hRetains.send order.event
    · rw [opened_concat]
      exact hCalls
  · refine ⟨?_, hCapacity, ?_⟩
    · rw [emitted_quiet rfl]
      exact hRetains
    · rw [opened_concat, ← hCalls, List.length_append]
      rfl
  · have hNone : e.emitted? = none ∧ e.opens = false := by
      rcases hWhich with ⟨rfl, _⟩ | ⟨rfl, _⟩
      · exact ⟨rfl, rfl⟩
      · exact ⟨rfl, rfl⟩
    refine ⟨?_, hCapacity, ?_⟩
    · rw [emitted_quiet hNone.1]
      exact hRetains
    · rw [opened_concat, hNone.2, ← hCalls]
      exact List.length_set
  · refine ⟨?_, hCapacity, ?_⟩
    · rw [emitted_quiet rfl]
      exact hRetains
    · rw [opened_concat]
      exact hCalls

/- A call that has just been made has received nothing. -/
theorem StreamsHold.tracks_new
    (hHolds : StreamsHold es s)
    (hStep : system.step s (.stream filterIds) = some s') :
    ∃ call,
      Tracks filterIds (emitted es) (emitted es).length (opened es)
        [] s' call := by
  cases Option.some.inj hStep
  refine ⟨⟨filterIds, s.channel.sent, [], true⟩, ?_, rfl, ?_, rfl⟩
  · rw [← hHolds.calls]
    exact List.getElem?_concat_length
  · rw [← hHolds.retains.sent]
    exact .nil

/- What a call has received, after one more event. -/
theorem Tracks.step
    (hTracks : Tracks filterIds (emitted es) first i rs s call)
    (hHolds : StreamsHold es s)
    (hStep : system.step s e = some s') :
    ∃ rs' call',
      Tracks filterIds (emitted (es ++ [e])) first i rs' s' call' ∧
        (KeepsUp i s e →
          Received.lost rs' = Received.lost rs) := by
  rcases hTracks with ⟨hAt, hFilter, hFollows, hYielded⟩
  have hInside := (List.getElem?_eq_some_iff.mp hAt).1
  have hLater :
      Follows eventCapacity (emitted (es ++ [e])) first rs call.next := by
    rw [emitted_append]
    exact hFollows.later _
  rcases step_cases hStep with
    ⟨order, rfl, rfl⟩ | ⟨ids, rfl, rfl⟩ |
      ⟨j, other, other', hOther, rfl, hWhich⟩ | ⟨rfl, rfl⟩
  · exact ⟨rs, call, ⟨hAt, hFilter, hLater, hYielded⟩, fun _ => rfl⟩
  · refine ⟨rs, call, ⟨?_, hFilter, hLater, hYielded⟩, fun _ => rfl⟩
    exact (List.getElem?_append_left hInside).trans hAt
  · by_cases hSame : j = i
    · subst hSame
      cases hOther.symm.trans hAt
      have hSet := List.getElem?_set_self (a := other') hInside
      rcases hWhich with ⟨rfl, hTurn⟩ | ⟨rfl, rfl⟩
      · rcases turn_cases hTurn with
          ⟨r, next, hRecv, rfl⟩ | ⟨hNone, rfl⟩
        · have hRetains :
              s.channel.Retains (emitted (es ++ [.turn j])) := by
            rw [emitted_quiet rfl]
            exact hHolds.retains
          refine ⟨rs ++ [r], _, ⟨hSet, hFilter, ?_, ?_⟩, ?_⟩
          · rw [← hHolds.capacity] at hLater ⊢
            exact hLater.recv hRetains hRecv
          · change call.yielded ++ _ = _
            rw [hYielded, hFilter, ← updates_append]
            congr 1
            exact List.filterMap_append.symm
          · intro hKeeps
            have hBehind := hKeeps rfl call hAt
            rw [Received.lost_concat]
            rcases Broadcast.recv_cases hRetains hRecv with
              ⟨x, rfl, _⟩ | ⟨k, rfl, hNext, hFull, hPos⟩
            · rfl
            · rw [hRetains.sent, ← hHolds.capacity] at hBehind
              omega
        · exact ⟨rs, _, ⟨hSet, hFilter, hLater, hYielded⟩,
            fun _ => rfl⟩
      · exact ⟨rs, _, ⟨hSet, hFilter, hLater, hYielded⟩,
          fun _ => rfl⟩
    · refine ⟨rs, call, ⟨?_, hFilter, hLater, hYielded⟩,
        fun _ => rfl⟩
      exact (List.getElem?_set_ne hSame).trans hAt
  · exact ⟨rs, call, ⟨hAt, hFilter, hLater, hYielded⟩, fun _ => rfl⟩

theorem holds_of_exec
    (hExec : system.exec start es = some s) :
    StreamsHold es s :=
  Transition.exec_induction ⟨Broadcast.retains_start _, rfl, rfl⟩
    (fun _ _ _ _ _ hHolds hStep => hHolds.step hStep) hExec

/- After every run, every call made in it is tracked. -/
theorem tracks_of_exec
    (hExec :
      system.exec start (pre ++ .stream filterIds :: post) = some s) :
    StreamsHold (pre ++ .stream filterIds :: post) s ∧
      ∃ rs call,
        Tracks filterIds
            (emitted (pre ++ .stream filterIds :: post))
            (emitted pre).length (opened pre) rs s call ∧
          (system.Meets (KeepsUp (opened pre)) start
              (pre ++ .stream filterIds :: post) →
            Received.lost rs = 0) := by
  refine ⟨holds_of_exec hExec, ?_⟩
  induction post using List.reverseRecOn generalizing s with
  | nil =>
      rcases Transition.exec_append_singleton.mp hExec with
        ⟨m, hBefore, hStep⟩
      rcases (holds_of_exec hBefore).tracks_new hStep with ⟨call, hTracks⟩
      refine ⟨[], call, ?_, fun _ => rfl⟩
      rw [emitted_quiet rfl]
      exact hTracks
  | append_singleton post e ih =>
      rw [← List.cons_append, ← List.append_assoc] at hExec ⊢
      rcases Transition.exec_append_singleton.mp hExec with
        ⟨m, hBefore, hStep⟩
      rcases ih hBefore with ⟨rs, call, hTracks, hNone⟩
      rcases hTracks.step (holds_of_exec hBefore) hStep with
        ⟨rs', call', hTracks', hSame⟩
      refine ⟨rs', call', hTracks', fun hMeets => ?_⟩
      rw [hSame (hMeets _ e [] m rfl hBefore)]
      exact hNone hMeets.earlier

/- What a call has received is what it relays. -/
theorem Tracks.relays
    {events : List OrderEvent}
    (hTracks : Tracks filterIds (log ++ events) log.length i rs s call)
    (hRetains : s.channel.Retains (log ++ events)) :
    ∃ seen unread,
      Relays filterIds events s.channel call seen unread ∧
        (Received.lost rs = 0 →
          call.yielded = updates filterIds seen) := by
  have hFollows := hTracks.follows
  have hFirst : log.length ≤ (log ++ events).length := by
    rw [List.length_append]
    omega
  have hFrom := hFollows.first_le
  have hTo := hFollows.next_le hFirst
  rw [List.length_append] at hTo
  have hSeen :
      ((log ++ events).take call.next).drop log.length =
        events.take (call.next - log.length) := by
    rw [List.drop_take, List.drop_left]
  refine ⟨_, _, ⟨(List.take_append_drop (call.next - log.length)
    events).symm, ?_, ?_, ?_⟩, fun hNone => ?_⟩
  · rw [hRetains.sent, List.length_append, List.length_drop]
    omega
  · rw [hTracks.yielded, ← hSeen]
    exact updates_sublist hFollows.sublist
  · rw [hTracks.yielded, ← hSeen, List.drop_drop]
    have hRecent := hFollows.recent
    rw [List.length_append] at hRecent
    have hSame :
        max log.length (log.length + events.length - eventCapacity) =
          log.length + (events.length - eventCapacity) := by
      omega
    rw [hSame] at hRecent
    exact updates_suffix hRecent
  · rw [hTracks.yielded, ← hSeen, hFollows.exact hNone hFirst]

/-
  Whatever else goes on, what a call has yielded are the updates
  of its orders among the events emitted since it was made: in
  their order, none twice, and all of them if the call was never
  too far behind when it ran.  What it has not yielded of what
  it has been through is older than the last `eventCapacity`
  events.  A call that lives waits only if it has been through
  everything.
-/
theorem relays_of_exec
    (hExec :
      system.exec start (pre ++ .stream filterIds :: post) = some s) :
    ∃ call seen unread,
      s.calls[opened pre]? = some call ∧
        Relays filterIds (emitted post) s.channel call seen unread ∧
        (call.alive = true →
          system.step s (.turn (opened pre)) = none → unread = []) ∧
        (system.Meets (KeepsUp (opened pre)) start
            (pre ++ .stream filterIds :: post) →
          call.yielded = updates filterIds seen) := by
  rcases tracks_of_exec hExec with
    ⟨hHolds, rs, call, hTracks, hNone⟩
  have hLog :
      emitted (pre ++ .stream filterIds :: post) =
        emitted pre ++ emitted post := by
    rw [emitted_append]
    rfl
  have hRetains := hHolds.retains
  rw [hLog] at hTracks hRetains
  rcases hTracks.relays hRetains with ⟨seen, unread, hRelays, hExact⟩
  refine ⟨call, seen, unread, hTracks.at_index, hRelays,
    fun hAlive hWaits => ?_, fun hMeets => hExact (hNone hMeets)⟩
  have hTurn : call.turn s.channel s.closed = none := by
    change
      (match s.calls[opened pre]? with
        | some call => if call.alive then _ else none
        | none => none) = none at hWaits
    rw [hTracks.at_index] at hWaits
    dsimp only at hWaits
    rw [if_pos hAlive] at hWaits
    exact Option.map_eq_none_iff.mp hWaits
  have hRecv : s.channel.recv call.next = none := by
    cases hGot : s.channel.recv call.next with
    | none => rfl
    | some got =>
        rcases got with ⟨r, next⟩
        unfold StreamOrders.turn at hTurn
        rw [hGot] at hTurn
        cases r with
        | value event => cases hTurn
        | lagged missed => cases hTurn
  have hNext := hTracks.follows.next_le (by simp)
  have hEnd := (Broadcast.recv_eq_none_iff hRetains hNext).mp hRecv
  have hUnread := hRelays.unread
  rw [hRetains.sent, ← hEnd] at hUnread
  exact List.length_eq_zero_iff.mp (by omega)

end Steps

------------------------------------------------------------
-- Outcomes
------------------------------------------------------------

/- All events the order manager has sent in a run of the engine. -/
def sentEvents (tr : List OmEvent) : List OrderEvent :=
  tr.filterMap fun
    | .op _ (.chan (.eventSend ev)) _ _ => some ev
    | _ => none

/- The orders of whose outcome a client was told. -/
def outcomesTold (yielded : List OrderUpdate) : List OrderId :=
  (yielded.filter (·.status.isOutcome)).map OrderUpdate.orderId

theorem outcomeEvents_eq_filter (tr : List OmEvent) :
    outcomeEvents tr = (sentEvents tr).filter (·.status.isOutcome) := by
  unfold outcomeEvents sentEvents
  rw [List.filter_filterMap]
  refine List.filterMap_congr fun e _ => ?_
  rcases e with ⟨tid, op, env, r⟩ | e
  · rcases op with op | op | op | op | op | op | op
    case chan =>
      cases op with
      | orderSend o => rfl
      | eventSend ev =>
          unfold outcomeOf
          simp [Option.filter]
    all_goals rfl
  · rfl

/- What a call tells of outcomes is what the events tell. -/
theorem outcomesTold_updates
    {filterIds : List OrderId} {events : List OrderEvent} :
    (outcomesTold (updates filterIds events)).Sublist
      ((events.filter (·.status.isOutcome)).map OrderEvent.orderId) := by
  unfold outcomesTold updates
  rw [List.filter_map, List.map_map]
  refine List.Sublist.map OrderEvent.orderId ?_
  exact List.filter_sublist.filter _

/- Every call was made at some moment of the run. -/
theorem exists_split_of_lt
    {es : List StreamEvent} {i : ℕ}
    (hLt : i < opened es) :
    ∃ pre filterIds post,
      es = pre ++ .stream filterIds :: post ∧ opened pre = i := by
  induction es using List.reverseRecOn with
  | nil => cases hLt
  | append_singleton es e ih =>
      by_cases hBefore : i < opened es
      · rcases ih hBefore with ⟨pre, filterIds, post, rfl, hAt⟩
        exact ⟨pre, filterIds, post ++ [e], by simp, hAt⟩
      · rw [opened_concat] at hLt
        cases e with
        | stream filterIds =>
            refine ⟨es, filterIds, [], rfl, ?_⟩
            rw [StreamEvent.opens, if_pos rfl] at hLt
            omega
        | emit order | turn call | gone call | close =>
            exact absurd hLt hBefore

/-
  Whatever the engine and the calls do, if the events emitted by
  a process of the engine are among those of a run of it, none
  of its clients is told of two outcomes of one order.
-/
theorem toldOnce_of_run
    (om : OrderManager)
    (db : Database)
    (chain : Chain)
    (seenIds : List OrderId)
    {tr : List OmEvent} {c : OmConfig}
    {es : List StreamEvent} {s : OrderStreams}
    (hRun :
      Machine.Run om.machine Machine.anyStep
        (State.boot db chain seenIds) tr c)
    (hEmitted : (emitted es).Sublist (sentEvents tr))
    (hExec : system.exec start es = some s) :
    ∀ call ∈ s.calls, (outcomesTold call.yielded).Nodup := by
  intro call hCall
  rcases Protocol.shadowRun_of_run om.follows_judging hRun with
    ⟨shs, hShadow⟩
  have hOnce := (told_of_judgedRun hShadow).once
  rw [outcomeEvents_eq_filter] at hOnce
  rcases List.mem_iff_getElem?.mp hCall with ⟨i, hAt⟩
  have hHolds := holds_of_exec hExec
  have hLt : i < opened es := by
    rw [← hHolds.calls]
    exact (List.getElem?_eq_some_iff.mp hAt).1
  rcases exists_split_of_lt hLt with
    ⟨pre, filterIds, post, rfl, rfl⟩
  rcases tracks_of_exec hExec with ⟨_, rs, call', hTracks, _⟩
  cases hTracks.at_index.symm.trans hAt
  have hSeen := hTracks.follows.sublist.trans
    ((List.drop_sublist _ _).trans (List.take_sublist _ _))
  rw [hTracks.yielded]
  refine hOnce.sublist (outcomesTold_updates.trans ?_)
  exact ((hSeen.trans hEmitted).filter _).map _

/- What happens while a call for one of two orders runs. -/
def twoOrders : List StreamEvent :=
  [.emit (sampleOrder "b" 1000), .emit (sampleOrder "a" 1000),
    .turn 0, .turn 0]

theorem relays_of_exec_two :
    ∃ s,
      system.exec start ([] ++ .stream ["a"] :: twoOrders) = some s ∧
        ∃ call seen unread,
          s.calls[0]? = some call ∧
            Relays ["a"] (emitted twoOrders) s.channel call seen unread ∧
            (call.alive = true →
              system.step s (.turn 0) = none → unread = []) ∧
            (system.Meets (KeepsUp 0) start
                ([] ++ .stream ["a"] :: twoOrders) →
              call.yielded = updates ["a"] seen) := by
  refine ⟨_, rfl, ?_⟩
  exact @relays_of_exec _ [] twoOrders ["a"] rfl

/- The order `retriedOrderSchedule` trades, once it is executed. -/
def executedOrder : Order :=
  { sampleOrder "a" 1000 with
    status := .executed
    executedAt := some 1
    signature := some "signature" }

/- A client that has asked for all orders hears of the trade. -/
def oneTrade : List StreamEvent :=
  [.stream [], .emit executedOrder, .turn 0]

theorem exists_toldOnce :
    ∃ s,
      system.exec start oneTrade = some s ∧
        s.calls.map (fun call => outcomesTold call.yielded) = [["a"]] ∧
          ∀ call ∈ s.calls, (outcomesTold call.yielded).Nodup := by
  have hPlay :=
    Machine.exists_run_of_play sampleManager.machine
      (sampleState .enabled) retriedOrderSchedule
      (fun tr _ => decide (executedOrder.event ∈ sentEvents tr))
      (by decide +kernel)
  rcases hPlay with ⟨tr, c, hRun, hShown⟩
  refine ⟨_, rfl, rfl, ?_⟩
  refine @toldOnce_of_run sampleManager _ _ _ tr c oneTrade _ hRun ?_
    rfl
  exact List.singleton_sublist.mpr (of_decide_eq_true hShown)

end BotService

end Pumpy
