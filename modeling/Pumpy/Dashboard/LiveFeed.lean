import Mathlib.Data.List.Induction
import Pumpy.Api.LiveTrades
import Pumpy.Interleaving.Timers
import Pumpy.Interleaving.Transition
import Pumpy.Numeric.Roster

/-
  The hook behind the dashboard's live trades
  (artifacts/dashboard/src/hooks/use-live-trades.ts): what its
  list shows of the messages, and the life of its WebSocket, in
  one instance of the component from its mounting on.

  Key definitions include:
    * `Shows`
    * `LiveFeed`
    * `LiveFeed.step`
    * `Attends`

  The main results are `shows_liveTrades`: an order is missing
  from the list only if a hundred others have come after it; and
  `attends_of_exec`: there is one WebSocket or one timer for the
  next as long as the component is mounted, and neither later.
-/

namespace Pumpy

open Interleaving

------------------------------------------------------------
-- What the List Shows
------------------------------------------------------------

/- The orders the messages are about, one for each message. -/
def ordersOf (messages : List LiveTradePayload) : List String :=
  (messages.map LiveTradePayload.id).filter (· ≠ "")

/-
  What is to be seen after the messages: one entry for an order,
  the last message for it, newest orders first; and no order is
  missing unless as many others have come since as there is room
  for.
-/
structure Shows
    (messages : List LiveTradePayload)
    (trades : List LiveTrade) : Prop where
  once : (trades.map LiveTrade.id).Nodup
  room : trades.length ≤ maxLiveTrades
  current :
    ∀ trade ∈ trades,
      ∃ message,
        (messages.filter (·.id = trade.id)).getLast? = some message ∧
          trade = .ofPayload message
  newest :
    trades.map LiveTrade.id =
      (Roster.roster maxLiveTrades (ordersOf messages)).reverse
  missing :
    ∀ id ∈ ordersOf messages,
      id ∈ trades.map LiveTrade.id ∨
        Roster.Overtaken maxLiveTrades id (ordersOf messages)

section Shows

variable {trades : List LiveTrade} {update : LiveTradePayload}
variable {messages : List LiveTradePayload} {trade : LiveTrade}

theorem ordersOf_concat :
    ordersOf (messages ++ [update]) =
      if update.id = "" then ordersOf messages
      else ordersOf messages ++ [update.id] := by
  unfold ordersOf
  rw [List.map_append, List.filter_append]
  by_cases hEmpty : update.id = "" <;> simp [hEmpty]

/- The orders of the list are a roster, read backwards. -/
theorem map_id_onMessage
    (hNe : update.id ≠ "") :
    (onMessage trades update).map LiveTrade.id =
      (Roster.enrol maxLiveTrades
        (trades.map LiveTrade.id).reverse update.id).reverse := by
  unfold onMessage
  rw [if_neg hNe]
  dsimp only
  split
  · rename_i idx hFound
    have hThere : update.id ∈ (trades.map LiveTrade.id).reverse := by
      rcases List.findIdx?_eq_some_iff_getElem.mp hFound with
        ⟨hLess, hSame, _⟩
      have hId : trades[idx].id = update.id := of_decide_eq_true hSame
      rw [List.mem_reverse, ← hId]
      exact List.mem_map_of_mem (List.getElem_mem hLess)
    rw [map_id_set hFound, Roster.enrol, if_pos hThere,
      List.reverse_reverse]
  · rename_i hNone
    have hNew : update.id ∉ (trades.map LiveTrade.id).reverse := by
      rw [List.mem_reverse]
      intro hMem
      rcases List.mem_map.mp hMem with ⟨old, hOld, hId⟩
      have hNot := List.findIdx?_eq_none_iff.mp hNone old hOld
      simp [LiveTrade.ofPayload, hId] at hNot
    rw [Roster.enrol, if_neg hNew, Window.push,
      List.rtake_eq_reverse_take_reverse, List.reverse_append,
      List.reverse_reverse, List.reverse_reverse, List.map_take]
    rfl

theorem map_id_liveTrades (messages : List LiveTradePayload) :
    (liveTrades messages).map LiveTrade.id =
      (Roster.roster maxLiveTrades (ordersOf messages)).reverse := by
  induction messages using List.reverseRecOn with
  | nil => rfl
  | append_singleton messages update ih =>
      have hLast :
          liveTrades (messages ++ [update]) =
            onMessage (liveTrades messages) update :=
        List.foldl_append
      rw [hLast, ordersOf_concat]
      by_cases hEmpty : update.id = ""
      · rw [if_pos hEmpty, onMessage, if_pos hEmpty]
        exact ih
      · rw [if_neg hEmpty, map_id_onMessage hEmpty, ih,
          List.reverse_reverse, Roster.roster_concat]

/- An entry is the last message for its order. -/
theorem current_liveTrades
    (hMem : trade ∈ liveTrades messages) :
    ∃ message,
      (messages.filter (·.id = trade.id)).getLast? = some message ∧
        trade = .ofPayload message := by
  induction messages using List.reverseRecOn with
  | nil => cases hMem
  | append_singleton messages update ih =>
      rw [liveTrades, List.foldl_append] at hMem
      rcases onMessage_mem (liveTrades_once messages) hMem with
        ⟨rfl, hNe⟩ | ⟨hOld, hOther⟩
      · exact ⟨update, by simp [LiveTrade.ofPayload], rfl⟩
      · rcases ih hOld with ⟨message, hLast, hEq⟩
        have hNe : trade.id ≠ "" := (status_liveTrades hOld).1
        have hDiff : update.id ≠ trade.id := by
          intro hSame
          rw [← hSame] at hNe
          exact hOther hNe hSame.symm
        refine ⟨message, ?_, hEq⟩
        rw [List.filter_append, List.filter_singleton]
        simp [hDiff, hLast]

end Shows

/- Whatever the messages are, and in whichever order. -/
theorem shows_liveTrades (messages : List LiveTradePayload) :
    Shows messages (liveTrades messages) := by
  have hIds := map_id_liveTrades messages
  refine ⟨liveTrades_once messages, ?_, fun _ => current_liveTrades,
    hIds, ?_⟩
  · rw [← List.length_map LiveTrade.id, hIds, List.length_reverse]
    exact Roster.length_roster_le _ _
  · intro id hMem
    rw [hIds, List.mem_reverse]
    exact Roster.mem_roster_or_overtaken _ hMem

------------------------------------------------------------
-- The Hook
------------------------------------------------------------

/-
  `WebSocket.readyState`; a close that the server begins shows
  with the close event, up to which the WebSocket is open.
-/
inductive ReadyState where
  | connecting
  | open
  | closing
  | closed
deriving DecidableEq, Repr

/-
  The state and the refs of the hook, the WebSockets it has
  opened, and the timers of the page.  `handled` are the
  messages that were read, and `ended` is when the last attempt
  to be connected ended.
-/
structure LiveFeed where
  trades : List LiveTrade
  connected : Bool
  error : Option String
  wsRef : Option ℕ
  reconnectTimer : Option ℕ
  mounted : Bool
  sockets : List ReadyState
  timers : Timers
  handled : List LiveTradePayload
  ended : ℕ
deriving DecidableEq

/-
  What happens to WebSocket `i`: it is open; a message comes
  in, which is `none` if it cannot be read; it has failed; it is
  closed.  A timer fires, and the next WebSocket may throw, an
  `Error` with its message or something else.  Time passes.  The
  component is unmounted.
-/
inductive FeedEvent where
  | opened (i : ℕ) : FeedEvent
  | message (i : ℕ) (data : Option LiveTradePayload) : FeedEvent
  | failed (i : ℕ) : FeedEvent
  | closed (i : ℕ) : FeedEvent
  | timer (id : ℕ) (throws : Option (Option String)) : FeedEvent
  | tick (delay : ℕ) : FeedEvent
  | unmount : FeedEvent
deriving DecidableEq

namespace LiveFeed

/- `reconnectTimer.current = setTimeout(connect, delay)`. -/
def reconnect (s : LiveFeed) (delay : ℕ) : LiveFeed :=
  let (id, timers) := s.timers.arm delay
  { s with
    reconnectTimer := some id
    timers := timers
    ended := s.timers.now }

/- `connect()`; `new WebSocket(url)` may throw. -/
def connect
    (s : LiveFeed)
    (throws : Option (Option String)) : LiveFeed :=
  if s.mounted = false then
    s
  else
    match throws with
    | none =>
        { s with
          sockets := s.sockets ++ [.connecting]
          wsRef := some s.sockets.length }
    | some e =>
        { s with error := some (e.getD "WebSocket failed") }.reconnect
          5000

/- `ws.close()`. -/
def close (s : LiveFeed) (i : ℕ) : LiveFeed :=
  { s with
    sockets :=
      s.sockets.modify i fun
        | .connecting => .closing
        | .open => .closing
        | r => r }

/- The effect of the component runs. -/
def mount
    (now : ℕ)
    (throws : Option (Option String)) : LiveFeed :=
  connect
    { trades := []
      connected := false
      error := none
      wsRef := none
      reconnectTimer := none
      mounted := true
      sockets := []
      timers := .start now
      handled := []
      ended := now }
    throws

/- `ws.onopen`. -/
def onOpen (s : LiveFeed) (i : ℕ) : LiveFeed :=
  if s.mounted = false then
    s.close i
  else
    { s with connected := true, error := none }

/- `ws.onmessage`. -/
def onData
    (s : LiveFeed)
    (data : Option LiveTradePayload) : LiveFeed :=
  if s.mounted = false then
    s
  else
    match data with
    | none => s
    | some update =>
        { s with
          trades := onMessage s.trades update
          handled := s.handled ++ [update] }

/- `ws.onerror`. -/
def onError (s : LiveFeed) : LiveFeed :=
  if s.mounted = false then
    s
  else
    { s with connected := false, error := some "WebSocket error" }

/- `ws.onclose`. -/
def onClose (s : LiveFeed) : LiveFeed :=
  if s.mounted = false then
    s
  else
    { s with connected := false }.reconnect 3000

/- The clean-up of the effect. -/
def cleanUp (s : LiveFeed) : LiveFeed :=
  let s := { s with mounted := false }
  let s :=
    match s.reconnectTimer with
    | some id => { s with timers := s.timers.clear id }
    | none => s
  match s.wsRef with
  | some i => s.close i
  | none => s

def setSocket (s : LiveFeed) (i : ℕ) (r : ReadyState) : LiveFeed :=
  { s with sockets := s.sockets.set i r }

/-
  What the browser does, and the handler of it.  A WebSocket
  opens once, hands messages over while it is open, and closes
  once, after which nothing comes of it.
-/
def step (s : LiveFeed) : FeedEvent → Option LiveFeed
  | .opened i =>
      if s.sockets[i]? = some .connecting then
        some ((s.setSocket i .open).onOpen i)
      else
        none
  | .message i data =>
      if s.sockets[i]? = some .open then some (s.onData data) else none
  | .failed i =>
      match s.sockets[i]? with
      | some .closed => none
      | some _ => some s.onError
      | none => none
  | .closed i =>
      match s.sockets[i]? with
      | some .closed => none
      | some _ => some (s.setSocket i .closed).onClose
      | none => none
  | .timer id throws =>
      (s.timers.fire id).map fun timers =>
        { s with timers := timers }.connect throws
  | .tick delay =>
      some { s with timers := s.timers.advance delay }
  | .unmount => if s.mounted then some s.cleanUp else none

def system : Transition FeedEvent LiveFeed :=
  ⟨step⟩

end LiveFeed

/-
  As long as the component is mounted there is one WebSocket
  that is not closed, or one timer that opens the next; once it
  is not, there is no timer, and every WebSocket is closed or
  has been told to.  The feed is shown as connected only while
  the WebSocket is open, the next one is not opened within three
  seconds of the end of the last, and the list shows what was
  read.
-/
structure Attends (s : LiveFeed) : Prop where
  one :
    s.mounted = true →
      s.sockets.countP (· ≠ .closed) + s.timers.armed.length = 1
  gone :
    s.mounted = false →
      s.timers.armed = [] ∧
        ∀ r ∈ s.sockets, r = .closing ∨ r = .closed
  connected :
    s.mounted = true → s.connected = true → .open ∈ s.sockets
  paced :
    ∀ id throws s',
      s.step (.timer id throws) = some s' → s.ended + 3000 ≤ s.timers.now
  shows : Shows s.handled s.trades

------------------------------------------------------------
-- One WebSocket or One Timer
------------------------------------------------------------

namespace LiveFeed

/- The stages of the hook; all WebSockets but the last are closed. -/
inductive Stage (s : LiveFeed) : Prop
  | linked
      (k : ℕ)
      (r : ReadyState)
      (hMounted : s.mounted = true)
      (hSockets : s.sockets = List.replicate k .closed ++ [r])
      (hLive : r = .connecting ∨ r = .open)
      (hRef : s.wsRef = some k)
      (hIdle : s.timers.armed = [])
      (hShown : s.connected = true → r = .open)
  | waiting
      (k : ℕ)
      (t : Timer)
      (hMounted : s.mounted = true)
      (hSockets : s.sockets = List.replicate k .closed)
      (hArmed : s.timers.armed = [t])
      (hRef : s.reconnectTimer = some t.id)
      (hDue : s.ended + 3000 ≤ t.due)
      (hShown : s.connected = false)
  | gone
      (hMounted : s.mounted = false)
      (hSockets : ∀ r ∈ s.sockets, r = .closing ∨ r = .closed)
      (hIdle : s.timers.armed = [])

section Stages

variable {s s' : LiveFeed} {e : FeedEvent} {i k : ℕ} {r r' : ReadyState}

/- Only the last WebSocket is not closed. -/
theorem last_of_live
    (hAt : (List.replicate k ReadyState.closed ++ [r])[i]? = some r')
    (hLive : r' ≠ .closed) :
    i = k ∧ r' = r := by
  by_cases hLt : i < k
  · rw [List.getElem?_append_left (by simpa using hLt),
      List.getElem?_replicate, if_pos hLt] at hAt
    exact absurd (Option.some.inj hAt).symm hLive
  · rw [List.getElem?_append_right (by simpa using hLt),
      List.length_replicate, List.getElem?_singleton] at hAt
    split at hAt
    · rename_i hZero
      exact ⟨by omega, (Option.some.inj hAt).symm⟩
    · cases hAt

theorem set_last :
    (List.replicate k ReadyState.closed ++ [r]).set k r' =
      List.replicate k ReadyState.closed ++ [r'] := by
  rw [List.set_append_right _ _ (by simp), List.length_replicate,
    Nat.sub_self]
  rfl

/- A mounted hook that connects is linked, or waits five seconds. -/
theorem stage_connect
    (throws : Option (Option String))
    (hMounted : s.mounted = true)
    (hSockets : s.sockets = List.replicate k .closed)
    (hIdle : s.timers.armed = [])
    (hShown : s.connected = false) :
    Stage (s.connect throws) := by
  unfold connect
  rw [if_neg (by rw [hMounted]; decide)]
  cases throws with
  | none =>
      refine .linked k .connecting hMounted ?_ (.inl rfl) ?_ hIdle ?_
      · rw [hSockets]
      · rw [hSockets, List.length_replicate]
      · rw [hShown]
        nofun
  | some e =>
      refine .waiting k ⟨s.timers.next, s.timers.now + 5000⟩ hMounted
        hSockets ?_ rfl ?_ hShown
      · change s.timers.armed ++ _ = _
        rw [hIdle]
        rfl
      · change s.timers.now + 3000 ≤ s.timers.now + 5000
        omega

theorem not_live_of_closed
    (hAt : (List.replicate k ReadyState.closed)[i]? = some r) :
    r = .closed := by
  rw [List.getElem?_replicate] at hAt
  split at hAt
  · exact (Option.some.inj hAt).symm
  · cases hAt

theorem Stage.opened
    (hStage : Stage s)
    (hAt : s.sockets[i]? = some .connecting) :
    Stage ((s.setSocket i .open).onOpen i) := by
  cases hStage with
  | linked k r hMounted hSockets hLive hRef hIdle hShown =>
      rw [hSockets] at hAt
      rcases last_of_live hAt nofun with ⟨rfl, rfl⟩
      unfold onOpen
      rw [if_neg (by rw [setSocket, hMounted]; decide)]
      refine .linked i .open hMounted ?_ (.inr rfl) hRef hIdle
        fun _ => rfl
      change s.sockets.set i .open = _
      rw [hSockets, set_last]
  | waiting k t hMounted hSockets hArmed hRef hDue hShown =>
      rw [hSockets] at hAt
      cases not_live_of_closed hAt
  | gone hMounted hSockets hIdle =>
      rcases hSockets _ (List.mem_of_getElem? hAt) with hClash | hClash <;>
        cases hClash

theorem Stage.onData
    (hStage : Stage s)
    (data : Option LiveTradePayload) :
    Stage (s.onData data) := by
  unfold LiveFeed.onData
  split
  · exact hStage
  · cases data with
    | none => exact hStage
    | some update =>
        cases hStage with
        | linked k r hMounted hSockets hLive hRef hIdle hShown =>
            exact .linked k r hMounted hSockets hLive hRef hIdle hShown
        | waiting k t hMounted hSockets hArmed hRef hDue hShown =>
            exact .waiting k t hMounted hSockets hArmed hRef hDue hShown
        | gone hMounted hSockets hIdle =>
            exact .gone hMounted hSockets hIdle

theorem Stage.onError
    (hStage : Stage s) :
    Stage s.onError := by
  unfold LiveFeed.onError
  split
  · exact hStage
  · cases hStage with
    | linked k r hMounted hSockets hLive hRef hIdle hShown =>
        exact .linked k r hMounted hSockets hLive hRef hIdle nofun
    | waiting k t hMounted hSockets hArmed hRef hDue hShown =>
        exact .waiting k t hMounted hSockets hArmed hRef hDue rfl
    | gone hMounted hSockets hIdle =>
        exact .gone hMounted hSockets hIdle

/- The WebSocket that closes was the last one, and a timer is armed. -/
theorem Stage.closed
    (hStage : Stage s)
    (hAt : s.sockets[i]? = some r)
    (hLive : r ≠ .closed) :
    Stage (s.setSocket i .closed).onClose := by
  unfold LiveFeed.onClose
  cases hStage with
  | linked k r' hMounted hSockets _ hRef hIdle hShown =>
      rw [hSockets] at hAt
      rcases last_of_live hAt hLive with ⟨rfl, rfl⟩
      rw [if_neg (by rw [setSocket, hMounted]; decide)]
      refine .waiting (i + 1) ⟨s.timers.next, s.timers.now + 3000⟩
        hMounted ?_ ?_ rfl le_rfl rfl
      · change s.sockets.set i .closed = _
        rw [hSockets, set_last, List.replicate_succ']
      · change s.timers.armed ++ _ = _
        rw [hIdle]
        rfl
  | waiting k t hMounted hSockets hArmed hRef hDue hShown =>
      rw [hSockets] at hAt
      exact absurd (not_live_of_closed hAt) hLive
  | gone hMounted hSockets hIdle =>
      rw [if_pos (by rw [setSocket, hMounted])]
      refine .gone hMounted ?_ hIdle
      intro r' hMem
      rcases List.mem_or_eq_of_mem_set hMem with hOld | hNew
      · exact hSockets r' hOld
      · exact .inr hNew

/- Only the armed timer can fire, three seconds after the end. -/
theorem Stage.timer
    {id : ℕ} {timers : Timers}
    (hStage : Stage s)
    (throws : Option (Option String))
    (hFire : s.timers.fire id = some timers) :
    Stage ({ s with timers := timers }.connect throws) ∧
      s.ended + 3000 ≤ s.timers.now := by
  rcases Timers.fire_cases hFire with ⟨⟨t', hMem, hId, hDueNow⟩, rfl⟩
  cases hStage with
  | linked k r hMounted hSockets hLive hRef hIdle hShown =>
      rw [hIdle] at hMem
      cases hMem
  | waiting k t hMounted hSockets hArmed hRef hDue hShown =>
      rw [hArmed, List.mem_singleton] at hMem
      subst hMem
      refine ⟨stage_connect throws hMounted hSockets ?_ hShown, by omega⟩
      refine Timers.armed_clear_of_only fun t hT => ?_
      rw [hArmed, List.mem_singleton] at hT
      rw [hT, hId]
  | gone hMounted hSockets hIdle =>
      rw [hIdle] at hMem
      cases hMem

/- Told to close, the WebSocket is as good as gone. -/
theorem close_all
    (hOthers :
      ∀ j r, s.sockets[j]? = some r →
        j = i ∨ r = .closing ∨ r = .closed) :
    ∀ r ∈ (s.close i).sockets, r = .closing ∨ r = .closed := by
  intro r hMem
  rcases List.mem_iff_getElem?.mp hMem with ⟨j, hAt⟩
  rw [close, List.getElem?_modify] at hAt
  cases hOld : s.sockets[j]? with
  | none =>
      rw [hOld] at hAt
      split at hAt <;> cases hAt
  | some old =>
      rw [hOld] at hAt
      split at hAt
      · cases old <;> cases hAt <;> simp
      · rename_i hOther
        cases hAt
        rcases hOthers j _ hOld with rfl | hDone
        · exact absurd rfl hOther
        · exact hDone

theorem Stage.cleanUp
    (hStage : Stage s)
    (hMounted : s.mounted = true) :
    Stage s.cleanUp := by
  have hOff : s.cleanUp.mounted = false := by
    unfold LiveFeed.cleanUp
    cases s.reconnectTimer <;> cases s.wsRef <;> rfl
  have hTimers :
      s.cleanUp.timers.armed =
        s.timers.armed.filter fun t => s.reconnectTimer ≠ some t.id := by
    unfold LiveFeed.cleanUp
    cases s.reconnectTimer <;> cases s.wsRef <;>
      simp [Timers.clear, close, eq_comm]
  have hSockets :
      s.cleanUp.sockets =
        match s.wsRef with
        | some i => (s.close i).sockets
        | none => s.sockets := by
    unfold LiveFeed.cleanUp
    cases s.reconnectTimer <;> cases s.wsRef <;> rfl
  cases hStage with
  | linked k r _ hAll hLive hRef hIdle hShown =>
      refine .gone hOff ?_ ?_
      · rw [hSockets, hRef]
        refine close_all fun j r' hAt => ?_
        rw [hAll] at hAt
        by_cases hClosed : r' = .closed
        · exact .inr (.inr hClosed)
        · exact .inl (last_of_live hAt hClosed).1
      · rw [hTimers, hIdle]
        rfl
  | waiting k t _ hAll hArmed hRef hDue hShown =>
      refine .gone hOff ?_ ?_
      · rw [hSockets]
        have hClosed (j : ℕ) (r : ReadyState)
            (hAt : s.sockets[j]? = some r) :
            r = .closing ∨ r = .closed := by
          rw [hAll] at hAt
          exact .inr (not_live_of_closed hAt)
        cases s.wsRef with
        | some i =>
            exact close_all fun j r hAt => .inr (hClosed j r hAt)
        | none =>
            intro r hMem
            rcases List.mem_iff_getElem?.mp hMem with ⟨j, hAt⟩
            exact hClosed j r hAt
      · rw [hTimers, hArmed, hRef]
        simp
  | gone hGone _ _ =>
      rw [hMounted] at hGone
      cases hGone

theorem Stage.step
    (hStage : Stage s)
    (hStep : s.step e = some s') :
    Stage s' := by
  cases e with
  | opened i =>
      simp only [LiveFeed.step] at hStep
      split at hStep
      · rename_i hAt
        cases hStep
        exact hStage.opened hAt
      · cases hStep
  | message i data =>
      simp only [LiveFeed.step] at hStep
      split at hStep
      · cases hStep
        exact hStage.onData data
      · cases hStep
  | failed i =>
      simp only [LiveFeed.step] at hStep
      split at hStep
      · cases hStep
      · cases hStep
        exact hStage.onError
      · cases hStep
  | closed i =>
      simp only [LiveFeed.step] at hStep
      split at hStep
      · cases hStep
      · rename_i r hLive hAt
        cases hStep
        exact hStage.closed hAt fun hClosed => hLive (hClosed ▸ rfl)
      · cases hStep
  | timer id throws =>
      rcases Option.map_eq_some_iff.mp hStep with ⟨timers, hFire, rfl⟩
      exact (hStage.timer throws hFire).1
  | tick delay =>
      cases hStep
      cases hStage with
      | linked k r hMounted hSockets hLive hRef hIdle hShown =>
          exact .linked k r hMounted hSockets hLive hRef hIdle hShown
      | waiting k t hMounted hSockets hArmed hRef hDue hShown =>
          exact .waiting k t hMounted hSockets hArmed hRef hDue hShown
      | gone hMounted hSockets hIdle =>
          exact .gone hMounted hSockets hIdle
  | unmount =>
      simp only [LiveFeed.step] at hStep
      split at hStep
      · rename_i hMounted
        cases hStep
        exact hStage.cleanUp hMounted
      · cases hStep

/- What is left alone by all but the messages. -/
def SameList (s s' : LiveFeed) : Prop :=
  s'.trades = s.trades ∧ s'.handled = s.handled

theorem sameList_connect (throws : Option (Option String)) :
    SameList s (s.connect throws) := by
  unfold connect
  split
  · exact ⟨rfl, rfl⟩
  · cases throws with
    | none => exact ⟨rfl, rfl⟩
    | some e => exact ⟨rfl, rfl⟩

theorem sameList_cleanUp : SameList s s.cleanUp := by
  unfold cleanUp
  cases s.reconnectTimer <;> cases s.wsRef <;> exact ⟨rfl, rfl⟩

/- The list is what the messages that were read make of it. -/
theorem trades_onData
    (data : Option LiveTradePayload)
    (hTrades : s.trades = liveTrades s.handled) :
    (s.onData data).trades = liveTrades (s.onData data).handled := by
  unfold LiveFeed.onData
  split
  · exact hTrades
  · cases data with
    | none => exact hTrades
    | some update =>
        change onMessage s.trades update =
          liveTrades (s.handled ++ [update])
        rw [hTrades, liveTrades, liveTrades, List.foldl_append]
        rfl

theorem trades_step
    (hTrades : s.trades = liveTrades s.handled)
    (hStep : s.step e = some s') :
    s'.trades = liveTrades s'.handled := by
  have hSame (hKept : SameList s s') :
      s'.trades = liveTrades s'.handled := by
    rw [hKept.1, hKept.2, hTrades]
  cases e with
  | opened i =>
      apply hSame
      simp only [LiveFeed.step] at hStep
      split at hStep
      · cases hStep
        unfold onOpen
        split <;> exact ⟨rfl, rfl⟩
      · cases hStep
  | message i data =>
      simp only [LiveFeed.step] at hStep
      split at hStep
      · cases hStep
        exact trades_onData data hTrades
      · cases hStep
  | failed i =>
      apply hSame
      simp only [LiveFeed.step] at hStep
      split at hStep
      · cases hStep
      · cases hStep
        unfold onError
        split <;> exact ⟨rfl, rfl⟩
      · cases hStep
  | closed i =>
      apply hSame
      simp only [LiveFeed.step] at hStep
      split at hStep
      · cases hStep
      · cases hStep
        unfold onClose
        split <;> exact ⟨rfl, rfl⟩
      · cases hStep
  | timer id throws =>
      apply hSame
      rcases Option.map_eq_some_iff.mp hStep with ⟨timers, hFire, rfl⟩
      exact sameList_connect throws
  | tick delay =>
      cases hStep
      exact hTrades
  | unmount =>
      apply hSame
      simp only [LiveFeed.step] at hStep
      split at hStep
      · cases hStep
        exact sameList_cleanUp
      · cases hStep

end Stages

end LiveFeed

------------------------------------------------------------
-- Every Run
------------------------------------------------------------

/- Whatever happens to the WebSockets, from the mounting on. -/
theorem attends_of_exec
    (now : ℕ)
    (throws : Option (Option String))
    (es : List FeedEvent)
    (s : LiveFeed)
    (hExec : LiveFeed.system.exec (.mount now throws) es = some s) :
    Attends s := by
  have hHolds : s.Stage ∧ s.trades = liveTrades s.handled := by
    refine Transition.exec_induction
      (P := fun _ s => LiveFeed.Stage s ∧ s.trades = liveTrades s.handled)
      ?_ ?_ hExec
    · refine ⟨@LiveFeed.stage_connect _ 0 throws rfl rfl rfl rfl, ?_⟩
      cases throws with
      | none => rfl
      | some e => rfl
    · rintro _ s e s' _ ⟨hStage, hTrades⟩ hStep
      exact ⟨hStage.step hStep, LiveFeed.trades_step hTrades hStep⟩
  rcases hHolds with ⟨hStage, hTrades⟩
  refine ⟨?_, ?_, ?_, ?_, ?_⟩
  · intro hMounted
    cases hStage with
    | linked k r _ hSockets hLive hRef hIdle hShown =>
        rw [hSockets, hIdle]
        rcases hLive with rfl | rfl <;> simp
    | waiting k t _ hSockets hArmed hRef hDue hShown =>
        rw [hSockets, hArmed]
        simp
    | gone hGone _ _ =>
        rw [hMounted] at hGone
        cases hGone
  · intro hGone
    cases hStage with
    | linked k r hMounted =>
        rw [hMounted] at hGone
        cases hGone
    | waiting k t hMounted =>
        rw [hMounted] at hGone
        cases hGone
    | gone _ hSockets hIdle => exact ⟨hIdle, hSockets⟩
  · intro hMounted hConnected
    cases hStage with
    | linked k r _ hSockets hLive hRef hIdle hShown =>
        rw [hSockets, hShown hConnected]
        exact List.mem_concat_self
    | waiting k t _ hSockets hArmed hRef hDue hShown =>
        rw [hConnected] at hShown
        cases hShown
    | gone hGone _ _ =>
        rw [hMounted] at hGone
        cases hGone
  · intro id throws s' hStep
    rcases Option.map_eq_some_iff.mp hStep with ⟨timers, hFire, _⟩
    exact (hStage.timer throws hFire).2
  · rw [hTrades]
    exact shows_liveTrades s.handled

/- The WebSocket is open, a message comes in, and it is closed. -/
def brokenFeed : List FeedEvent :=
  [.opened 0,
    .message 0 (some
      ⟨"a", "mint", "Executed", none, none, none, none, none, none, none,
        none, none, "now", none⟩),
    .failed 0, .closed 0, .tick 3000, .timer 0 none]

/- The next one is being opened, and the trade is still shown. -/
theorem attends_brokenFeed :
    ∃ s : LiveFeed,
      s.sockets = [.closed, .connecting] ∧ s.connected = false ∧
        s.trades.map LiveTrade.id = ["a"] ∧ Attends s := by
  have hAny :=
    Transition.exists_exec_of_any LiveFeed.system (.mount 0 none)
      brokenFeed
      (fun s =>
        decide
          (s.sockets = [.closed, .connecting] ∧ s.connected = false ∧
            s.trades.map LiveTrade.id = ["a"]))
      (by decide +kernel)
  rcases hAny with ⟨s, hExec, hShown⟩
  rcases of_decide_eq_true hShown with ⟨hSockets, hOff, hTrades⟩
  exact ⟨s, hSockets, hOff, hTrades,
    attends_of_exec 0 none brokenFeed s hExec⟩

end Pumpy
