import Pumpy.Engine.Types
import Pumpy.Interleaving.Broadcast
import Pumpy.Interleaving.Transition
import Pumpy.Websocket.Monitor

/-
  The consumer of token events (`start_token_event_consumer`,
  rust-engine/src/order/manager.rs) behind the broadcast channel
  of the monitor.

  Key definitions include:
    * `Consumer`
    * `sniperOrder`
    * `OneSnipe`
    * `FreshCreation`

  The main result is `oneSnipe_iff`: the consumer buys for every
  event that it receives, so it buys tokens that were created,
  and each of them once, exactly if every event is the first
  about a creation that can be decoded.
-/

namespace Pumpy

namespace Websocket

open Interleaving

------------------------------------------------------------
-- The Channel and the Consumer
------------------------------------------------------------

/- `broadcast::channel(1000)`, rounded up to a power of two. -/
def channelCapacity : ℕ := 1024

/-
  The notifications that were published since the consumer has
  subscribed, how many of them it has behind it, and the orders
  that it has submitted.
-/
structure Consumer where
  sent : List Notification
  next : ℕ
  submitted : List Order

def Consumer.new : Consumer :=
  ⟨[], 0, []⟩

/- What is drawn for an order, and the time. -/
structure Draw where
  id : OrderId
  traceId : String
  clientOrderId : Uuid
  now : Timestamp

/- The order for a new token. -/
def sniperOrder
    (amount : UInt64)
    (event : TokenDiscoveredEvent)
    (draw : Draw) : Order where
  id := draw.id
  mint := event.mint
  side := .buy
  orderType := .market
  amount := amount
  price := none
  maxCost := none
  minOutput := none
  slippageBps := 300
  strategy := "sniper"
  status := .pending
  createdAt := draw.now
  updatedAt := draw.now
  executedAt := none
  signature := none
  error := none
  retryCount := 0
  executedPrice := none
  executedAmount := none
  metadata := []
  clientOrderId := some draw.clientOrderId
  traceId := some draw.traceId

inductive ConsumerEvent where
  -- one of the subscriptions receives something
  | notify (n : Notification)
  -- `rx.recv()` returns, and what it returns is handled
  | receive (draw : Draw)

section System

variable (decode : String → Option (List UInt8))
variable (autoSnipe : Bool) (amount : UInt64)

/- The event that the consumer handles next, unless it lags. -/
def Consumer.handles
    (c : Consumer)
    (e : ConsumerEvent) : Option Notification :=
  match e with
  | .receive _ =>
      if c.next + channelCapacity < c.sent.length then none
      else c.sent[c.next]?.filter fun n => (published decode n).isSome
  | .notify _ => none

def Consumer.step
    (c : Consumer) : ConsumerEvent → Option Consumer
  | .notify n =>
      match published decode n with
      | some _ => some { c with sent := c.sent ++ [n] }
      | none => some c
  | .receive draw =>
      -- what has been overwritten is skipped
      if c.next + channelCapacity < c.sent.length then
        some { c with next := c.sent.length - channelCapacity }
      else
        match (c.sent[c.next]?).bind (published decode) with
        | some event =>
            some
              { c with
                next := c.next + 1
                submitted :=
                  if autoSnipe then
                    c.submitted ++ [sniperOrder amount event draw]
                  else
                    c.submitted }
        | none => none

/- The consumer, and the notifications it has handled. -/
def consuming : Transition ConsumerEvent (Consumer × List Notification) :=
  (Transition.mk (Consumer.step decode autoSnipe amount)).watch
    fun c e handled => handled ++ (c.handles decode e).toList

end System

------------------------------------------------------------
-- One Order for Each Token
------------------------------------------------------------

section Snipes

variable (created : String → List Pubkey)
variable (decode : String → Option (List UInt8))

/-
  No token is bought twice, and every order is for a token that
  was created by the transaction that it answers.
-/
structure OneSnipe (p : Consumer × List Notification) : Prop where
  once : (p.1.submitted.map Order.mint).Nodup
  created :
    List.Forall₂
      (fun order n =>
        ∃ mint, Creates created n mint ∧ order.mint = toBase58 mint)
      p.1.submitted p.2

/-
  What is handled is about a transaction that created a token,
  whose mint is in its data, and nothing that was handled before
  had it there.
-/
def FreshCreation
    (p : Consumer × List Notification)
    (e : ConsumerEvent) : Prop :=
  ∀ n,
    p.1.handles decode e = some n →
      ∃ mint,
        Creates created n mint ∧ Carries decode n mint ∧
          ∀ n' ∈ p.2, ¬Carries decode n' mint

/- The mint of what is published about a notification. -/
def publishedMint (n : Notification) : Option String :=
  (published decode n).map TokenDiscoveredEvent.mint

/- The orders are for the mints of what was handled. -/
def Bought (p : Consumer × List Notification) : Prop :=
  p.1.submitted.map (fun order => some order.mint) =
    p.2.map (publishedMint decode)

variable {created decode}

theorem nodup_concat_iff {l : List String} {m : String} :
    (l ++ [m]).Nodup ↔ l.Nodup ∧ m ∉ l := by
  rw [← List.concat_eq_append, List.nodup_concat]
  exact and_comm

theorem forall₂_concat_iff
    {α β : Type}
    {R : α → β → Prop}
    {l : List α} {l' : List β} {a : α} {b : β} :
    List.Forall₂ R (l ++ [a]) (l' ++ [b]) ↔
      List.Forall₂ R l l' ∧ R a b := by
  rw [← List.forall₂_reverse_iff, List.reverse_concat,
    List.reverse_concat, List.forall₂_cons, List.forall₂_reverse_iff]
  exact and_comm

/- What was handled then had the mint of a token that was created. -/
theorem published_of_oneSnipe
    {p : Consumer × List Notification}
    (hSnipe : OneSnipe created p)
    (hBought : Bought decode p) :
    ∀ n ∈ p.2, ∃ mint, Creates created n mint ∧ Carries decode n mint ∧
      publishedMint decode n = some (toBase58 mint) := by
  rcases p with ⟨⟨sent, next, submitted⟩, handled⟩
  have hCreated := hSnipe.created
  unfold Bought at hBought
  dsimp only at hCreated hBought ⊢
  clear hSnipe
  induction hCreated with
  | nil => nofun
  | @cons order n orders ns hOrder hRest ih =>
      rw [List.map_cons, List.map_cons, List.cons.injEq] at hBought
      intro n' hMem
      rcases List.mem_cons.mp hMem with rfl | hLater
      · rcases hOrder with ⟨mint, hCreates, hMint⟩
        have hPublished :
            publishedMint decode n' = some (toBase58 mint) := by
          rw [← hBought.1, hMint]
        rcases Option.map_eq_some_iff.mp hPublished with
          ⟨event, hEvent, hText⟩
        have hCarries :=
          (mint_published_iff hEvent hCreates).mp hText
        exact ⟨mint, hCreates, hCarries, hPublished⟩
      · exact ih hBought.2 n' hLater

/- A token was bought exactly if its mint was there to be read. -/
theorem mem_submitted_iff
    {p : Consumer × List Notification}
    {mint : Pubkey}
    (hSnipe : OneSnipe created p)
    (hBought : Bought decode p) :
    toBase58 mint ∈ p.1.submitted.map Order.mint ↔
      ∃ n ∈ p.2, Carries decode n mint := by
  have hMem :
      toBase58 mint ∈ p.1.submitted.map Order.mint ↔
        some (toBase58 mint) ∈ p.2.map (publishedMint decode) := by
    rw [← hBought]
    simp only [List.mem_map, Option.some.injEq]
  rw [hMem, List.mem_map]
  constructor
  · rintro ⟨n, hHandled, hMint⟩
    rcases published_of_oneSnipe hSnipe hBought n hHandled with
      ⟨mint', _, hCarries, hPublished⟩
    rw [hPublished, Option.some.injEq] at hMint
    rw [← toBase58_inj hMint]
    exact ⟨n, hHandled, hCarries⟩
  · rintro ⟨n, hHandled, hCarries⟩
    rcases published_of_carries hCarries with ⟨event, hEvent, hText⟩
    refine ⟨n, hHandled, ?_⟩
    rw [publishedMint, hEvent, Option.map_some, hText]

/- One more order for one more event. -/
theorem oneSnipe_concat_iff
    {c c' : Consumer}
    {handled : List Notification}
    {n : Notification}
    {event : TokenDiscoveredEvent}
    {order : Order}
    (hSnipe : OneSnipe created (c, handled))
    (hBought : Bought decode (c, handled))
    (hPublished : published decode n = some event)
    (hMint : order.mint = event.mint)
    (hSubmitted : c'.submitted = c.submitted ++ [order]) :
    OneSnipe created (c', handled ++ [n]) ↔
      ∃ mint,
        Creates created n mint ∧ Carries decode n mint ∧
          ∀ n' ∈ handled, ¬Carries decode n' mint := by
  have hNew :
      ∀ mint,
        toBase58 mint ∉ c.submitted.map Order.mint ↔
          ∀ n' ∈ handled, ¬Carries decode n' mint := by
    intro mint
    rw [mem_submitted_iff hSnipe hBought]
    simp only [not_exists, not_and]
  constructor
  · intro hNext
    have hOnce := hNext.once
    have hCreated := hNext.created
    dsimp only at hOnce hCreated
    rw [hSubmitted, List.map_append, List.map_singleton,
      nodup_concat_iff] at hOnce
    rw [hSubmitted, forall₂_concat_iff] at hCreated
    rcases hCreated.2 with ⟨mint, hCreates, hText⟩
    rw [hText, hNew] at hOnce
    refine ⟨mint, hCreates, ?_, hOnce.2⟩
    rw [hMint] at hText
    exact (mint_published_iff hPublished hCreates).mp hText
  · rintro ⟨mint, hCreates, hCarries, hFresh⟩
    have hText : order.mint = toBase58 mint := by
      rw [hMint]
      exact (mint_published_iff hPublished hCreates).mpr hCarries
    constructor
    · dsimp only
      rw [hSubmitted, List.map_append, List.map_singleton,
        nodup_concat_iff, hText, hNew]
      exact ⟨hSnipe.once, hFresh⟩
    · dsimp only
      rw [hSubmitted, forall₂_concat_iff]
      exact ⟨hSnipe.created, mint, hCreates, hText⟩

/- A step handles an event and orders its mint, or neither. -/
theorem step_cases
    {amount : UInt64}
    {c c' : Consumer}
    {e : ConsumerEvent}
    (hStep : c.step decode true amount e = some c') :
    (c.handles decode e = none ∧ c'.submitted = c.submitted) ∨
      ∃ n event draw,
        c.handles decode e = some n ∧
          published decode n = some event ∧
          c'.submitted =
            c.submitted ++ [sniperOrder amount event draw] := by
  cases e with
  | notify n =>
      dsimp only [Consumer.step] at hStep
      split at hStep
      · cases hStep
        exact .inl ⟨rfl, rfl⟩
      · cases hStep
        exact .inl ⟨rfl, rfl⟩
  | receive draw =>
      dsimp only [Consumer.step] at hStep
      dsimp only [Consumer.handles]
      split at hStep
      · next hLag =>
          cases hStep
          exact .inl ⟨if_pos hLag, rfl⟩
      · next hNext =>
          split at hStep
          · next event hEvent =>
              cases hStep
              rcases Option.bind_eq_some_iff.mp hEvent with
                ⟨n, hSent, hPublished⟩
              refine .inr ⟨n, event, draw, ?_, hPublished, rfl⟩
              rw [if_neg hNext, hSent, Option.filter_some, hPublished]
              rfl
          · cases hStep

theorem handles_of_idle
    {amount : UInt64}
    {c : Consumer}
    {e : ConsumerEvent}
    (hIdle : c.step decode true amount e = none) :
    c.handles decode e = none := by
  cases e with
  | notify n => rfl
  | receive draw =>
      dsimp only [Consumer.step] at hIdle
      dsimp only [Consumer.handles]
      split at hIdle
      · cases hIdle
      · next hNext =>
          rw [if_neg hNext]
          split at hIdle
          · cases hIdle
          · next hNone =>
              cases hSent : c.sent[c.next]? with
              | none => rfl
              | some n =>
                  rw [hSent, Option.bind_some] at hNone
                  rw [Option.filter_some, hNone]
                  rfl

/- What a step orders is the mint of what it handles. -/
theorem bought_step
    {amount : UInt64}
    {p q : Consumer × List Notification}
    {e : ConsumerEvent}
    (hBought : Bought decode p)
    (hStep : (consuming decode true amount).step p e = some q) :
    Bought decode q := by
  rcases p with ⟨c, handled⟩
  rcases q with ⟨c', handled'⟩
  rcases Transition.watch_step.mp hStep with ⟨hConsumer, hHandled⟩
  dsimp only at hConsumer hHandled
  subst hHandled
  unfold Bought at hBought ⊢
  dsimp only at hBought ⊢
  rcases step_cases hConsumer with
    ⟨hNone, hSame⟩ | ⟨n, event, draw, hHandles, hPublished, hMore⟩
  · rw [hNone, hSame, Option.toList_none, List.append_nil, hBought]
  · rw [hHandles, hMore, Option.toList_some, List.map_append,
      List.map_append, hBought, List.map_singleton, List.map_singleton,
      publishedMint, hPublished]
    rfl

theorem oneSnipe_step
    {amount : UInt64}
    {p q : Consumer × List Notification}
    {e : ConsumerEvent}
    (hBought : Bought decode p)
    (hSnipe : OneSnipe created p)
    (hStep : (consuming decode true amount).step p e = some q) :
    OneSnipe created q ↔ FreshCreation created decode p e := by
  rcases p with ⟨c, handled⟩
  rcases q with ⟨c', handled'⟩
  rcases Transition.watch_step.mp hStep with ⟨hConsumer, hHandled⟩
  dsimp only at hConsumer hHandled
  subst hHandled
  unfold FreshCreation
  dsimp only
  rcases step_cases hConsumer with
    ⟨hNone, hSame⟩ | ⟨n, event, draw, hHandles, hPublished, hMore⟩
  · rw [hNone, Option.toList_none, List.append_nil]
    refine iff_of_true ⟨?_, ?_⟩ nofun
    · dsimp only
      rw [hSame]
      exact hSnipe.once
    · dsimp only
      rw [hSame]
      exact hSnipe.created
  · rw [hHandles, Option.toList_some,
      oneSnipe_concat_iff hSnipe hBought hPublished rfl hMore]
    simp only [Option.some.injEq, forall_eq']

/-
  With the sniper on, only tokens that were created are bought,
  and each once, throughout a run exactly if every event that is
  handled is a fresh creation.
-/
theorem oneSnipe_iff
    (created : String → List Pubkey)
    (decode : String → Option (List UInt8))
    (amount : UInt64)
    (es : List ConsumerEvent) :
    (consuming decode true amount).Throughout (OneSnipe created)
        (.new, []) es ↔
      (consuming decode true amount).Meets
        (FreshCreation created decode) (.new, []) es := by
  apply Transition.throughout_iff_meets_of_invariant
    (I := Bought decode)
  · rfl
  · exact ⟨List.nodup_nil, .nil⟩
  · exact fun p e q hBought hStep => bought_step hBought hStep
  · intro p e hNone n hHandles
    rw [handles_of_idle (Transition.watch_step_none.mp hNone)] at hHandles
    cases hHandles
  · exact fun p e q hBought hSnipe hStep =>
      oneSnipe_step hBought hSnipe hStep

end Snipes

/- A bonding curve is traded twice. -/
def tradedTwice : List ConsumerEvent :=
  let update : ConsumerEvent :=
    .notify ⟨.account "4wTV1YmiEkRvAtNtsSGPtUrqRYQMe5SKy2uB4Jjaxnjf", 0⟩
  [update, .receive ⟨"a", "t", 1, 0⟩, update, .receive ⟨"b", "u", 2, 1⟩]

/- The sniper buys twice, and what it buys is the bonding curve. -/
theorem not_oneSnipe_tradedTwice :
    ((consuming (fun _ => none) true 100000000).exec (.new, [])
        tradedTwice).map (fun p => p.1.submitted.map Order.mint) =
        some
          [ "4wTV1YmiEkRvAtNtsSGPtUrqRYQMe5SKy2uB4Jjaxnjf",
            "4wTV1YmiEkRvAtNtsSGPtUrqRYQMe5SKy2uB4Jjaxnjf" ] ∧
      ¬(consuming (fun _ => none) true 100000000).Throughout
        (OneSnipe fun _ => []) (.new, []) tradedTwice := by
  refine ⟨by decide +kernel, fun hThroughout => ?_⟩
  rcases Transition.exists_exec_of_any
    (consuming (fun _ => none) true 100000000) (.new, []) tradedTwice
    (fun p => !decide (p.1.submitted.map Order.mint).Nodup)
    (by decide +kernel) with ⟨p, hExec, hTwice⟩
  have hOnce :=
    (hThroughout tradedTwice [] p (List.append_nil _).symm hExec).once
  rw [decide_eq_true hOnce] at hTwice
  cases hTwice

------------------------------------------------------------
-- What the Consumer Receives
------------------------------------------------------------

section Receives

variable (decode : String → Option (List UInt8))

/- The notifications of a run that were published. -/
def heard (es : List ConsumerEvent) : List Notification :=
  es.filterMap fun
    | .notify n => if (published decode n).isSome then some n else none
    | .receive _ => none

/-
  The consumer handles what is published in order, nothing
  twice; what it has skipped is older than the last events that
  the channel holds; and it orders the mint of every event that
  it handles.
-/
structure Handles
    (events : List Notification)
    (c : Consumer)
    (handled : List Notification) : Prop where
  published : c.sent = events
  ordered : handled.Sublist (events.take c.next)
  recent :
    (events.take c.next).drop (events.length - channelCapacity) <:+
      handled
  bought :
    c.submitted.map Order.mint = handled.filterMap (publishedMint decode)

/- The consumer receives before the channel overtakes it. -/
def KeepsPace
    (p : Consumer × List Notification)
    (e : ConsumerEvent) : Prop :=
  ∀ draw,
    e = .receive draw → p.1.sent.length ≤ p.1.next + channelCapacity

variable {decode}
variable {amount : UInt64} {c c' : Consumer} {e : ConsumerEvent}
variable {handled : List Notification}
variable {rs : List (Received Notification)}

/- What has been received, after one more step. -/
theorem follows_step
    (hFollows : Follows channelCapacity c.sent 0 rs c.next)
    (hStep : c.step decode true amount e = some c') :
    ∃ rs',
      Follows channelCapacity c'.sent 0 rs' c'.next ∧
        Received.values rs' =
            Received.values rs ++ (c.handles decode e).toList ∧
          ∀ handled,
            KeepsPace (c, handled) e →
              Received.lost rs' = Received.lost rs := by
  cases e with
  | notify n =>
      dsimp only [Consumer.step] at hStep
      refine ⟨rs, ?_, (List.append_nil _).symm, fun _ _ => rfl⟩
      split at hStep
      · cases hStep
        exact hFollows.later _
      · cases hStep
        exact hFollows
  | receive draw =>
      dsimp only [Consumer.step] at hStep
      dsimp only [Consumer.handles]
      split at hStep
      · next hLag =>
          cases hStep
          refine
            ⟨rs ++
              [.lagged (c.sent.length - channelCapacity - c.next)],
              ?_, ?_, fun _ hKeeps => ?_⟩
          · have hTo :
                c.sent.length - channelCapacity =
                  c.next +
                    (c.sent.length - channelCapacity - c.next) := by
              omega
            dsimp only
            rw [hTo, Nat.add_sub_cancel_left]
            exact hFollows.lagged (by omega)
          · rw [Received.values_concat_lagged, if_pos hLag]
            exact (List.append_nil _).symm
          · exact absurd (hKeeps draw rfl) (Nat.not_le_of_lt hLag)
      · next hNext =>
          split at hStep
          · next event hEvent =>
              cases hStep
              rcases Option.bind_eq_some_iff.mp hEvent with
                ⟨n, hSent, hPublished⟩
              refine ⟨rs ++ [.value n], hFollows.value hSent, ?_, ?_⟩
              · rw [Received.values_concat_value, if_neg hNext, hSent,
                  Option.filter_some, hPublished]
                rfl
              · intro _ _
                rw [Received.lost_concat]
                rfl
          · cases hStep

/- The orders of a run are for the mints of what was handled. -/
theorem bought_of_exec
    {es : List ConsumerEvent}
    (hExec :
      (consuming decode true amount).exec (.new, []) es =
        some (c, handled)) :
    c.submitted.map Order.mint =
      handled.filterMap (publishedMint decode) := by
  have hNew : Bought decode (.new, []) := rfl
  have hBought : Bought decode (c, handled) :=
    Transition.exec_induction (P := fun _ p => Bought decode p) hNew
      (fun _ _ _ _ _ hBefore hStep => bought_step hBefore hStep) hExec
  have hSome := congrArg (List.filterMap id) hBought
  rw [List.filterMap_map, List.filterMap_map] at hSome
  rw [← List.filterMap_eq_map]
  exact hSome

theorem sent_step
    (hStep : c.step decode true amount e = some c') :
    c'.sent = c.sent ++ heard decode [e] := by
  cases e with
  | notify n =>
      dsimp only [Consumer.step] at hStep
      split at hStep
      · next event hPublished =>
          cases hStep
          simp [heard, hPublished]
      · next hPublished =>
          cases hStep
          simp [heard, hPublished]
  | receive draw =>
      have hNone : heard decode [.receive draw] = [] := rfl
      rw [hNone, List.append_nil]
      dsimp only [Consumer.step] at hStep
      split at hStep
      · cases hStep
        rfl
      · split at hStep
        · cases hStep
          rfl
        · cases hStep

/-
  In every run the consumer handles what was published since it
  has subscribed, in order, and all of it if it never falls
  behind by more than the channel holds.
-/
theorem handles_of_exec
    (decode : String → Option (List UInt8))
    (amount : UInt64)
    {es : List ConsumerEvent}
    {c : Consumer}
    {handled : List Notification}
    (hExec :
      (consuming decode true amount).exec (.new, []) es =
        some (c, handled)) :
    Handles decode (heard decode es) c handled ∧
      ((consuming decode true amount).Meets KeepsPace (.new, []) es →
        handled = (heard decode es).take c.next) := by
  have hRun :
      ∃ rs,
        c.sent = heard decode es ∧
          Follows channelCapacity c.sent 0 rs c.next ∧
          Received.values rs = handled ∧
          ((consuming decode true amount).Meets KeepsPace (.new, [])
              es →
            Received.lost rs = 0) := by
    induction es using List.reverseRecOn generalizing c handled with
    | nil =>
        cases hExec
        exact ⟨[], rfl, .nil, rfl, fun _ => rfl⟩
    | append_singleton es e ih =>
        rcases Transition.exec_append_singleton.mp hExec with
          ⟨⟨b, before⟩, hBefore, hLast⟩
        rcases ih hBefore with ⟨rs, hSent, hFollows, hValues, hNone⟩
        rcases Transition.watch_step.mp hLast with ⟨hStep, hHandled⟩
        dsimp only at hStep hHandled
        subst hHandled
        rcases follows_step hFollows hStep with
          ⟨rs', hFollows', hValues', hSame⟩
        refine ⟨rs', ?_, hFollows', ?_, ?_⟩
        · rw [sent_step hStep, hSent]
          exact List.filterMap_append.symm
        · rw [hValues', hValues]
        · intro hMeets
          rw [hSame _ (hMeets _ e [] _ rfl hBefore)]
          exact hNone hMeets.earlier
  rcases hRun with ⟨rs, hSent, hFollows, hValues, hNone⟩
  rw [hSent] at hFollows
  refine ⟨⟨hSent, ?_, ?_, bought_of_exec hExec⟩, fun hMeets => ?_⟩
  · rw [← hValues]
    exact hFollows.sublist
  · rw [← hValues]
    have hRecent := hFollows.recent
    rw [Nat.zero_max] at hRecent
    exact hRecent
  · rw [← hValues]
    exact hFollows.exact (hNone hMeets) (Nat.zero_le _)

/- Two updates of one account are handled, and ordered. -/
theorem handles_of_exec_tradedTwice :
    ∃ c handled,
      (consuming (fun _ => none) true 100000000).exec (.new, [])
          tradedTwice = some (c, handled) ∧
        Handles (fun _ => none) (heard (fun _ => none) tradedTwice) c
          handled ∧
        ((consuming (fun _ => none) true 100000000).Meets KeepsPace
            (.new, []) tradedTwice →
          handled = (heard (fun _ => none) tradedTwice).take c.next) := by
  rcases Transition.exists_exec_of_any
    (consuming (fun _ => none) true 100000000) (.new, []) tradedTwice
    (fun _ => true) (by decide +kernel) with ⟨⟨c, handled⟩, hExec, _⟩
  exact ⟨c, handled, hExec, handles_of_exec _ _ hExec⟩

end Receives

end Websocket

end Pumpy
