import Pumpy.Api.LiveTrades

/-
  The relay of order updates to a client: the updates of one
  order are to come once each, in the order of the stream, so
  that the dashboard shows the last status.

  An update is sent when its look-up is answered.  The look-ups
  of one order are not kept apart, so what a client receives is
  the order of the answers.

  Key definitions include:
    * `Fanout.completions`
    * `WsClient.RelaysInOrder`
    * `Fanout.CompletesInOrder`
    * `Fanout.Relays`
    * `Fanout.Heard`

  The main results are `heard_of_run`, `relaysInOrder_iff` and
  `not_relaysInOrder`.
-/

namespace Pumpy

open Interleaving

------------------------------------------------------------
-- The property
------------------------------------------------------------

/- The update of that number is one of the order. -/
def isOf
    (orderId : String)
    (delivered : List OrderUpdate)
    (number : Nat) : Bool :=
  delivered[number]?.any (·.orderId = orderId)

/- The numbers of the updates of an order, in stream order. -/
def numbersOf
    (orderId : String)
    (delivered : List OrderUpdate) : List Nat :=
  (List.range delivered.length).filter (isOf orderId delivered)

/- A payload says what the update says. -/
structure LiveTradePayload.Tells
    (payload : LiveTradePayload)
    (update : OrderUpdate) : Prop where
  id : payload.id = update.orderId
  status : payload.status = update.status
  signature : payload.signature = update.signature
  executedAt : payload.executedAt = update.executedAt
  price : payload.price = update.executedPrice

/-
  The client has received the updates of an order once each
  and in stream order, and the dashboard shows the status of
  the last one, as far as it shows the order.
-/
structure WsClient.RelaysInOrder
    (client : WsClient)
    (orderId : String)
    (delivered : List OrderUpdate) : Prop where
  inOrder :
    (client.received.filter (·.2.id = orderId)).map Prod.fst =
      numbersOf orderId delivered
  told :
    ∀ m ∈ client.received,
      ∃ update, delivered[m.1]? = some update ∧ m.2.Tells update
  shown :
    ∀ trade ∈ liveTrades (client.received.map Prod.snd),
      trade.id = orderId →
        ((delivered.filter (·.orderId = orderId)).map
          OrderUpdate.status).getLast? = some trade.status

namespace Fanout

variable {client : Nat} {orderId : String}

/- The look-ups of the run, as they were answered. -/
def completions (es : List Event) : List Nat :=
  es.filterMap fun
    | .lookedUp number _ => some number
    | _ => none

/- The look-ups for the updates of an order complete in stream order. -/
def CompletesInOrder
    (orderId : String)
    (delivered : List OrderUpdate)
    (es : List Event) : Prop :=
  ((completions es).filter (isOf orderId delivered)).Pairwise (· < ·)

/- The client is connected, and its filter lets the order through. -/
def Subscribed
    (client : Nat)
    (orderId : String)
    (s : Fanout) : Prop :=
  ∃ c ∈ s.clients[client]?,
    c.isOpen = true ∧ c.admits orderId = true

/- The event answers a look-up, so that an update is relayed. -/
def Event.answers : Event → Bool
  | .lookedUp _ _ => true
  | _ => false

/- The client is subscribed whenever an update is relayed. -/
def SubscribedThroughout
    (client : Nat)
    (orderId : String)
    (s : Fanout)
    (e : Event) : Prop :=
  e.answers = true → s.Subscribed client orderId

instance : DecidablePred (Subscribed client orderId) :=
  fun s =>
    match hClient : s.clients[client]? with
    | none => isFalse (by simp [Subscribed, hClient])
    | some c =>
        decidable_of_iff
          (c.isOpen = true ∧ c.admits orderId = true)
          (by simp [Subscribed, hClient])

instance (s : Fanout) (e : Event) :
    Decidable (SubscribedThroughout client orderId s e) :=
  inferInstanceAs (Decidable (_ → _))

------------------------------------------------------------
-- What an event does to the updates
------------------------------------------------------------

variable {s s' : Fanout} {e : Event} {es : List Event}

@[simp] theorem completions_append
    (es es' : List Event) :
    completions (es ++ es') = completions es ++ completions es' :=
  List.filterMap_append

/- What is to be known of an event where only the updates count. -/
inductive Relays (s : Fanout) : Event → Fanout → Prop
  | delivers
      {call : Nat}
      {update : OrderUpdate}
      {now : String}
      {s' : Fanout}
      (hDelivered : s'.delivered = s.delivered ++ [update])
      (hLookups :
        s'.lookups =
          s.lookups ++ [⟨s.delivered.length, update, now⟩])
      (hClients : s'.clients = s.clients) :
      Relays s (.data call update now) s'
  | answers
      {lookup : Lookup}
      {rows : Option (List TradesRow)}
      (hWaiting : lookup ∈ s.lookups) :
      Relays s (.lookedUp lookup.number rows) (s.relay lookup rows)
  -- No update comes in or goes out; a client that is new has none.
  | other
      {e : Event}
      {s' : Fanout}
      (hOther : completions [e] = [])
      (hDelivered : s'.delivered = s.delivered)
      (hLookups : s'.lookups = s.lookups)
      (hClients :
        ∀ (i : Nat) (c' : WsClient), s'.clients[i]? = some c' →
          (∃ c, s.clients[i]? = some c ∧ c'.received = c.received) ∨
            s.clients[i]? = none ∧ c'.received = [])
      (hStay : s.clients.length ≤ s'.clients.length) :
      Relays s e s'

theorem relays_of_same
    (hOther : completions [e] = [])
    (hDelivered : s'.delivered = s.delivered)
    (hLookups : s'.lookups = s.lookups)
    (hClients : s'.clients = s.clients) :
    Relays s e s' := by
  refine .other hOther hDelivered hLookups ?_ (by rw [hClients])
  intro i c' hAt
  rw [hClients] at hAt
  exact .inl ⟨c', hAt, rfl⟩

theorem relays_of_onEnd
    (calls : List StreamCall)
    (hOther : completions [e] = []) :
    Relays s e { s with calls := calls }.onEnd := by
  apply relays_of_same hOther
  · simp [onEnd]
  · simp [onEnd]
  · simp [onEnd]

theorem relays_of_set
    {client : Nat}
    {c c' : WsClient}
    (hOther : completions [e] = [])
    (hClient : s.clients[client]? = some c)
    (hReceived : c'.received = c.received) :
    Relays s e { s with clients := s.clients.set client c' } := by
  refine .other hOther rfl rfl ?_ (by simp)
  intro i d hAt
  rw [List.getElem?_set] at hAt
  split at hAt
  · next hSame =>
      have hHere : d = c' := by
        split at hAt
        · exact (Option.some.inj hAt).symm
        · cases hAt
      exact .inl ⟨c, hSame ▸ hClient, hHere ▸ hReceived⟩
  · exact .inl ⟨d, hAt, rfl⟩

theorem relays_of_step
    (hStep : s.step e = some s') :
    Relays s e s' := by
  cases e with
  | data call update now =>
      simp only [step] at hStep
      split at hStep
      · cases hStep
        exact .delivers rfl rfl rfl
      · cases hStep
  | ended call =>
      obtain ⟨c, c', -, -, rfl⟩ :=
        ends_of_callback hStep (.inl rfl)
      exact relays_of_onEnd _ rfl
  | failed call =>
      obtain ⟨c, c', -, -, rfl⟩ :=
        ends_of_callback hStep (.inr rfl)
      exact relays_of_onEnd _ rfl
  | healthTimer =>
      simp only [step] at hStep
      split at hStep
      · cases hStep
        exact relays_of_same rfl rfl rfl rfl
      · cases hStep
  | reconnectTimer throws =>
      simp only [step] at hStep
      split at hStep
      · cases hStep
        apply relays_of_same rfl <;>
          · unfold startSingletonStream
            split
            · rfl
            · split <;> simp
      · cases hStep
  | lookedUp number rows =>
      simp only [step] at hStep
      split at hStep
      · cases hStep
      · next lookup hWaiting =>
          cases hStep
          have hNumber : lookup.number = number := by
            simpa using List.find?_some hWaiting
          rw [← hNumber]
          exact .answers (List.mem_of_find?_eq_some hWaiting)
  | connected orderIds =>
      cases hStep
      refine .other rfl rfl rfl ?_ (by simp)
      intro i c' hAt
      rw [List.getElem?_append] at hAt
      split at hAt
      · exact .inl ⟨c', hAt, rfl⟩
      · next hBeyond =>
          have hNew := List.mem_singleton.mp (List.mem_of_getElem? hAt)
          refine .inr ⟨?_, by rw [hNew]⟩
          exact List.getElem?_eq_none (Nat.le_of_not_lt hBeyond)
  | filtered client orderIds =>
      obtain ⟨c, c', hClient, hReceived, rfl⟩ :=
        keeps_received_of_client hStep (.inl ⟨orderIds, rfl⟩)
      exact relays_of_set rfl hClient hReceived
  | closed client =>
      obtain ⟨c, c', hClient, hReceived, rfl⟩ :=
        keeps_received_of_client hStep (.inr rfl)
      exact relays_of_set rfl hClient hReceived

------------------------------------------------------------
-- What has been heard
------------------------------------------------------------

/-
  After a run in which the client was subscribed to the order:
  every update waits or was relayed, and the client has what
  was relayed of the order, in the order of the answers.
-/
structure Heard
    (client : Nat)
    (orderId : String)
    (es : List Event)
    (s : Fanout) : Prop where
  numbered :
    ∀ lookup ∈ s.lookups,
      s.delivered[lookup.number]? = some lookup.update
  accounted :
    (s.lookups.map Lookup.number ++ completions es).Perm
      (List.range s.delivered.length)
  unheard : s.clients.length ≤ client → completions es = []
  heard :
    ∀ c, s.clients[client]? = some c →
      (c.received.filter (·.2.id = orderId)).map Prod.fst =
        (completions es).filter (isOf orderId s.delivered)
  told :
    ∀ c, s.clients[client]? = some c → ∀ m ∈ c.received,
      ∃ update, s.delivered[m.1]? = some update ∧
        m.2.Tells update

theorem heard_boot
    (throws : Bool) :
    (boot throws).Heard client orderId [] := by
  have hLookups : (boot throws).lookups = [] := by
    cases throws <;> rfl
  have hDelivered : (boot throws).delivered = [] := by
    cases throws <;> rfl
  have hClients : (boot throws).clients = [] := by
    cases throws <;> rfl
  constructor
  · simp [hLookups]
  · rw [hLookups, hDelivered]
    exact List.Perm.refl _
  · exact fun _ => rfl
  · intro c hClient
    simp [hClients] at hClient
  · intro c hClient
    simp [hClients] at hClient

/- An update that comes later does not change the earlier ones. -/
theorem isOf_append
    {delivered : List OrderUpdate}
    {update : OrderUpdate}
    {number : Nat}
    (hLess : number < delivered.length) :
    isOf orderId (delivered ++ [update]) number =
      isOf orderId delivered number := by
  rw [isOf, isOf, List.getElem?_append_left hLess]

theorem getElem?_delivered
    {delivered : List OrderUpdate}
    {update update' : OrderUpdate}
    {number : Nat}
    (hAt : delivered[number]? = some update) :
    (delivered ++ [update'])[number]? = some update := by
  rw [List.getElem?_append_left]
  · exact hAt
  · exact (List.getElem?_eq_some_iff.mp hAt).1

theorem tells_enrichUpdate
    (update : OrderUpdate)
    (now : String)
    (rows : Option (List TradesRow)) :
    (enrichUpdate update now rows).Tells update := by
  unfold enrichUpdate
  rcases rows with _ | rows
  · exact ⟨rfl, rfl, rfl, rfl, rfl⟩
  · cases rows <;> exact ⟨rfl, rfl, rfl, rfl, rfl⟩

theorem Heard.delivers
    {call : Nat}
    {update : OrderUpdate}
    {now : String}
    (hInv : s.Heard client orderId es)
    (hDelivered : s'.delivered = s.delivered ++ [update])
    (hLookups :
      s'.lookups = s.lookups ++ [⟨s.delivered.length, update, now⟩])
    (hClients : s'.clients = s.clients) :
    s'.Heard client orderId (es ++ [.data call update now]) := by
  have hSame :
      completions (es ++ [.data call update now]) =
        completions es := by
    rw [completions_append]
    exact List.append_nil _
  have hLess : ∀ n ∈ completions es, n < s.delivered.length := by
    intro n hMem
    apply List.mem_range.mp
    exact hInv.accounted.mem_iff.mp (List.mem_append_right _ hMem)
  constructor
  · intro lookup hMem
    rw [hLookups] at hMem
    rw [hDelivered]
    rcases List.mem_append.mp hMem with hOld | hNew
    · exact getElem?_delivered (hInv.numbered lookup hOld)
    · rw [List.mem_singleton.mp hNew]
      exact List.getElem?_concat_length
  · rw [hLookups, hDelivered, hSame, List.map_append,
      List.length_append]
    have hOne : [update].length = 1 := rfl
    rw [hOne, List.range_succ, List.append_assoc]
    refine (List.perm_append_comm.append_left _).trans ?_
    rw [← List.append_assoc]
    exact hInv.accounted.append_right _
  · rw [hSame, hClients]
    exact hInv.unheard
  · intro c hClient
    rw [hClients] at hClient
    rw [hSame, hDelivered, hInv.heard c hClient]
    apply List.filter_congr
    intro n hMem
    exact (isOf_append (hLess n hMem)).symm
  · intro c hClient m hMem
    rw [hClients] at hClient
    rcases hInv.told c hClient m hMem with ⟨old, hAt, hTells⟩
    exact ⟨old, hDelivered ▸ getElem?_delivered hAt, hTells⟩

/- What a client has been sent, once a payload is offered to it. -/
theorem received_onOrder
    {c : WsClient}
    {number : Nat}
    {payload : LiveTradePayload}
    (hSubscribed :
      c.isOpen = true ∧ c.admits orderId = true) :
    ((c.onOrder number payload).received.filter
        (·.2.id = orderId)).map Prod.fst =
      (c.received.filter (·.2.id = orderId)).map Prod.fst ++
        if payload.id = orderId then [number] else [] := by
  by_cases hId : payload.id = orderId
  · have hSent :
        (c.onOrder number payload).received =
          c.received ++ [(number, payload)] := by
      simp [WsClient.onOrder, hSubscribed.1, hId, hSubscribed.2]
    rw [hSent, List.filter_append, List.map_append, if_pos hId]
    simp [hId]
  · rw [if_neg hId, List.append_nil, WsClient.onOrder]
    split
    · rfl
    · split
      · rfl
      · simp [List.filter_append, hId]

theorem mem_received_onOrder
    {c : WsClient}
    {number : Nat}
    {payload : LiveTradePayload}
    {m : Nat × LiveTradePayload}
    (hMem : m ∈ (c.onOrder number payload).received) :
    m ∈ c.received ∨ m = (number, payload) := by
  unfold WsClient.onOrder at hMem
  split at hMem
  · exact .inl hMem
  · split at hMem
    · exact .inl hMem
    · simpa using hMem

theorem Heard.answers
    {lookup : Lookup}
    {rows : Option (List TradesRow)}
    (hInv : s.Heard client orderId es)
    (hSubscribed : s.Subscribed client orderId)
    (hWaiting : lookup ∈ s.lookups) :
    (s.relay lookup rows).Heard client orderId
      (es ++ [.lookedUp lookup.number rows]) := by
  have hAdd :
      completions (es ++ [.lookedUp lookup.number rows]) =
        completions es ++ [lookup.number] :=
    completions_append _ _
  have hUpdate := hInv.numbered lookup hWaiting
  have hTells :
      (enrichUpdate lookup.update lookup.createdAt rows).Tells
        lookup.update :=
    tells_enrichUpdate _ _ _
  rcases hSubscribed with ⟨d, hMem, hOpen⟩
  have hHere : s.clients[client]? = some d := hMem
  have hSent :
      ∀ c', (s.relay lookup rows).clients[client]? = some c' →
        d.onOrder lookup.number
          (enrichUpdate lookup.update lookup.createdAt rows) =
            c' := by
    intro c' hClient
    simpa [relay, hHere] using hClient
  constructor
  · intro other hMem
    exact hInv.numbered other (List.mem_of_mem_erase hMem)
  · rw [hAdd, ← List.append_assoc]
    refine List.Perm.trans ?_ hInv.accounted
    have hOnce :
        (s.lookups.map Lookup.number).Perm
          (lookup.number ::
            (s.lookups.erase lookup).map Lookup.number) :=
      (List.perm_cons_erase hWaiting).map Lookup.number
    refine List.Perm.trans ?_ (hOnce.append_right _).symm
    exact List.perm_append_singleton _ _
  · intro hBeyond
    have hNone : s.clients.length ≤ client := by
      simpa [relay] using hBeyond
    rw [List.getElem?_eq_none hNone] at hHere
    cases hHere
  · intro c' hClient
    have hIs :
        isOf orderId s.delivered lookup.number =
          decide (lookup.update.orderId = orderId) := by
      rw [isOf, hUpdate]
      rfl
    rw [← hSent c' hClient, received_onOrder hOpen, hInv.heard d hHere, hAdd,
      List.filter_append, hTells.id]
    change _ =
      (completions es).filter (isOf orderId s.delivered) ++
        [lookup.number].filter (isOf orderId s.delivered)
    by_cases hId : lookup.update.orderId = orderId
    · simp [hId, hIs]
    · simp [hId, hIs]
  · intro c' hClient m hMem
    rw [← hSent c' hClient] at hMem
    rcases mem_received_onOrder hMem with hOld | hNew
    · exact hInv.told d hHere m hOld
    · rw [hNew]
      exact ⟨lookup.update, hUpdate, hTells⟩

theorem Heard.other
    (hInv : s.Heard client orderId es)
    (hOther : completions [e] = [])
    (hDelivered : s'.delivered = s.delivered)
    (hLookups : s'.lookups = s.lookups)
    (hClients :
      ∀ (i : Nat) (c' : WsClient), s'.clients[i]? = some c' →
        (∃ c, s.clients[i]? = some c ∧ c'.received = c.received) ∨
          s.clients[i]? = none ∧ c'.received = [])
    (hStay : s.clients.length ≤ s'.clients.length) :
    s'.Heard client orderId (es ++ [e]) := by
  have hSame : completions (es ++ [e]) = completions es := by
    rw [completions_append, hOther, List.append_nil]
  constructor
  · rw [hLookups, hDelivered]
    exact hInv.numbered
  · rw [hLookups, hDelivered, hSame]
    exact hInv.accounted
  · rw [hSame]
    exact fun hBeyond => hInv.unheard (Nat.le_trans hStay hBeyond)
  · intro c' hClient
    rw [hSame, hDelivered]
    rcases hClients client c' hClient with
      ⟨c, hOld, hReceived⟩ | ⟨hNone, hReceived⟩
    · rw [hReceived]
      exact hInv.heard c hOld
    · have hEarly :=
        hInv.unheard (List.getElem?_eq_none_iff.mp hNone)
      rw [hReceived, hEarly]
      rfl
  · intro c' hClient m hMem
    rw [hDelivered]
    rcases hClients client c' hClient with
      ⟨c, hOld, hReceived⟩ | ⟨_, hReceived⟩
    · rw [hReceived] at hMem
      exact hInv.told c hOld m hMem
    · rw [hReceived] at hMem
      cases hMem

theorem heard_of_run
    {throws : Bool}
    (hSubscribed :
      system.Meets (SubscribedThroughout client orderId)
        (boot throws) es)
    (hRun : system.exec (boot throws) es = some s) :
    s.Heard client orderId es := by
  refine Transition.exec_invariant
    (P := fun es s => s.Heard client orderId es)
    (heard_boot throws) ?_ hSubscribed hRun
  intro es s e s' _ hInv hHere hStep
  cases relays_of_step hStep with
  | delivers hDelivered hLookups hClients =>
      exact hInv.delivers hDelivered hLookups hClients
  | answers hWaiting => exact hInv.answers (hHere rfl) hWaiting
  | other hOther hDelivered hLookups hClients hStay =>
      exact hInv.other hOther hDelivered hLookups hClients hStay

------------------------------------------------------------
-- The order of the updates
------------------------------------------------------------

/- The updates of an order, read off their numbers. -/
theorem filterMap_numbersOf
    (orderId : String)
    (delivered : List OrderUpdate) :
    (numbersOf orderId delivered).filterMap (delivered[·]?) =
      delivered.filter (·.orderId = orderId) := by
  induction delivered using List.reverseRecOn with
  | nil => rfl
  | append_singleton delivered update ih =>
      have hEarly :
          ∀ n ∈ List.range delivered.length,
            isOf orderId (delivered ++ [update]) n =
              isOf orderId delivered n :=
        fun n hMem => isOf_append (List.mem_range.mp hMem)
      have hOld :
          ∀ n ∈ numbersOf orderId delivered,
            (delivered ++ [update])[n]? = delivered[n]? := by
        intro n hMem
        have hRange := List.mem_of_mem_filter hMem
        exact List.getElem?_append_left (List.mem_range.mp hRange)
      have hLast :
          (delivered ++ [update])[delivered.length]? =
            some update :=
        List.getElem?_concat_length
      have hIs :
          isOf orderId (delivered ++ [update]) delivered.length =
            decide (update.orderId = orderId) := by
        rw [isOf, hLast]
        rfl
      rw [numbersOf, List.length_append, List.length_singleton,
        List.range_succ, List.filter_append, List.filter_append,
        List.filterMap_append, List.filter_congr hEarly]
      change (numbersOf orderId delivered).filterMap _ ++ _ = _
      rw [List.filterMap_congr hOld, ih]
      by_cases hId : update.orderId = orderId
      · simp [hIs, hId]
      · simp [hIs, hId]

/- What is received in order tells the statuses in stream order. -/
theorem statuses_of_inOrder
    {received : List (Nat × LiveTradePayload)}
    {delivered : List OrderUpdate}
    (hInOrder :
      (received.filter (·.2.id = orderId)).map Prod.fst =
        numbersOf orderId delivered)
    (hTold :
      ∀ m ∈ received,
        ∃ update, delivered[m.1]? = some update ∧
          m.2.Tells update) :
    ((received.map Prod.snd).filter (·.id = orderId)).map
        LiveTradePayload.status =
      (delivered.filter (·.orderId = orderId)).map
        OrderUpdate.status := by
  have hStatus :
      ∀ m ∈ received.filter (·.2.id = orderId),
        delivered[m.1]?.map OrderUpdate.status =
          some m.2.status := by
    intro m hMem
    rcases hTold m (List.mem_of_mem_filter hMem) with
      ⟨update, hAt, hTells⟩
    rw [hAt, hTells.status]
    rfl
  calc
    ((received.map Prod.snd).filter (·.id = orderId)).map
        LiveTradePayload.status =
      (received.filter (·.2.id = orderId)).map (·.2.status) := by
      rw [List.filter_map, List.map_map]
      rfl
    _ = (received.filter (·.2.id = orderId)).filterMap
        (fun m => delivered[m.1]?.map OrderUpdate.status) := by
      rw [List.filterMap_congr hStatus, List.filterMap_eq_map']
    _ = ((numbersOf orderId delivered).filterMap
        (delivered[·]?)).map OrderUpdate.status := by
      rw [← hInOrder, List.filterMap_map, List.map_filterMap]
      rfl
    _ = _ := by rw [filterMap_numbersOf]

/- With no look-up left, every update was answered once. -/
theorem perm_completions
    (hInv : s.Heard client orderId es)
    (hSettled : s.lookups = []) :
    ((completions es).filter (isOf orderId s.delivered)).Perm
      (numbersOf orderId s.delivered) := by
  have hAll := hInv.accounted
  rw [hSettled] at hAll
  exact hAll.filter _

theorem pairwise_numbersOf
    (orderId : String)
    (delivered : List OrderUpdate) :
    (numbersOf orderId delivered).Pairwise (· < ·) :=
  List.pairwise_lt_range.filter _

theorem completesInOrder_iff
    (hInv : s.Heard client orderId es)
    (hSettled : s.lookups = []) :
    CompletesInOrder orderId s.delivered es ↔
      (completions es).filter (isOf orderId s.delivered) =
        numbersOf orderId s.delivered := by
  constructor
  · intro hSorted
    exact (perm_completions hInv hSettled).eq_of_pairwise
      (fun a b _ _ hLess hMore => absurd hLess (Nat.lt_asymm hMore))
      hSorted (pairwise_numbersOf _ _)
  · intro hSame
    rw [CompletesInOrder, hSame]
    exact pairwise_numbersOf _ _

end Fanout

------------------------------------------------------------
-- The condition
------------------------------------------------------------

/-
  A client that is subscribed throughout receives the updates
  of an order once each and in stream order, and its dashboard
  shows the last status, exactly if the look-ups for them
  complete in stream order.
-/
theorem relaysInOrder_iff
    {throws : Bool}
    {es : List Fanout.Event}
    {s : Fanout}
    {client : Nat}
    {c : WsClient}
    {orderId : String}
    (hRun : Fanout.system.exec (.boot throws) es = some s)
    (hSettled : s.lookups = [])
    (hClient : s.clients[client]? = some c)
    (hSubscribed :
      Fanout.system.Meets
        (Fanout.SubscribedThroughout client orderId)
        (.boot throws) es) :
    c.RelaysInOrder orderId s.delivered ↔
      Fanout.CompletesInOrder orderId s.delivered es := by
  have hInv := Fanout.heard_of_run hSubscribed hRun
  rw [Fanout.completesInOrder_iff hInv hSettled,
    ← hInv.heard c hClient]
  constructor
  · exact fun hRelays => hRelays.inOrder
  · intro hInOrder
    refine ⟨hInOrder, hInv.told c hClient, ?_⟩
    intro trade hMem hId
    have hLast := (status_liveTrades hMem).2
    rw [hId] at hLast
    rw [← Fanout.statuses_of_inOrder hInOrder
      (hInv.told c hClient)]
    exact hLast

/- Two updates of an order, one after the other on the stream. -/
def sampleUpdate (status : String) : OrderUpdate where
  orderId := "order-1"
  tokenMint := none
  status := status
  signature := none
  executedAt := none
  executedPrice := none
  executedAmount := none

def sampleDeliveries : List Fanout.Event :=
  [.connected [], .data 0 (sampleUpdate "Pending") "now",
    .data 0 (sampleUpdate "Executed") "now"]

theorem relaysInOrder_sampleDeliveries :
    ∃ s c,
      Fanout.system.exec (.boot false)
          (sampleDeliveries ++ [.lookedUp 0 none, .lookedUp 1 none]) =
            some s ∧
        (WsClient.RelaysInOrder c "order-1" s.delivered ↔
          Fanout.CompletesInOrder "order-1" s.delivered
            (sampleDeliveries ++
              [.lookedUp 0 none, .lookedUp 1 none])) := by
  rcases Fanout.system.exists_exec_of_any (.boot false)
      (sampleDeliveries ++ [.lookedUp 0 none, .lookedUp 1 none])
      (fun s => s.lookups = [] ∧ s.clients[0]?.isSome)
      (by decide +kernel) with
    ⟨s, hRun, hState⟩
  rcases of_decide_eq_true hState with ⟨hSettled, hSome⟩
  rcases Option.isSome_iff_exists.mp hSome with ⟨c, hClient⟩
  refine ⟨s, c, hRun, relaysInOrder_iff hRun hSettled hClient ?_⟩
  exact Transition.meets_of_check (by decide +kernel)

/-
  The look-up for the second update is answered first.  The
  client is sent the updates the wrong way round, and the
  dashboard is left with the first status.
-/
theorem not_relaysInOrder :
    ∃ throws es s client c orderId,
      Fanout.system.exec (.boot throws) es = some s ∧
        s.lookups = [] ∧
        s.clients[client]? = some c ∧
        Fanout.system.Meets
          (Fanout.SubscribedThroughout client orderId)
          (.boot throws) es ∧
        ¬c.RelaysInOrder orderId s.delivered ∧
        (liveTrades (c.received.map Prod.snd)).map LiveTrade.status =
          ["Pending"] := by
  rcases Fanout.system.exists_exec_of_any (.boot false)
      (sampleDeliveries ++ [.lookedUp 1 none, .lookedUp 0 none])
      (fun s => s.lookups = [] ∧
        s.delivered = [sampleUpdate "Pending", sampleUpdate "Executed"] ∧
        s.clients[0]?.any fun (c : WsClient) =>
          (c.received.filter (·.2.id = "order-1")).map Prod.fst =
              [1, 0] ∧
            (liveTrades (c.received.map Prod.snd)).map LiveTrade.status =
              ["Pending"])
      (by decide +kernel) with
    ⟨s, hRun, hState⟩
  rcases of_decide_eq_true hState with ⟨hSettled, hDelivered, hAny⟩
  cases hClient : s.clients[0]? with
  | none => simp [hClient] at hAny
  | some c =>
      rw [hClient] at hAny
      rcases of_decide_eq_true hAny with ⟨hOrder, hShown⟩
      refine ⟨false, _, s, 0, c, "order-1", hRun, hSettled, hClient,
        Transition.meets_of_check (by decide +kernel), ?_, hShown⟩
      intro hRelays
      have hStream := hRelays.inOrder
      rw [hOrder, hDelivered] at hStream
      exact absurd hStream (by decide)

end Pumpy
