import Pumpy.Engine.Stations
import Pumpy.Interleaving.Calls

/-
  Reads of an order's status (`get_order`, manager.rs) against
  the order's transitions: it is queued, a pass enters it, and
  events announce what becomes of it.

  A pass works on a copy of its own, and pending orders stay
  where they are, so the maps follow an order only until the
  first event about it.

  Key definitions include:
    * `getOrder`
    * `lastReport`
    * `StatusCurrent`
    * `Unannounced`

  The main result is `statusCurrent_of_unannounced`.
-/

------------------------------------------------------------
-- Reads
------------------------------------------------------------

namespace Pumpy

open Interleaving

/-
  `get_order`: the active map, the pending orders and the
  history are read one after another, each with the maps as
  they are by then.
-/
def getOrder
    (atActive atPending atHistory : OrderMaps)
    (id : OrderId) : Option Order :=
  (findById id atActive.active).or
    ((findById id atPending.pending).or
      (findById id atHistory.history))

/- The statuses an order ends in. -/
def OrderStatus.terminal : OrderStatus → Bool
  | executed => true
  | failed => true
  | cancelled => true
  | expired => true
  | _ => false

/- What a transition says of its order. -/
structure Report where
  status : OrderStatus
  signature : Option String
  error : Option String
deriving DecidableEq

/- The order shows the status, and what it ended with. -/
def Order.Shows (o : Order) (st : Report) : Prop :=
  o.status = st.status ∧
    (st.status.terminal = true →
      o.signature = st.signature ∧ o.error = st.error)

------------------------------------------------------------
-- Transitions
------------------------------------------------------------

/-
  What one event makes of an order: it is queued, for the first
  time or again; a pass begins to validate it; an event tells of
  it; a restart forgets it.
-/
def reportAfter
    (id : OrderId)
    (last : Option Report) : OmEvent → Option Report
  | .op _ (.map (.pendingPush _ o)) _ pushed =>
      if pushed = true ∧ o.id = id then
        some ⟨.pending, none, none⟩
      else
        last
  | .op _ (.chan (.orderSend o)) _ sent =>
      if sent = true ∧ o.id = id then
        some ⟨.pending, none, none⟩
      else
        last
  | .op _ (.map (.activeInsert o)) _ _ =>
      if o.id = id then
        some ⟨.validating, none, none⟩
      else
        last
  | .op _ (.chan (.eventSend ev)) _ _ =>
      if ev.orderId = id then
        some ⟨ev.status, ev.signature, ev.error⟩
      else
        last
  | .ext .restart => none
  | _ => last

/- The order's most recent transition; none before it is accepted. -/
def lastReport (id : OrderId) (tr : List OmEvent) : Option Report :=
  tr.foldl (reportAfter id) none

theorem lastReport_snoc
    (id : OrderId)
    (tr : List OmEvent)
    (e : OmEvent) :
    lastReport id (tr ++ [e]) = reportAfter id (lastReport id tr) e := by
  simp [lastReport]

section Current

variable (om : OrderManager) (s₀ : State) (id : OrderId)

/- The last event of the trace told of the order. -/
def Emits (st : OrderStatus) (tr : List OmEvent) : Prop :=
  ∃ pre tid ev env,
    tr = pre ++ [.op tid (.chan (.eventSend ev)) env ()] ∧
      ev.orderId = id ∧ ev.status = st

/- A read after the trace returns the order. -/
def Returns (st : OrderStatus) (tr : List OmEvent) : Prop :=
  ∃ c o,
    Machine.Run om.machine Machine.anyStep s₀ tr c ∧
      c.state.maps.activeLocked = false ∧
        getOrder c.state.maps c.state.maps c.state.maps id = some o ∧
          o.status = st

/-
  Reads of the order are current.  A read begins when nobody
  holds the lock of the active map, and other tasks may go on
  before it looks at the pending orders and the history: it
  returns what the order's most recent transition was at some
  moment from its beginning to its end.  No status that is not
  terminal follows one that is.
-/
structure StatusCurrent (tr : List OmEvent) : Prop where
  reads :
    ∀ pre mid₁ mid₂ post c₁ c₂ c₃ st,
      tr = pre ++ mid₁ ++ mid₂ ++ post →
      Machine.Run om.machine Machine.anyStep s₀ pre c₁ →
      Machine.Run om.machine Machine.anyStep s₀ (pre ++ mid₁) c₂ →
      Machine.Run om.machine Machine.anyStep s₀
          (pre ++ mid₁ ++ mid₂) c₃ →
      .ext .restart ∉ mid₁ ++ mid₂ →
      c₁.state.maps.activeLocked = false →
      lastReport id pre = some st →
        ∃ o cut rest st',
          getOrder c₁.state.maps c₂.state.maps c₃.state.maps id =
              some o ∧
            mid₁ ++ mid₂ = cut ++ rest ∧
              lastReport id (pre ++ cut) = some st' ∧ o.Shows st'
  final :
    ∀ pre mid post st st',
      tr = pre ++ mid ++ post →
      Emits id st pre ∨ Returns om s₀ id st pre →
      st.terminal = true →
      Returns om s₀ id st' (pre ++ mid) ∨
          (mid ≠ [] ∧ Emits id st' (pre ++ mid)) →
        st'.terminal = true

end Current

/-
  No event tells of the order, and nobody takes it out of the
  pending orders or the active map.
-/
def Unannounced (id : OrderId) : OmCond :=
  fun _ s e =>
    match e with
    | .op _ (.chan (.eventSend ev)) _ _ => ev.orderId ≠ id
    | .op _ (.map (.pendingRetain id')) _ _ =>
        id' = id → ∀ x ∈ s.maps.pending, x.id ≠ id
    | .op _ (.map (.activeRemove id')) _ _ =>
        id' = id → ∀ x ∈ s.maps.active, x.id ≠ id
    | _ => True

------------------------------------------------------------
-- Where the Maps Have an Order
------------------------------------------------------------

/- Where the maps have an order that no event has told of. -/
def place (id : OrderId) (s : State) : Option Report :=
  if id ∈ s.maps.active.map Order.id then
    some ⟨.validating, none, none⟩
  else if id ∈ s.maps.pending.map Order.id then
    some ⟨.pending, none, none⟩
  else
    none

/- The place of an order depends on whether the maps name it. -/
theorem place_congr
    {id : OrderId} {s s' : State}
    (hActive :
      id ∈ s'.maps.active.map Order.id ↔
        id ∈ s.maps.active.map Order.id)
    (hPending :
      id ∈ s'.maps.pending.map Order.id ↔
        id ∈ s.maps.pending.map Order.id) :
    place id s' = place id s := by
  simp only [place, hActive, hPending]

namespace Book

/- The order a task has once it has told of it. -/
def told : Book → Option OrderId
  | running id true => some id
  | leaving id => some id
  | removed id => some id
  | left id => some id
  | _ => none

end Book

section Moves

variable {g g' : Book} {op : Op} {r : op.Resp} {id : OrderId}

/- A task tells of its order by an event. -/
theorem BookMove.told
    (hMove : BookMove g op r g')
    (hTold : g'.told = some id) :
    g.told = some id ∨
      ∃ ev, op = .chan (.eventSend ev) ∧ ev.orderId = id := by
  cases hMove with
  | quiet hQuiet => exact .inl hTold
  | @push id' max o pushed hId hStatus => cases pushed <;> cases hTold
  | @tell id' told ev u hId =>
      cases hTold
      exact .inr ⟨ev, rfl, hId⟩
  | @requeue id' o sent hId =>
      cases sent with
      | true => exact .inl hTold
      | false => exact .inl hTold
  | remove | leave | uncount | archive hId => exact .inl hTold
  | @retain id' dropped => cases dropped <;> cases hTold
  | @withdraw id' r => cases r <;> cases hTold
  | _ => cases hTold

end Moves

------------------------------------------------------------
-- Orders Not Told Of
------------------------------------------------------------

/-
  What the maps say of an order that no event has told of: the
  copies have the statuses they were put in with, and the order
  stands where the maps have it.
-/
structure InPlace
    (id : OrderId)
    (tr : List OmEvent)
    (s : State)
    (shs : List (Shadow Root Book)) : Prop where
  pending : ∀ x ∈ s.maps.pending, x.id = id → x.status = .pending
  active : ∀ x ∈ s.maps.active, x.id = id → x.status = .validating
  history : ∀ x ∈ s.maps.history, x.id ≠ id
  untold : id ∉ Protocol.held Book.told shs
  listed :
    id ∈ Protocol.held Book.listed shs →
      id ∈ s.maps.pending.map Order.id
  apart : Apart id s shs
  last : lastReport id tr = place id s

section Steps

variable {om : OrderManager} {id : OrderId} {tr : List OmEvent}
variable {s s' : State} {shs : List (Shadow Root Book)}
variable {tid : Nat} {root : Root} {g g' : Book}
variable {op : Op} {env : Outcome} {r : op.Resp}

/- An order that a submission has yet to send is not active. -/
theorem InPlace.not_active
    (hPlaced : InPlace id tr s shs)
    (hPhase : shs[tid]? = some ⟨root, some g⟩)
    (hBefore : g.before = some id) :
    id ∉ s.maps.active.map Order.id := by
  apply hPlaced.apart.apart
  apply List.mem_append_right
  exact Protocol.mem_held.mpr ⟨tid, root, g, hPhase, hBefore⟩

/- The task that moves has not told of the order. -/
theorem InPlace.not_told
    (hPlaced : InPlace id tr s shs)
    (hPhase : shs[tid]? = some ⟨root, some g⟩) :
    g.told ≠ some id := by
  intro hTold
  exact hPlaced.untold
    (Protocol.mem_held.mpr ⟨tid, root, g, hPhase, hTold⟩)

/- The push that accepts an order lets it stand as pending. -/
theorem InPlace.report_push
    {max : Nat} {o : Order} {pushed : Bool}
    (hPlaced : InPlace id tr s shs)
    (hPhase : shs[tid]? = some ⟨root, some g⟩)
    (hMove : BookMove g (.map (.pendingPush max o)) pushed g')
    (hExec :
      State.exec (.map (.pendingPush max o)) env s =
        some (pushed, s')) :
    reportAfter id (lastReport id tr)
        (.op tid (.map (.pendingPush max o)) env pushed) =
      place id s' := by
  rw [hPlaced.last]
  rcases exec_pendingPush hExec with ⟨_, rfl, rfl⟩ | ⟨_, rfl, rfl⟩
  · rfl
  · have hDrawn := (hMove.pushes (o := o) rfl).1
    by_cases hId : o.id = id
    · subst hId
      have hNot := hPlaced.not_active hPhase (by rw [hDrawn]; rfl)
      simp [reportAfter, place, hNot]
    · have hSame :
          place id
              { s with
                maps :=
                  { s.maps with pending := s.maps.pending ++ [o] } } =
            place id s := by
        apply place_congr
        · exact Iff.rfl
        · simp [Ne.symm hId]
      rw [hSame]
      simp [reportAfter, hId]

/- The send that queues an order finds it among the pending ones. -/
theorem InPlace.report_send
    {o : Order} {sent : Bool}
    (hPlaced : InPlace id tr s shs)
    (hPhase : shs[tid]? = some ⟨root, some g⟩)
    (hMove : BookMove g (.chan (.orderSend o)) sent g')
    (hExec :
      State.exec (.chan (.orderSend o)) env s = some (sent, s')) :
    reportAfter id (lastReport id tr)
        (.op tid (.chan (.orderSend o)) env sent) =
      place id s' := by
  rw [hPlaced.last]
  rcases exec_orderSend hExec with ⟨_, rfl, rfl⟩ | ⟨_, rfl, rfl⟩
  · rfl
  · by_cases hId : o.id = id
    · subst hId
      rcases hMove.enqueues (o := o) rfl with rfl | rfl
      · have hNot := hPlaced.not_active hPhase rfl
        have hListed :=
          hPlaced.listed
            (Protocol.mem_held.mpr ⟨tid, root, _, hPhase, rfl⟩)
        simp only [reportAfter, place, hNot, hListed, and_self,
          if_true, if_false]
      · exact absurd rfl (hPlaced.not_told hPhase)
    · simp [reportAfter, hId]
      rfl

/- What an order stands as after an operation. -/
theorem InPlace.report_op
    (hPlaced : InPlace id tr s shs)
    (hCond : Unannounced id tr s (.op tid op env r))
    (hPhase : shs[tid]? = some ⟨root, some g⟩)
    (hMove : BookMove g op r g')
    (hExec : State.exec op env s = some (r, s')) :
    reportAfter id (lastReport id tr) (.op tid op env r) =
      place id s' := by
  have hElsewhere :
      op.inserts = none → op.removes = none →
        (∀ max o, op ≠ .map (.pendingPush max o)) →
          (∀ id', op ≠ .map (.pendingRetain id')) →
            lastReport id tr = place id s' := by
    intro hInserts hRemoves hPush hRetain
    rw [hPlaced.last]
    refine (place_congr ?_ ?_).symm
    · rw [exec_active hInserts hRemoves hExec]
    · rw [exec_pending hPush hRetain hExec]
  cases op with
  | map op =>
      cases op with
      | activeInsert o =>
          have hActive := (exec_activeInsert hExec).2
          by_cases hId : o.id = id
          · have hIn : id ∈ s'.maps.active.map Order.id := by
              rw [hActive, mem_insertById]
              exact .inl hId.symm
            simp only [reportAfter, place, hId, hIn, if_true]
          · simp only [reportAfter, hId, if_false]
            rw [hPlaced.last]
            refine (place_congr ?_ ?_).symm
            · rw [hActive, mem_insertById]
              exact or_iff_right (Ne.symm hId)
            · rw [exec_pending (by simp) (by simp) hExec]
      | activeRemove id' =>
          have hActive := (exec_activeRemove hExec).2
          simp only [reportAfter]
          rw [hPlaced.last]
          refine (place_congr ?_ ?_).symm
          · rw [hActive]
            exact mem_removeById_of_absent hCond
          · rw [exec_pending (by simp) (by simp) hExec]
      | pendingPush max o =>
          exact hPlaced.report_push hPhase hMove hExec
      | pendingRetain id' =>
          simp only [reportAfter]
          rw [hPlaced.last]
          refine (place_congr ?_ ?_).symm
          · rw [exec_active rfl rfl hExec]
          · rw [(exec_pendingRetain hExec).2]
            exact mem_removeById_of_absent hCond
      | activeValues | activeLock | activeUnlock | historyInsert o =>
          exact hElsewhere rfl rfl (by simp) (by simp)
  | chan op =>
      cases op with
      | orderSend o => exact hPlaced.report_send hPhase hMove hExec
      | eventSend ev =>
          have hOther : ev.orderId ≠ id := hCond
          simp only [reportAfter, hOther, if_false]
          exact hElsewhere rfl rfl (by simp) (by simp)
  | engine op | db op | metric op | chain op | sys op =>
      exact hElsewhere rfl rfl (by simp) (by simp)

theorem InPlace.afterOp
    (hPlaced : InPlace id tr s shs)
    (hOwned : OwnedBy Book.station s shs)
    (hCond : Unannounced id tr s (.op tid op env r))
    (hPhase : shs[tid]? = some ⟨root, some g⟩)
    (hMove : BookMove g op r g')
    (hExec : State.exec op env s = some (r, s')) :
    InPlace id (tr ++ [.op tid op env r]) s'
      (Pumpy.afterOp bookkeeping shs tid root g' op) := by
  constructor
  · intro x hMem hId
    rcases mem_pending_op hExec hMem with hOld | hPushes
    · exact hPlaced.pending x hOld hId
    · exact (hMove.pushes hPushes).2.2
  · intro x hMem hId
    rcases exec_mem_active hExec hMem with hInserts | ⟨hOld, _⟩
    · exact (hMove.inserts hInserts).2.2
    · exact hPlaced.active x hOld hId
  · intro x hMem hId
    by_cases hArchive : ∃ o, op = .map (.historyInsert o)
    · rcases hArchive with ⟨o, rfl⟩
      cases hMove with
      | quiet hQuiet => cases hQuiet
      | @archive id' _ _ hOrder =>
          have hHistory := exec_historyInsert hExec
          rw [hHistory] at hMem
          rcases List.mem_cons.mp hMem with rfl | hOld
          · refine hPlaced.not_told hPhase ?_
            rw [← hId, hOrder]
            rfl
          · exact hPlaced.history x (List.mem_filter.mp hOld).1 hId
    · rw [exec_history (fun o hEq => hArchive ⟨o, hEq⟩) hExec] at hMem
      exact hPlaced.history x hMem hId
  · intro hHeld
    rcases mem_held_afterOp (fun _ _ => rfl) hHeld with
      hSelf | ⟨tid', root', g₁, _, hAt, hTold⟩
    · rcases hMove.told hSelf with hTold | ⟨ev, rfl, hId⟩
      · exact hPlaced.not_told hPhase hTold
      · exact hCond hId
    · exact hPlaced.not_told hAt hTold
  · intro hHeld
    have hKeeps :
        id ∈ s.maps.pending.map Order.id →
          id ∈ s'.maps.pending.map Order.id := by
      refine keeps_pending_op hExec ?_
      rintro rfl
      exact hCond rfl
    rcases mem_held_afterOp (fun _ _ => rfl) hHeld with
      hSelf | ⟨tid', root', g₁, _, hAt, hListed⟩
    · rcases hMove.listed hSelf with hListed | ⟨o, hPushes, hId⟩
      · exact hKeeps (hPlaced.listed
          (Protocol.mem_held.mpr ⟨tid, root, g, hPhase, hListed⟩))
      · rw [← hId]
        exact List.mem_map_of_mem (exec_pushes hExec hPushes)
    · exact hKeeps (hPlaced.listed
        (Protocol.mem_held.mpr ⟨tid', root', g₁, hAt, hListed⟩))
  · refine hPlaced.apart.afterOp hOwned hPhase hMove hExec ?_
    rintro rfl
    exact absurd rfl (hPlaced.not_told hPhase)
  · rw [lastReport_snoc]
    exact hPlaced.report_op hCond hPhase hMove hExec

theorem InPlace.afterExt
    {e : Ext}
    (hPlaced : InPlace id tr s shs)
    (hExt : Ext.exec e s = some s') :
    InPlace id (tr ++ [.ext e]) s'
      (Pumpy.afterExt om bookkeeping shs e) := by
  by_cases hRestart : e = .restart
  · subst hRestart
    have hApart :
        Apart id s' (Pumpy.afterExt om bookkeeping shs .restart) :=
      hPlaced.apart.afterExt hExt
    cases hExt
    constructor
    · intro x hMem
      cases hMem
    · intro x hMem
      cases hMem
    · intro x hMem
      cases hMem
    · rw [held_afterExt_restart]
      exact List.not_mem_nil
    · rw [held_afterExt_restart]
      intro hMem
      cases hMem
    · exact hApart
    · rw [lastReport_snoc]
      rfl
  · have hMaps := active_ext hRestart hExt
    have hHeld :
        ∀ f : Book → Option OrderId,
          (∀ root, f (bookkeeping.start root) = none) →
            Protocol.held f (Pumpy.afterExt om bookkeeping shs e) =
              Protocol.held f shs :=
      fun f hStart => held_afterExt hRestart fun root _ => hStart root
    constructor
    · rw [hMaps]
      exact hPlaced.pending
    · rw [hMaps]
      exact hPlaced.active
    · rw [hMaps]
      exact hPlaced.history
    · rw [hHeld Book.told fun root => by cases root <;> rfl]
      exact hPlaced.untold
    · rw [hHeld Book.listed fun root => by cases root <;> rfl, hMaps]
      exact hPlaced.listed
    · exact hPlaced.apart.afterExt hExt
    · have hSame :
          reportAfter id (lastReport id tr) (.ext e) =
            lastReport id tr := by
        cases e <;> first | rfl | exact absurd rfl hRestart
      rw [lastReport_snoc, hSame, hPlaced.last]
      simp only [place, hMaps]

end Steps

------------------------------------------------------------
-- Whole Runs
------------------------------------------------------------

section Runs

variable {om : OrderManager} {id : OrderId} {db : Database}
variable {chain : Chain} {seenIds : List OrderId}
variable {tr : List OmEvent} {c : OmConfig}

theorem inPlace_of_bookRun
    {s : State} {shs : List (Shadow Root Book)}
    (hRun :
      BookRun om (Unannounced id) (State.boot db chain seenIds) tr s
        shs) :
    InPlace id tr s shs := by
  induction hRun with
  | nil =>
      constructor
      · intro x hMem
        cases hMem
      · intro x hMem
        cases hMem
      · intro x hMem
        cases hMem
      · exact List.not_mem_nil
      · intro hMem
        cases hMem
      · constructor
        · intro _ hMem
          cases hMem
        · intro hMem
          cases hMem
      · rfl
  | snoc hRun hCond hStep ih =>
      cases hStep with
      | op hPhase hMove hExec =>
          exact ih.afterOp (stationed_of_run hRun) hCond hPhase hMove
            hExec
      | ext hExt => exact ih.afterExt hExt

/- While every step meets the condition, the maps follow the order. -/
theorem inPlace_of_run
    (hRun :
      Machine.Run om.machine (Unannounced id)
        (State.boot db chain seenIds) tr c) :
    ∃ shs, InPlace id tr c.state shs := by
  rcases Protocol.trackedRun_of_run om.follows_bookkeeping hRun with
    ⟨shs, hTracked⟩
  exact ⟨shs, inPlace_of_bookRun hTracked.shadowRun⟩

/- Until a restart, a pending order stays where it is. -/
theorem pending_since
    {pre mid : List OmEvent} {c₁ : OmConfig}
    (hRun :
      Machine.Run om.machine (Unannounced id)
        (State.boot db chain seenIds) (pre ++ mid) c)
    (hPre :
      Machine.Run om.machine (Unannounced id)
        (State.boot db chain seenIds) pre c₁)
    (hOn : .ext .restart ∉ mid)
    (hMem : id ∈ c₁.state.maps.pending.map Order.id) :
    id ∈ c.state.maps.pending.map Order.id := by
  induction mid using List.reverseRecOn generalizing c with
  | nil =>
      rw [List.append_nil] at hRun
      rw [hRun.unique hPre]
      exact hMem
  | append_singleton mid e ih =>
      rw [← List.append_assoc] at hRun
      rcases hRun.snoc_inv with ⟨c₂, hBefore, hCond, hStep⟩
      have hStill := ih hBefore fun hIn =>
        hOn (List.mem_append_left _ hIn)
      cases hStep with
      | op hTask hExec =>
          refine keeps_pending_op hExec ?_ hStill
          rintro rfl
          exact hCond rfl
      | @ext s s' tasks e hExt =>
          have hNe : e ≠ .restart := by
            rintro rfl
            exact hOn (List.mem_append_right _ (List.mem_singleton_self _))
          have hMaps : s'.maps = s.maps := active_ext hNe hExt
          show id ∈ s'.maps.pending.map Order.id
          rw [hMaps]
          exact hStill

/- What a read finds shows how the order stood when it began. -/
theorem shows_of_read
    {pre mid : List OmEvent} {c₁ c₂ : OmConfig} {st : Report}
    (atHistory : OrderMaps)
    (hPre :
      Machine.Run om.machine (Unannounced id)
        (State.boot db chain seenIds) pre c₁)
    (hLater :
      Machine.Run om.machine (Unannounced id)
        (State.boot db chain seenIds) (pre ++ mid) c₂)
    (hOn : .ext .restart ∉ mid)
    (hReport : lastReport id pre = some st) :
    ∃ o,
      getOrder c₁.state.maps c₂.state.maps atHistory id = some o ∧
        o.Shows st := by
  rcases inPlace_of_run hPre with ⟨shs₁, hFirst⟩
  rcases inPlace_of_run hLater with ⟨shs₂, hThen⟩
  rw [hFirst.last] at hReport
  unfold place at hReport
  split at hReport
  · rename_i hActive
    cases hReport
    rcases findById_of_mem hActive with ⟨o, hFound, hIn, hId⟩
    refine ⟨o, ?_, hFirst.active o hIn hId, fun hEnded => ?_⟩
    · rw [getOrder, hFound]
      rfl
    · cases hEnded
  · rename_i hNot
    split at hReport
    · rename_i hPending
      cases hReport
      have hStill := pending_since hLater hPre hOn hPending
      rcases findById_of_mem hStill with ⟨o, hFound, hIn, hId⟩
      refine ⟨o, ?_, hThen.pending o hIn hId, fun hEnded => ?_⟩
      · rw [getOrder, findById_of_notMem hNot, hFound]
        rfl
      · cases hEnded
    · cases hReport

/- No read returns a terminal status. -/
theorem not_terminal_of_returns
    {st : OrderStatus}
    (hRun :
      Machine.Run om.machine (Unannounced id)
        (State.boot db chain seenIds) tr c)
    (hReturns : Returns om (State.boot db chain seenIds) id st tr) :
    st.terminal = false := by
  rcases hReturns with ⟨c', o, hAgain, _, hRead, rfl⟩
  rw [← hRun.unique hAgain] at hRead
  rcases inPlace_of_run hRun with ⟨shs, hPlaced⟩
  unfold getOrder at hRead
  rcases Option.or_eq_some_iff.mp hRead with hActive | ⟨_, hOther⟩
  · have hIn := List.mem_of_find?_eq_some hActive
    have hId : o.id = id := by simpa using List.find?_some hActive
    rw [hPlaced.active o hIn hId]
    rfl
  · rcases Option.or_eq_some_iff.mp hOther with hPending | ⟨_, hHistory⟩
    · have hIn := List.mem_of_find?_eq_some hPending
      have hId : o.id = id := by simpa using List.find?_some hPending
      rw [hPlaced.pending o hIn hId]
      rfl
    · have hIn := List.mem_of_find?_eq_some hHistory
      have hId : o.id = id := by simpa using List.find?_some hHistory
      exact absurd hId (hPlaced.history o hIn)

/- No event tells of the order. -/
theorem not_emits
    {st : OrderStatus}
    (hRun :
      Machine.Run om.machine (Unannounced id)
        (State.boot db chain seenIds) tr c) :
    ¬Emits id st tr := by
  rintro ⟨pre, tid, ev, env, rfl, hId, _⟩
  rcases hRun.snoc_inv with ⟨c₀, _, hCond, _⟩
  exact hCond hId

/-
  In every run in which no event tells of the order, and nobody
  takes it out of the pending orders or the active map, its
  reads are current throughout, whatever happens to the others.
-/
theorem statusCurrent_of_unannounced
    (om : OrderManager)
    (db : Database)
    (chain : Chain)
    (seenIds : List OrderId)
    (id : OrderId)
    {tr : List OmEvent}
    {c : OmConfig}
    (hRun :
      Machine.Run om.machine (Unannounced id)
        (State.boot db chain seenIds) tr c) :
    StatusCurrent om (State.boot db chain seenIds) id tr := by
  constructor
  · intro pre mid₁ mid₂ post c₁ c₂ c₃ st hSplit hPre hMid hEnd hOn hFree
      hReport
    have hCut₂ : tr = (pre ++ mid₁) ++ (mid₂ ++ post) := by
      rw [hSplit, List.append_assoc]
    have hCut₁ : tr = pre ++ (mid₁ ++ (mid₂ ++ post)) := by
      rw [hCut₂, List.append_assoc]
    rcases hRun.earlier hCut₁ with ⟨c₁', hPre'⟩
    rcases hRun.earlier hCut₂ with ⟨c₂', hMid'⟩
    have hOn₁ : .ext .restart ∉ mid₁ := fun hIn =>
      hOn (List.mem_append_left _ hIn)
    rcases shows_of_read c₃.state.maps hPre' hMid' hOn₁ hReport with
      ⟨o, hRead, hShows⟩
    rw [hPre.unique hPre', hMid.unique hMid']
    exact ⟨o, [], mid₁ ++ mid₂, st, hRead, rfl,
      by rw [List.append_nil, hReport], hShows⟩
  · intro pre mid post st st' hSplit hBefore hTerminal hAfter
    rw [List.append_assoc] at hSplit
    rcases hRun.earlier hSplit with ⟨c₁, hPre⟩
    rcases hBefore with hEmits | hReturns
    · exact absurd hEmits (not_emits hPre)
    · rw [not_terminal_of_returns hPre hReturns] at hTerminal
      cases hTerminal

end Runs

------------------------------------------------------------
-- An Order that Was Executed
------------------------------------------------------------

/- Steps that are not about events or taking orders out. -/
def tellsNothing : OmEvent → Bool
  | .op _ (.chan (.eventSend _)) _ _ => false
  | .op _ (.map (.pendingRetain _)) _ _ => false
  | .op _ (.map (.activeRemove _)) _ _ => false
  | _ => true

theorem unannounced_of_tellsNothing
    {id : OrderId} {tr : List OmEvent} {s : State} {e : OmEvent}
    (hNothing : tellsNothing e = true) :
    Unannounced id tr s e := by
  cases e with
  | ext e => trivial
  | op tid op env r =>
      cases op with
      | map op => cases op <;> trivial
      | chan op => cases op <;> trivial
      | _ => trivial

/- The sample order is executed and filed. -/
def executedSchedule : List (Machine.Choice Outcome Ext) :=
  [.ext (.submitOrder (sampleOrder "" 1000))] ++
    acceptSteps 0 "a" [] ++
    [.ext (.recv (sampleOrder "a" 1000))] ++
    gateSteps 1
      [{ sampleOrder "a" 1000 with status := .validating }] ++
    steps 1
      [.time 0, .plain, .unit (.ok ()), .deadline false,
        .blockhash (.ok 7), .deadline false,
        .submit true (.ok "signature"), .deadline false,
        .time 1, .time 2, .plain, .stmt .done, .stmt .done,
        .plain, .plain, .plain, .plain, .plain, .plain]

/- A read of an order that was executed and filed returns "pending". -/
theorem pending_after_executed :
    ∃ (tr : List OmEvent) (c : OmConfig),
      Machine.Run sampleManager.machine Machine.anyStep
          (sampleState .enabled) tr c ∧
        lastReport "a" tr = some ⟨.executed, some "signature", none⟩ ∧
          (getOrder c.state.maps c.state.maps c.state.maps "a").map
              Order.status = some .pending ∧
            ¬StatusCurrent sampleManager (sampleState .enabled) "a"
              tr := by
  have hPlay :=
    Machine.exists_run_of_play sampleManager.machine
      (sampleState .enabled) executedSchedule
      (fun tr c =>
        decide
          (lastReport "a" tr = some ⟨.executed, some "signature", none⟩ ∧
            (getOrder c.state.maps c.state.maps c.state.maps "a").map
                Order.status = some .pending ∧
              c.state.maps.activeLocked = false))
      (by decide +kernel)
  rcases hPlay with ⟨tr, c, hRun, hShown⟩
  rcases of_decide_eq_true hShown with ⟨hReport, hPending, hFree⟩
  refine ⟨tr, c, hRun, hReport, hPending, ?_⟩
  intro hCurrent
  have hRead :=
    hCurrent.reads tr [] [] [] c c c _ (by simp) hRun
      (by simpa using hRun) (by simpa using hRun)
      (List.not_mem_nil) hFree hReport
  rcases hRead with ⟨o, cut, rest, st, hGet, hCut, hThen, hShows⟩
  rcases List.append_eq_nil_iff.mp hCut.symm with ⟨rfl, _⟩
  rw [List.append_nil, hReport] at hThen
  cases hThen
  rw [hGet] at hPending
  have hStatus : o.status = .pending := Option.some.inj hPending
  rw [hShows.1] at hStatus
  cases hStatus

/- An order that a pass is validating is read as such. -/
theorem exists_statusCurrent :
    ∃ (tr : List OmEvent) (c : OmConfig),
      lastReport "a" tr = some ⟨.validating, none, none⟩ ∧
        (getOrder c.state.maps c.state.maps c.state.maps "a").map
            Order.status = some .validating ∧
          StatusCurrent sampleManager (sampleState .enabled) "a"
            tr := by
  have hPlay :=
    Machine.exists_run_of_play sampleManager.machine
      (sampleState .enabled)
      ([.ext (.submitOrder (sampleOrder "" 1000))] ++
        acceptSteps 0 "a" [] ++
        [.ext (.recv (sampleOrder "a" 1000))] ++
        gateSteps 1
          [{ sampleOrder "a" 1000 with status := .validating }])
      (fun tr c =>
        tr.all tellsNothing &&
          decide
            (lastReport "a" tr = some ⟨.validating, none, none⟩ ∧
              (getOrder c.state.maps c.state.maps c.state.maps "a").map
                  Order.status = some .validating))
      (by decide +kernel)
  rcases hPlay with ⟨tr, c, hRun, hShown⟩
  rw [Bool.and_eq_true] at hShown
  rcases of_decide_eq_true hShown.2 with ⟨hReport, hRead⟩
  refine ⟨tr, c, hReport, hRead,
    statusCurrent_of_unannounced sampleManager _ _ _ "a"
      (hRun.meets ?_)⟩
  intro pre post e c' hSplit _
  apply unannounced_of_tellsNothing
  refine List.all_eq_true.mp hShown.1 e ?_
  rw [hSplit]
  exact List.mem_append_right _ List.mem_cons_self

end Pumpy
