import Mathlib.Data.List.Perm.Subperm
import Pumpy.Engine.Gauges

/-
  The gauges over whole runs: while every order is counted in
  and off once, a gauge differs from what it is to count by what
  tasks under way still owe.

  The key definition is `Tally`; the main result is
  `gaugesMatch_of_countsOnce`.
-/

------------------------------------------------------------
-- The Tally
------------------------------------------------------------

namespace Pumpy

open Interleaving

/-
  What the records say of the gauges while every order is
  counted once.  The pending orders still wait, unless they were
  received; a cancelled order is pending no more, and its
  submission has counted it.  The gauges differ from what they
  are to count by what tasks owe.
-/
structure Tally
    (tr : List OmEvent)
    (s : State)
    (shs : List (Shadow Root Book)) : Prop where
  distinct : (s.maps.active.map Order.id).Nodup
  apart : ∀ id, Apart id s shs
  entered :
    ∀ id ∈ Protocol.held Book.fresh shs,
      id ∈ s.maps.active.map Order.id
  stays : ∀ id, id ∉ Protocol.held Book.back shs
  waits :
    ∀ id ∈ s.maps.pending.map Order.id,
      id ∈ holdersBy Book.listed s shs ∨ id ∈ receivedIds tr
  seen : ∀ id ∈ cancelledIds tr, id ∈ s.seenIds
  dropped : ∀ id ∈ cancelledIds tr, id ∉ s.maps.pending.map Order.id
  awaited :
    ∀ id ∈ cancelledIds tr, id ∉ Protocol.held Book.awaiting shs
  pending :
    s.metrics.gauges .pendingOrders =
      outside (cancelledIds tr) (holdersBy Book.counting s shs) +
        (Protocol.held Book.owing shs).length
  active :
    s.metrics.gauges .activeOrders +
        (Protocol.held Book.fresh shs).length =
      s.maps.active.length + (Protocol.held Book.gone shs).length

theorem cancelledIds_snoc
    (tr : List OmEvent)
    (e : OmEvent) :
    cancelledIds (tr ++ [e]) =
      cancelledIds tr ++ (cancelledBy e).toList := by
  cases hBy : cancelledBy e <;> simp [cancelledIds, hBy]

theorem mem_receivedIds_append
    {tr : List OmEvent} {id : OrderId}
    (e : OmEvent)
    (hMem : id ∈ receivedIds tr) :
    id ∈ receivedIds (tr ++ [e]) := by
  rw [receivedIds, List.filterMap_append]
  exact List.mem_append_left _ hMem

namespace Book

theorem station_of_counting
    {g : Book} {id : OrderId}
    (hCounting : g.counting = some id) :
    g.station = some id := by
  cases g <;> first | exact hCounting | cases hCounting

theorem station_of_fresh
    {g : Book} {id : OrderId}
    (hFresh : g.fresh = some id) :
    g.station = some id := by
  cases g <;> first | exact hFresh | cases hFresh

theorem uncounted_of_fresh
    {g : Book} {id : OrderId}
    (hFresh : g.fresh = some id) :
    g.uncounted = some id := by
  cases g <;> first | exact hFresh | cases hFresh

theorem listed_cases
    {g : Book} {id : OrderId}
    (hListed : g.listed = some id) :
    g.uncounted = some id ∨ g.counting = some id := by
  cases g <;> first | exact .inl hListed | exact .inr hListed

theorem awaiting_cases
    {g : Book} {id : OrderId}
    (hAwaiting : g.awaiting = some id) :
    g = .drawn id ∨ g.uncounted = some id := by
  cases g <;> cases hAwaiting
  · exact .inl rfl
  · exact .inr rfl

end Book

section Moves

variable {g g' : Book} {op : Op} {r : op.Resp} {id : OrderId}

/- Who takes entries out of the active map. -/
theorem BookMove.removes
    (hMove : BookMove g op r g')
    (hRemoves : op.removes = some id) :
    g = .running id true ∨ g = .leaving id ∨ g = .seeking id := by
  cases hMove with
  | quiet hQuiet =>
      rw [Op.removes_of_quiet hQuiet] at hRemoves
      cases hRemoves
  | remove =>
      cases hRemoves
      exact .inl rfl
  | leave =>
      cases hRemoves
      exact .inr (.inl rfl)
  | withdraw =>
      cases hRemoves
      exact .inr (.inr rfl)
  | _ => cases hRemoves

/- An entry that is still to be counted was there, or is put in. -/
theorem BookMove.fresh
    (hMove : BookMove g op r g')
    (hFresh : g'.fresh = some id) :
    (g.fresh = some id ∧ op.removes = none) ∨
      ∃ o, op = .map (.activeInsert o) ∧ o.id = id := by
  cases hMove with
  | quiet hQuiet => exact .inl ⟨hFresh, Op.removes_of_quiet hQuiet⟩
  | @insert id' o u hId hStatus =>
      cases hFresh
      exact .inr ⟨o, rfl, hId⟩
  | @push id' max o pushed hId hStatus => cases pushed <;> cases hFresh
  | @requeue id' o sent hId => cases sent <;> cases hFresh
  | @retain id' dropped => cases dropped <;> cases hFresh
  | @withdraw id' r => cases r <;> cases hFresh
  | _ => cases hFresh

/- A pass puts its order back by a send. -/
theorem BookMove.back
    (hMove : BookMove g op r g')
    (hBack : g'.back = some id) :
    g.back = some id ∨
      (g.ofPass = some true ∧ op.enqueues r ≠ none) := by
  cases hMove with
  | quiet hQuiet => exact .inl hBack
  | @requeue id' o sent hId =>
      cases sent with
      | true => exact .inr ⟨rfl, by simp [Op.enqueues]⟩
      | false => cases hBack
  | @push id' max o pushed hId hStatus => cases pushed <;> cases hBack
  | @retain id' dropped => cases dropped <;> cases hBack
  | @withdraw id' r => cases r <;> cases hBack
  | _ => cases hBack

/- An order on a submission's list stays there until it is sent. -/
theorem BookMove.listed_next
    (hMove : BookMove g op r g')
    (hListed : g.listed = some id) :
    g'.listed = some id ∨
      ∃ o, op.sends = some o ∧ o.id = id ∧
        g.ofPass = some false := by
  cases hMove with
  | quiet hQuiet => exact .inl hListed
  | count => exact .inl hListed
  | @send id' o sent hId =>
      cases hListed
      exact .inr ⟨o, rfl, hId, rfl⟩
  | _ => cases hListed

/- An order that is still to be counted was so before, or is drawn. -/
theorem BookMove.awaiting
    (hMove : BookMove g op r g')
    (hAwaiting : g'.awaiting = some id) :
    g.awaiting = some id ∨ op.drawn r = some id := by
  cases hMove with
  | quiet hQuiet => exact .inl hAwaiting
  | draw => exact .inr hAwaiting
  | @push id' max o pushed hId hStatus =>
      cases pushed with
      | true => exact .inl hAwaiting
      | false => cases hAwaiting
  | @requeue id' o sent hId => cases sent <;> cases hAwaiting
  | @retain id' dropped => cases dropped <;> cases hAwaiting
  | @withdraw id' r => cases r <;> cases hAwaiting
  | _ => cases hAwaiting

/- A cancel drops what it finds among the pending orders. -/
theorem BookMove.cancels
    {tid : Nat} {env : Outcome} {s s' : State}
    (hMove : BookMove g op r g')
    (hExec : State.exec op env s = some (r, s'))
    (hBy : cancelledBy (.op tid op env r) = some id) :
    op = .map (.pendingRetain id) ∧ g = .cancelling id ∧
      g' = .dropped id ∧ id ∈ s.maps.pending.map Order.id ∧
        s'.maps.pending = removeById id s.maps.pending := by
  cases hMove with
  | @quiet _ op _ hQuiet =>
      cases op with
      | map op => cases op <;> first | cases hBy | cases hQuiet
      | _ => cases hBy
  | @retain id' dropped =>
      rcases exec_pendingRetain hExec with ⟨hDropped, rfl⟩
      cases dropped with
      | false => cases hBy
      | true =>
          cases hBy
          refine ⟨rfl, rfl, rfl, ?_, rfl⟩
          have hFound := List.any_eq_true.mp hDropped.symm
          rcases hFound with ⟨x, hIn, hId⟩
          exact List.mem_map.mpr ⟨x, hIn, of_decide_eq_true hId⟩
  | _ => cases hBy

end Moves

/- An entry stays in the active map, unless it is taken out. -/
theorem keeps_active_op
    {op : Op} {env : Outcome} {s s' : State} {r : op.Resp}
    {id : OrderId}
    (hExec : State.exec op env s = some (r, s'))
    (hRemoves : op.removes ≠ some id)
    (hMem : id ∈ s.maps.active.map Order.id) :
    id ∈ s'.maps.active.map Order.id := by
  have hElse :
      op.inserts = none → op.removes = none →
        id ∈ s'.maps.active.map Order.id := by
    intro hInserts hNever
    rw [exec_active hInserts hNever hExec]
    exact hMem
  cases op with
  | map op =>
      cases op with
      | activeInsert o =>
          rw [(exec_activeInsert hExec).2, mem_insertById]
          exact .inr hMem
      | activeRemove id' =>
          rw [(exec_activeRemove hExec).2, mem_removeById]
          refine ⟨hMem, ?_⟩
          rintro rfl
          exact hRemoves rfl
      | activeValues | activeLock | activeUnlock | pendingPush max o
      | pendingRetain id' | historyInsert o =>
          exact hElse rfl rfl
  | engine op | db op | chan op | metric op | chain op | sys op =>
      exact hElse rfl rfl

------------------------------------------------------------
-- Operations
------------------------------------------------------------

section Steps

variable {om : OrderManager} {tr : List OmEvent}
variable {s s' : State} {shs : List (Shadow Root Book)}
variable {tid : Nat} {root : Root} {g g' : Book}
variable {op : Op} {env : Outcome} {r : op.Resp} {id : OrderId}

/- A submission's order gets into the channel, a pass's does not. -/
theorem enqueues_of_countsOnce
    {o : Order}
    (hBooks : Books om tr s shs)
    (hCond : CountsOnce om tr s (.op tid op env r))
    (hPhase : shs[tid]? = some ⟨root, some g⟩)
    (hMove : BookMove g op r g')
    (hExec : State.exec op env s = some (r, s'))
    (hSends : op.sends = some o) :
    op.enqueues r = if g.ofPass = some true then none else some o := by
  have hPass := hBooks.passes tid root g
  cases hMove with
  | @quiet _ op _ hQuiet =>
      cases op with
      | chan op => cases hQuiet
      | _ => cases hSends
  | @send id' o' sent hId =>
      cases hSends
      have hAlive : s.chan.receiverAlive = true := by
        have hOpen : s.chan.receiverAlive = !passAt om tr tid := hCond
        rw [hOpen, hPass false hPhase rfl]
        rfl
      rcases exec_orderSend hExec with ⟨hDead, _⟩ | ⟨_, rfl, _⟩
      · rw [hAlive] at hDead
        cases hDead
      · rfl
  | @requeue id' o' sent hId =>
      cases hSends
      have hDead : s.chan.receiverAlive = false := by
        have hClosed : s.chan.receiverAlive = !passAt om tr tid := hCond
        rw [hClosed, hPass true hPhase rfl]
        rfl
      rcases exec_orderSend hExec with ⟨_, rfl, _⟩ | ⟨hAlive, _⟩
      · rfl
      · rw [hDead] at hAlive
        cases hAlive
  | _ => cases hSends

/- No pass puts its order back. -/
theorem enqueues_of_pass
    (hBooks : Books om tr s shs)
    (hCond : CountsOnce om tr s (.op tid op env r))
    (hPhase : shs[tid]? = some ⟨root, some g⟩)
    (hMove : BookMove g op r g')
    (hExec : State.exec op env s = some (r, s'))
    (hPass : g.ofPass = some true) :
    op.enqueues r = none := by
  cases hSends : op.sends with
  | none => exact Op.enqueues_of_sends hSends
  | some o =>
      rw [enqueues_of_countsOnce hBooks hCond hPhase hMove hExec hSends,
        if_pos hPass]

/- An order that a cancel finds among the pending ones waits. -/
theorem Tally.waiting_of_cancelled
    (hTally : Tally tr s shs)
    (hBooks : Books om tr s shs)
    (hCond : CountsOnce om tr s (.op tid op env r))
    (hMove : BookMove g op r g')
    (hExec : State.exec op env s = some (r, s'))
    (hBy : cancelledBy (.op tid op env r) = some id) :
    id ∈ holdersBy Book.counting s shs ∧
      id ∉ cancelledIds tr ∧
        ∀ tid', (tid', id) ∉ uncounted tr := by
  rcases hMove.cancels hExec hBy with ⟨rfl, _, _, hPending, _⟩
  rcases hCond hPending with ⟨hNotReceived, hCounted⟩
  refine ⟨?_, fun hWas => hTally.dropped id hWas hPending, hCounted⟩
  rcases hTally.waits id hPending with hListed | hReceived
  · rcases List.mem_append.mp hListed with hQueued | hHeld
    · exact List.mem_append_left _ hQueued
    · rcases Protocol.mem_held.mp hHeld with
        ⟨tid', root', g₁, hAt, hHolds⟩
      rcases Book.listed_cases hHolds with hOpen | hCounting
      · exact absurd (hBooks.uncounted tid' root' g₁ id hAt hOpen)
          (hCounted tid')
      · exact List.mem_append_right _
          (Protocol.mem_held.mpr ⟨tid', root', g₁, hAt, hCounting⟩)
  · exact absurd hReceived hNotReceived

/- Entries that are still to be counted stay. -/
theorem Tally.entered_op
    (hTally : Tally tr s shs)
    (hBooks : Books om tr s shs)
    (hCond : CountsOnce om tr s (.op tid op env r))
    (hPhase : shs[tid]? = some ⟨root, some g⟩)
    (hMove : BookMove g op r g')
    (hExec : State.exec op env s = some (r, s'))
    (hMem :
      id ∈ Protocol.held Book.fresh
        (afterOp bookkeeping shs tid root g' op)) :
    id ∈ s'.maps.active.map Order.id := by
  have hEntered :
      ∀ (tid' : Nat) root' g₁,
        shs[tid']? = some ⟨root', some g₁⟩ → g₁.fresh = some id →
          id ∈ s.maps.active.map Order.id := by
    intro tid' root' g₁ hAt hFresh
    exact hTally.entered id
      (Protocol.mem_held.mpr ⟨tid', root', g₁, hAt, hFresh⟩)
  rcases mem_held_afterOp (fun _ _ => rfl) hMem with
    hSelf | ⟨tid', root', g₁, hNe, hAt, hFresh⟩
  · rcases hMove.fresh hSelf with ⟨hFresh, hQuiet⟩ | ⟨o, rfl, hId⟩
    · refine keeps_active_op hExec ?_ (hEntered tid root g hPhase hFresh)
      rw [hQuiet]
      exact (nomatch ·)
    · rw [(exec_activeInsert hExec).2, mem_insertById]
      exact .inl hId.symm
  · have hIn := hEntered tid' root' g₁ hAt hFresh
    refine keeps_active_op hExec (fun hRemoves => ?_) hIn
    rcases hMove.removes hRemoves with rfl | rfl | rfl
    · exact hNe (hBooks.owned.unique hAt hPhase
        (Book.station_of_fresh hFresh) rfl)
    · exact hTally.stays id
        (Protocol.mem_held.mpr ⟨tid, root, _, hPhase, rfl⟩)
    · -- a cancel takes no entry that its pass has still to count
      have hNotPass := hBooks.passes tid root _ false hPhase rfl
      have hOpen := hBooks.uncounted tid' root' g₁ id hAt
        (Book.uncounted_of_fresh hFresh)
      cases hMove with
      | quiet hQuiet =>
          rw [Op.removes_of_quiet hQuiet] at hRemoves
          cases hRemoves
      | withdraw =>
          simp only [CountsOnce, hNotPass] at hCond
          exact hCond hIn tid' hOpen

/- Pending orders still wait, unless they were received. -/
theorem Tally.waits_op
    (hTally : Tally tr s shs)
    (hBooks : Books om tr s shs)
    (hCond : CountsOnce om tr s (.op tid op env r))
    (hPhase : shs[tid]? = some ⟨root, some g⟩)
    (hMove : BookMove g op r g')
    (hExec : State.exec op env s = some (r, s'))
    (hMem : id ∈ s'.maps.pending.map Order.id) :
    id ∈ holdersBy Book.listed s'
        (afterOp bookkeeping shs tid root g' op) ∨
      id ∈ receivedIds (tr ++ [.op tid op env r]) := by
  have hQueue := exec_queue hExec
  rcases List.mem_map.mp hMem with ⟨x, hX, rfl⟩
  rcases mem_pending_op hExec hX with hOld | hPushes
  · rcases hTally.waits x.id (List.mem_map_of_mem hOld) with
      hListed | hReceived
    · left
      rcases List.mem_append.mp hListed with hQueued | hHeld
      · apply List.mem_append_left
        rw [hQueue, List.map_append]
        exact List.mem_append_left _ hQueued
      · rcases Protocol.mem_held.mp hHeld with
          ⟨tid', root', g₁, hAt, hHolds⟩
        by_cases hTid : tid' = tid
        · subst hTid
          rw [hPhase] at hAt
          cases hAt
          rcases hMove.listed_next hHolds with
            hStill | ⟨o, hSends, hId, hOf⟩
          · exact List.mem_append_right _ (mem_held_self hPhase hStill)
          · have hIn :=
              enqueues_of_countsOnce hBooks hCond hPhase hMove hExec
                hSends
            rw [hOf, if_neg (by simp)] at hIn
            apply List.mem_append_left
            rw [hQueue, hIn, List.map_append, ← hId]
            exact List.mem_append_right _ List.mem_cons_self
        · exact List.mem_append_right _
            (Protocol.mem_held.mpr
              ⟨tid', root', g₁, afterOp_other hTid hAt, hHolds⟩)
    · exact .inr (mem_receivedIds_append _ hReceived)
  · left
    rcases hMove.pushes hPushes with ⟨_, rfl, _⟩
    exact List.mem_append_right _ (mem_held_self hPhase rfl)

/- A cancelled order is known, dropped, and was counted. -/
theorem Tally.cancelled_op
    (hTally : Tally tr s shs)
    (hBooks : Books om tr s shs)
    (hCond : CountsOnce om tr s (.op tid op env r))
    (hPhase : shs[tid]? = some ⟨root, some g⟩)
    (hMove : BookMove g op r g')
    (hExec : State.exec op env s = some (r, s'))
    (hMem : id ∈ cancelledIds (tr ++ [.op tid op env r])) :
    id ∈ s'.seenIds ∧ id ∉ s'.maps.pending.map Order.id ∧
      id ∉ Protocol.held Book.awaiting
        (afterOp bookkeeping shs tid root g' op) := by
  rcases exec_seenIds hExec with ⟨hFresh, hSeen⟩
  have hStays : ∀ id ∈ s.seenIds, id ∈ s'.seenIds := by
    intro id hIn
    rw [hSeen]
    exact List.mem_append_right _ hIn
  rw [cancelledIds_snoc] at hMem
  rcases List.mem_append.mp hMem with hOld | hNew
  · have hKnown := hTally.seen id hOld
    have hNot :
        ∀ (tid' : Nat) root' g₁,
          shs[tid']? = some ⟨root', some g₁⟩ →
            g₁.awaiting ≠ some id := by
      intro tid' root' g₁ hAt hAwaiting
      exact hTally.awaited id hOld
        (Protocol.mem_held.mpr ⟨tid', root', g₁, hAt, hAwaiting⟩)
    refine ⟨hStays id hKnown, fun hPending => ?_, fun hAwaiting => ?_⟩
    · rcases List.mem_map.mp hPending with ⟨x, hX, rfl⟩
      rcases mem_pending_op hExec hX with hWas | hPushes
      · exact hTally.dropped x.id hOld (List.mem_map_of_mem hWas)
      · rcases hMove.pushes hPushes with ⟨rfl, _⟩
        exact hNot tid root _ hPhase rfl
    · rcases mem_held_afterOp (fun _ _ => rfl) hAwaiting with
        hSelf | ⟨tid', root', g₁, _, hAt, hHolds⟩
      · rcases hMove.awaiting hSelf with hWas | hDrawn
        · exact hNot tid root g hPhase hWas
        · exact hFresh id hDrawn hKnown
      · exact hNot tid' root' g₁ hAt hHolds
  · have hBy : cancelledBy (.op tid op env r) = some id := by
      simpa [eq_comm] using hNew
    rcases hTally.waiting_of_cancelled hBooks hCond hMove hExec hBy with
      ⟨hWaits, _, hCounted⟩
    rcases hMove.cancels hExec hBy with ⟨_, rfl, rfl, _, hGone⟩
    have hStation : id ∈ holdersBy Book.station s shs := by
      rcases List.mem_append.mp hWaits with hQueued | hHeld
      · exact List.mem_append_left _ hQueued
      · exact List.mem_append_right _
          ((Protocol.held_sublist
            (fun _ _ => Book.station_of_counting) shs).subset hHeld)
    refine ⟨hStays id (hBooks.owned.seen id hStation), ?_, ?_⟩
    · rw [hGone, mem_removeById]
      exact fun hBoth => hBoth.2 rfl
    · intro hAwaiting
      rcases mem_held_afterOp (fun _ _ => rfl) hAwaiting with
        hSelf | ⟨tid', root', g₁, _, hAt, hHolds⟩
      · cases hSelf
      · rcases Book.awaiting_cases hHolds with rfl | hOpen
        · rcases List.mem_append.mp hWaits with hQueued | hHeld
          · exact hBooks.owned.not_queued hAt rfl hQueued
          · rcases Protocol.mem_held.mp hHeld with
              ⟨tid₂, root₂, g₂, hAt₂, hCounting⟩
            have hSame : tid' = tid₂ :=
              hBooks.owned.unique hAt hAt₂ rfl
                (Book.station_of_counting hCounting)
            subst hSame
            rw [hAt] at hAt₂
            cases hAt₂
            cases hCounting
        · exact hCounted tid'
            (hBooks.uncounted tid' root' g₁ id hAt hOpen)

/- The gauge of the pending orders after an operation. -/
theorem Tally.pending_op
    (hTally : Tally tr s shs)
    (hBooks : Books om tr s shs)
    (hCond : CountsOnce om tr s (.op tid op env r))
    (hPhase : shs[tid]? = some ⟨root, some g⟩)
    (hMove : BookMove g op r g')
    (hExec : State.exec op env s = some (r, s')) :
    s'.metrics.gauges .pendingOrders =
      outside (cancelledIds (tr ++ [.op tid op env r]))
          (holdersBy Book.counting s'
            (afterOp bookkeeping shs tid root g' op)) +
        (Protocol.held Book.owing
          (afterOp bookkeeping shs tid root g' op)).length := by
  rcases exists_held_afterOp (P := bookkeeping) (f := Book.counting) op
    g' (fun _ _ => rfl) hPhase with ⟨rest, hOld, hNew⟩
  rcases exists_held_afterOp (P := bookkeeping) (f := Book.owing) op g'
    (fun _ _ => rfl) hPhase with ⟨others, hBefore, hAfter⟩
  have hWas := hTally.pending
  unfold holdersBy at hWas ⊢
  rw [hBefore.length_eq, outside_append, outside_perm hOld,
    outside_append, List.length_append] at hWas
  rw [exec_gauges _ hExec, hAfter.length_eq, outside_append,
    outside_perm hNew, outside_append, List.length_append,
    exec_queue hExec, List.map_append, outside_append,
    cancelledIds_snoc]
  cases hBy : cancelledBy (.op tid op env r) with
  | none =>
      have hBalance :=
        hMove.pendingBalance (C := cancelledIds tr)
          (fun id hAwaiting hIn =>
            hTally.awaited id hIn
              (Protocol.mem_held.mpr
                ⟨tid, root, g, hPhase, hAwaiting⟩))
          (fun o hSends =>
            enqueues_of_countsOnce hBooks hCond hPhase hMove hExec
              hSends)
          (fun id hRetain hDropped => by
            subst hRetain hDropped
            generalize hTo : Book.dropped id = g₂ at hMove
            cases hMove with
            | quiet hQuiet => cases hQuiet
            | retain =>
                cases r with
                | false => cases hTo
                | true => cases hBy)
      rw [Option.toList_none, List.append_nil]
      omega
  | some id =>
      have hWaits :=
        hTally.waiting_of_cancelled hBooks hCond hMove hExec hBy
      rcases hMove.cancels hExec hBy with ⟨rfl, rfl, rfl, _, _⟩
      have hNodup : (holdersBy Book.counting s shs).Nodup :=
        hBooks.owned.nodup.sublist
          ((List.Sublist.refl _).append
            (Protocol.held_sublist
              (fun _ _ => Book.station_of_counting) shs))
      have hOneLess := outside_concat hNodup hWaits.1 hWaits.2.1
      unfold holdersBy at hOneLess
      rw [outside_append, outside_append, outside_perm hOld,
        outside_perm hOld, outside_append, outside_append]
        at hOneLess
      simp only [Op.delta, Op.enqueues, Book.counting, Book.owing,
        Option.toList_none, Option.toList_some, List.map_nil,
        outside_nil, List.length_nil, List.length_singleton]
        at hWas hOneLess ⊢
      omega

/- The gauge of the active orders after an operation. -/
theorem Tally.active_op
    (hTally : Tally tr s shs)
    (hBooks : Books om tr s shs)
    (hCond : CountsOnce om tr s (.op tid op env r))
    (hPhase : shs[tid]? = some ⟨root, some g⟩)
    (hMove : BookMove g op r g')
    (hExec : State.exec op env s = some (r, s')) :
    s'.metrics.gauges .activeOrders +
        (Protocol.held Book.fresh
          (afterOp bookkeeping shs tid root g' op)).length =
      s'.maps.active.length +
        (Protocol.held Book.gone
          (afterOp bookkeeping shs tid root g' op)).length := by
  rcases exists_held_afterOp (P := bookkeeping) (f := Book.fresh) op g'
    (fun _ _ => rfl) hPhase with ⟨rest, hOld, hNew⟩
  rcases exists_held_afterOp (P := bookkeeping) (f := Book.gone) op g'
    (fun _ _ => rfl) hPhase with ⟨others, hBefore, hAfter⟩
  have hWas := hTally.active
  rw [hOld.length_eq, hBefore.length_eq, List.length_append,
    List.length_append] at hWas
  rw [exec_gauges _ hExec, hNew.length_eq, hAfter.length_eq,
    List.length_append, List.length_append]
  have hBalance :=
    hMove.activeBalance hExec hTally.distinct
      (fun id hArriving => by
        subst hArriving
        apply (hTally.apart id).apart
        apply List.mem_append_right
        exact Protocol.mem_held.mpr ⟨tid, root, _, hPhase, rfl⟩)
      (fun id hRemoves hPass => by
        have hAt := hBooks.passes tid root g true hPhase hPass
        cases op with
        | map op =>
            cases op with
            | activeRemove id' =>
                cases hRemoves
                simpa only [CountsOnce, hAt, if_true] using hCond
            | _ => cases hRemoves
        | _ => cases hRemoves)
      (fun id hWithdrawn hIdle => by
        subst hWithdrawn hIdle
        generalize hTo : Book.idle = g₂ at hMove
        cases hMove with
        | quiet hQuiet => cases hTo
        | giveUp hStatus =>
            rw [hCond hStatus] at hExec
            cases hExec
        | discount => cases hTo)
  omega

theorem Tally.afterOp
    (hTally : Tally tr s shs)
    (hBooks : Books om tr s shs)
    (hCond : CountsOnce om tr s (.op tid op env r))
    (hPhase : shs[tid]? = some ⟨root, some g⟩)
    (hMove : BookMove g op r g')
    (hExec : State.exec op env s = some (r, s')) :
    Tally (tr ++ [.op tid op env r]) s'
      (Pumpy.afterOp bookkeeping shs tid root g' op) := by
  have hCancelled :
      ∀ id ∈ cancelledIds (tr ++ [.op tid op env r]),
        id ∈ s'.seenIds ∧ id ∉ s'.maps.pending.map Order.id ∧
          id ∉ Protocol.held Book.awaiting
            (Pumpy.afterOp bookkeeping shs tid root g' op) :=
    fun _ hMem =>
      hTally.cancelled_op hBooks hCond hPhase hMove hExec hMem
  constructor
  · exact nodup_active_op hExec hTally.distinct
  · intro id
    refine (hTally.apart id).afterOp hBooks.owned hPhase hMove hExec ?_
    rintro rfl
    exact enqueues_of_pass hBooks hCond hPhase hMove hExec rfl
  · intro id hMem
    exact hTally.entered_op hBooks hCond hPhase hMove hExec hMem
  · intro id hMem
    rcases mem_held_afterOp (fun _ _ => rfl) hMem with
      hSelf | ⟨tid', root', g₁, _, hAt, hBack⟩
    · rcases hMove.back hSelf with hBack | ⟨hPass, hSent⟩
      · exact hTally.stays id
          (Protocol.mem_held.mpr ⟨tid, root, g, hPhase, hBack⟩)
      · exact hSent
          (enqueues_of_pass hBooks hCond hPhase hMove hExec hPass)
    · exact hTally.stays id
        (Protocol.mem_held.mpr ⟨tid', root', g₁, hAt, hBack⟩)
  · intro id hMem
    exact hTally.waits_op hBooks hCond hPhase hMove hExec hMem
  · exact fun id hMem => (hCancelled id hMem).1
  · exact fun id hMem => (hCancelled id hMem).2.1
  · exact fun id hMem => (hCancelled id hMem).2.2
  · exact hTally.pending_op hBooks hCond hPhase hMove hExec
  · exact hTally.active_op hBooks hCond hPhase hMove hExec

end Steps

------------------------------------------------------------
-- Outside Events
------------------------------------------------------------

section Outside

variable {om : OrderManager} {tr : List OmEvent}
variable {s s' : State} {shs : List (Shadow Root Book)} {e : Ext}

theorem outside_eq_zero
    {C l : List OrderId}
    (hAll : ∀ id ∈ l, id ∈ C) :
    outside C l = 0 := by
  refine List.countP_eq_zero.mpr fun id hIn => ?_
  simp [hAll id hIn]

/- The orders that wait, after an event outside. -/
theorem Tally.pending_ext
    (hTally : Tally tr s shs)
    (hCond : CountsOnce om tr s (.ext e))
    (hNe : e ≠ .restart)
    (hExt : Ext.exec e s = some s') :
    s'.metrics.gauges .pendingOrders =
      outside (cancelledIds tr)
          (holdersBy Book.counting s'
            (afterExt om bookkeeping shs e)) +
        (Protocol.held Book.owing
          (afterExt om bookkeeping shs e)).length := by
  have hCounting :
      Protocol.held Book.counting (afterExt om bookkeeping shs e) =
        Protocol.held Book.counting shs :=
    held_afterExt hNe fun root _ => by cases root <;> rfl
  have hOwing :
      Protocol.held Book.owing (afterExt om bookkeeping shs e) =
        Protocol.held Book.owing shs ++ e.roots.filterMap Root.carried := by
    rw [afterExt_of_ne_restart om bookkeeping shs hNe,
      Protocol.held_append,
      held_ext_roots fun root => by cases root <;> rfl]
  have hWas := hTally.pending
  rw [metrics_ext hNe hExt, hOwing, List.length_append]
  unfold holdersBy at hWas ⊢
  rw [hCounting, outside_append]
  rw [outside_append] at hWas
  have hQuiet :
      (∀ o, e ≠ .recv o) → e ≠ .closeChannel →
        s'.chan.queue = s.chan.queue :=
    fun hRecv hClose => queue_ext hRecv hClose hNe hExt
  cases e with
  | recv o =>
      have hQueue := (exec_recv hExt).1
      have hNew : o.id ∉ cancelledIds tr := hCond
      have hHead :
          outside (cancelledIds tr) (s.chan.queue.map Order.id) =
            outside (cancelledIds tr) (s'.chan.queue.map Order.id) +
              1 := by
        rw [hQueue, List.map_cons]
        unfold outside
        rw [List.countP_cons]
        simp [hNew]
      have hCarried :
          ((Ext.recv o).roots.filterMap Root.carried).length = 1 := rfl
      omega
  | closeChannel =>
      have hNone :
          outside (cancelledIds tr) (s.chan.queue.map Order.id) = 0 := by
        refine outside_eq_zero fun id hIn => ?_
        rcases List.mem_map.mp hIn with ⟨o, hO, rfl⟩
        exact hCond o hO
      cases hExt
      simp only [Ext.roots, List.filterMap_nil, List.length_nil,
        List.map_nil, outside_nil]
      omega
  | submitOrder o | cancelOrder id | setStatus st | land tx =>
      rw [hQuiet (by simp) (by simp)]
      exact hWas
  | restart => exact absurd rfl hNe

/- Where pending orders wait, after an event outside. -/
theorem Tally.waits_ext
    {id : OrderId}
    (hTally : Tally tr s shs)
    (hCond : CountsOnce om tr s (.ext e))
    (hNe : e ≠ .restart)
    (hExt : Ext.exec e s = some s')
    (hMem : id ∈ s.maps.pending.map Order.id) :
    id ∈ holdersBy Book.listed s' (afterExt om bookkeeping shs e) ∨
      id ∈ receivedIds (tr ++ [.ext e]) := by
  have hListed :
      Protocol.held Book.listed (afterExt om bookkeeping shs e) =
        Protocol.held Book.listed shs :=
    held_afterExt hNe fun root _ => by cases root <;> rfl
  unfold holdersBy
  rw [hListed]
  have hQuiet :
      (∀ o, e ≠ .recv o) → e ≠ .closeChannel →
        s'.chan.queue = s.chan.queue :=
    fun hRecv hClose => queue_ext hRecv hClose hNe hExt
  rcases hTally.waits id hMem with hWaits | hReceived
  · rcases List.mem_append.mp hWaits with hQueued | hHeld
    · cases e with
      | recv o =>
          rw [(exec_recv hExt).1, List.map_cons] at hQueued
          rcases List.mem_cons.mp hQueued with rfl | hLater
          · right
            simp [receivedIds]
          · exact .inl (List.mem_append_left _ hLater)
      | closeChannel =>
          rcases List.mem_map.mp hQueued with ⟨o, hO, rfl⟩
          exact absurd hMem (hTally.dropped o.id (hCond o hO))
      | submitOrder o | cancelOrder id | setStatus st | land tx =>
          rw [hQuiet (by simp) (by simp)]
          exact .inl (List.mem_append_left _ hQueued)
      | restart => exact absurd rfl hNe
    · exact .inl (List.mem_append_right _ hHeld)
  · exact .inr (mem_receivedIds_append _ hReceived)

theorem Tally.afterExt
    (hTally : Tally tr s shs)
    (hCond : CountsOnce om tr s (.ext e))
    (hExt : Ext.exec e s = some s') :
    Tally (tr ++ [.ext e]) s'
      (Pumpy.afterExt om bookkeeping shs e) := by
  have hSameCancelled :
      cancelledIds (tr ++ [.ext e]) = cancelledIds tr := by
    rw [cancelledIds_snoc]
    exact List.append_nil _
  have hSeen : ∀ id ∈ cancelledIds tr, id ∈ s'.seenIds :=
    fun id hMem => seenIds_ext hExt id (hTally.seen id hMem)
  by_cases hRestart : e = .restart
  · subst hRestart
    have hApart :
        ∀ id, Apart id s' (Pumpy.afterExt om bookkeeping shs .restart) :=
      fun id => (hTally.apart id).afterExt hExt
    have hNone :
        ∀ f : Book → Option OrderId,
          Protocol.held f
            (Pumpy.afterExt om bookkeeping shs .restart) = [] :=
      fun f => held_afterExt_restart f
    cases hExt
    constructor
    · exact List.nodup_nil
    · exact hApart
    · intro id hMem
      rw [hNone] at hMem
      cases hMem
    · intro id
      rw [hNone]
      exact List.not_mem_nil
    · intro id hMem
      cases hMem
    · rw [hSameCancelled]
      exact hSeen
    · intro id _ hMem
      cases hMem
    · intro id _
      rw [hNone]
      exact List.not_mem_nil
    · unfold holdersBy
      rw [hNone, hNone]
      rfl
    · rw [hNone, hNone]
      rfl
  · have hMaps := active_ext hRestart hExt
    have hSame :
        ∀ f : Book → Option OrderId,
          (∀ root, f (bookkeeping.start root) = none) →
            Protocol.held f (Pumpy.afterExt om bookkeeping shs e) =
              Protocol.held f shs :=
      fun f hStart => held_afterExt hRestart fun root _ => hStart root
    constructor
    · rw [hMaps]
      exact hTally.distinct
    · exact fun id => (hTally.apart id).afterExt hExt
    · rw [hSame Book.fresh fun root => by cases root <;> rfl, hMaps]
      exact hTally.entered
    · rw [hSame Book.back fun root => by cases root <;> rfl]
      exact hTally.stays
    · intro id hMem
      rw [hMaps] at hMem
      exact hTally.waits_ext hCond hRestart hExt hMem
    · rw [hSameCancelled]
      exact hSeen
    · rw [hSameCancelled, hMaps]
      exact hTally.dropped
    · rw [hSameCancelled,
        hSame Book.awaiting fun root => by cases root <;> rfl]
      exact hTally.awaited
    · rw [hSameCancelled]
      exact hTally.pending_ext hCond hRestart hExt
    · rw [metrics_ext hRestart hExt, hMaps,
        hSame Book.fresh fun root => by cases root <;> rfl,
        hSame Book.gone fun root => by cases root <;> rfl]
      exact hTally.active

end Outside

------------------------------------------------------------
-- Whole Runs
------------------------------------------------------------

section Runs

variable {om : OrderManager} {db : Database} {chain : Chain}
variable {seenIds : List OrderId} {tr : List OmEvent}

theorem tally_of_bookRun
    {s : State} {shs : List (Shadow Root Book)}
    (hRun :
      BookRun om (CountsOnce om) (State.boot db chain seenIds) tr s
        shs) :
    Tally tr s shs := by
  induction hRun with
  | nil =>
      constructor
      · exact List.nodup_nil
      · intro id
        constructor
        · intro _ hMem
          cases hMem
        · intro hMem
          cases hMem
      · intro id hMem
        cases hMem
      · exact fun id => List.not_mem_nil
      · intro id hMem
        cases hMem
      · intro id hMem
        cases hMem
      · intro id hMem
        cases hMem
      · intro id hMem
        cases hMem
      · rfl
      · rfl
  | snoc hRun hCond hStep ih =>
      cases hStep with
      | op hPhase hMove hExec =>
          exact ih.afterOp (books_of_run hRun) hCond hPhase hMove hExec
      | ext hExt => exact ih.afterExt hCond hExt

/- Entries that are still to be counted are among the entries. -/
theorem Tally.fresh_le
    {s : State} {shs : List (Shadow Root Book)}
    (hTally : Tally tr s shs)
    (hBooks : Books om tr s shs) :
    (Protocol.held Book.fresh shs).length ≤ s.maps.active.length := by
  have hNodup : (Protocol.held Book.fresh shs).Nodup :=
    (List.nodup_append.mp hBooks.owned.nodup).2.1.sublist
      (Protocol.held_sublist
        (fun _ _ => Book.station_of_fresh) shs)
  have hSub := hNodup.subperm hTally.entered
  simpa using hSub.length_le

/-
  In every run whose steps count every order in and off once,
  the gauges match the state throughout.
-/
theorem gaugesMatch_of_countsOnce
    (om : OrderManager)
    (db : Database)
    (chain : Chain)
    (seenIds : List OrderId)
    {tr : List OmEvent}
    {c : OmConfig}
    (hRun :
      Machine.Run om.machine (CountsOnce om)
        (State.boot db chain seenIds) tr c) :
    GaugesMatch tr c := by
  rcases Protocol.trackedRun_of_run om.follows_bookkeeping hRun with
    ⟨shs, hTracked⟩
  have hTally := tally_of_bookRun hTracked.shadowRun
  have hFresh := hTally.fresh_le (books_of_run hTracked.shadowRun)
  have hPending := hTally.pending
  have hActive := hTally.active
  constructor
  · omega
  · omega
  · intro hRest
    rw [held_of_atRest hTracked hRest Book.released_fresh,
      held_of_atRest hTracked hRest Book.released_gone] at hActive
    simpa using hActive
  · intro hRest
    rw [held_of_atRest hTracked hRest Book.released_owing, holdersBy,
      held_of_atRest hTracked hRest Book.released_counting,
      List.append_nil] at hPending
    rw [hPending, outside, List.countP_map,
      List.countP_eq_length_filter]
    exact Int.add_zero _

end Runs

------------------------------------------------------------
-- A Retry That Was Not Counted
------------------------------------------------------------

/- Whether a task has no step left. -/
def ended (t : Task Op Op.Resp Root Ret) : Bool :=
  match t.prog with
  | some (.act _ _) => false
  | _ => true

theorem atRest_of_ended
    {c : OmConfig}
    (hEnded : c.tasks.all ended = true) :
    AtRest c := by
  intro t hTask op k hProg
  have hT : ended t = true := List.all_eq_true.mp hEnded t hTask
  rw [ended, hProg] at hT
  cases hT

/- Task `tid` trades the order that its gate has let through. -/
def tradeSteps (tid : Nat) : List (Machine.Choice Outcome Ext) :=
  steps tid
    [.time 0, .plain, .unit (.ok ()), .deadline false,
      .blockhash (.ok 7), .deadline false,
      .submit true (.ok "signature"), .deadline false,
      .time 1, .time 2, .plain, .stmt .done, .stmt .done,
      .plain, .plain, .plain, .plain, .plain, .plain]

/- No node answers the first pass of an order; the second trades. -/
def retriedOrderSchedule : List (Machine.Choice Outcome Ext) :=
  [.ext (.submitOrder (sampleOrder "" 1000))] ++
    acceptSteps 0 "a" [] ++
    [.ext (.recv (sampleOrder "a" 1000))] ++
    gateSteps 1
      [{ sampleOrder "a" 1000 with status := .validating }] ++
    steps 1
      [.time 0, .plain, .unit (.ok ()), .deadline false,
        .blockhash (.error "no node"), .deadline false,
        .plain, .plain, .plain, .plain, .plain, .plain] ++
    [.ext (.recv { sampleOrder "a" 1000 with retryCount := 1 })] ++
    gateSteps 2
      [{ sampleOrder "a" 1000 with
          status := .validating, retryCount := 1 }] ++
    tradeSteps 2

/- After a retry, the gauge of the pending orders is negative. -/
theorem negative_after_retry :
    ∃ (tr : List OmEvent) (c : OmConfig),
      Machine.Run sampleManager.machine Machine.anyStep
          (sampleState .enabled) tr c ∧
        AtRest c ∧ c.state.chan.queue = [] ∧
          c.state.metrics.gauges .pendingOrders = -1 ∧
            ¬GaugesMatch tr c := by
  have hPlay :=
    Machine.exists_run_of_play sampleManager.machine
      (sampleState .enabled) retriedOrderSchedule
      (fun _ c =>
        c.tasks.all ended &&
          decide
            (c.state.chan.queue = [] ∧
              c.state.metrics.gauges .pendingOrders = -1))
      (by decide +kernel)
  rcases hPlay with ⟨tr, c, hRun, hShown⟩
  rw [Bool.and_eq_true, decide_eq_true_eq] at hShown
  rcases hShown with ⟨hEnded, hQueue, hPending⟩
  refine
    ⟨tr, c, hRun, atRest_of_ended hEnded, hQueue, hPending, ?_⟩
  intro hMatch
  have hNonneg := hMatch.pending_nonneg
  rw [hPending] at hNonneg
  exact absurd hNonneg (by decide)

------------------------------------------------------------
-- A Cancelled Order That Is Left in the Channel
------------------------------------------------------------

instance (l : List (Nat × OrderId)) (id : OrderId) :
    Decidable (∀ tid, (tid, id) ∉ l) :=
  decidable_of_iff (id ∉ l.map Prod.snd) (by simp)

instance (o : StmtOutcome) :
    (env : Outcome) → Decidable (env = .stmt o)
  | .stmt o' => decidable_of_iff (o' = o) (by simp)
  | .plain | .query _ | .setting _ | .fresh _ | .time _
  | .iteration _ | .risk _ | .curve _ | .unit _ | .blockhash _
  | .answer _ | .submit _ _ | .tipAccount _ | .deadline _ =>
      .isFalse nofun

instance (om : OrderManager) (tr : List OmEvent) (s : State) :
    (e : OmEvent) → Decidable (CountsOnce om tr s e)
  | .ext (.recv o) =>
      inferInstanceAs (Decidable (o.id ∉ cancelledIds tr))
  | .ext .closeChannel =>
      inferInstanceAs
        (Decidable (∀ o ∈ s.chan.queue, o.id ∈ cancelledIds tr))
  | .ext (.submitOrder _) | .ext (.cancelOrder _)
  | .ext (.setStatus _) | .ext (.land _) | .ext .restart =>
      .isTrue trivial
  | .op tid (.chan (.orderSend _)) _ _ =>
      inferInstanceAs
        (Decidable (s.chan.receiverAlive = !passAt om tr tid))
  | .op _ (.chan (.eventSend _)) _ _ => .isTrue trivial
  | .op _ (.map (.pendingRetain id)) _ _ =>
      inferInstanceAs
        (Decidable
          (id ∈ s.maps.pending.map Order.id →
            id ∉ receivedIds tr ∧ ∀ tid, (tid, id) ∉ uncounted tr))
  | .op tid (.map (.activeRemove id)) _ _ =>
      inferInstanceAs
        (Decidable
          (if passAt om tr tid = true then
            id ∈ s.maps.active.map Order.id
          else
            id ∈ s.maps.active.map Order.id →
              ∀ tid', (tid', id) ∉ uncounted tr))
  | .op _ (.map (.activeInsert _)) _ _ | .op _ (.map .activeValues) _ _
  | .op _ (.map .activeLock) _ _ | .op _ (.map .activeUnlock) _ _
  | .op _ (.map (.pendingPush _ _)) _ _
  | .op _ (.map (.historyInsert _)) _ _ => .isTrue trivial
  | .op _ (.db (.updateOrder o)) env _ =>
      inferInstanceAs
        (Decidable (o.status = .cancelled → env = .stmt .done))
  | .op _ (.db .getWalletStatus) _ _
  | .op _ (.db (.updateRegistryStatus _)) _ _
  | .op _ (.db (.updateConfigStatus _)) _ _
  | .op _ (.db (.upsertWalletAlert _)) _ _
  | .op _ (.db (.insertOrder _)) _ _
  | .op _ (.db (.insertTrade _)) _ _
  | .op _ (.db (.getConfigValue _)) _ _ => .isTrue trivial
  | .op _ (.engine _) _ _ | .op _ (.metric _) _ _
  | .op _ (.chain _) _ _ | .op _ (.sys _) _ _ => .isTrue trivial

/- Of three orders one trades, one is cancelled, and one waits. -/
def countedOrdersSchedule : List (Machine.Choice Outcome Ext) :=
  [.ext (.submitOrder (sampleOrder "" 1000))] ++
    acceptSteps 0 "a" [] ++
    [.ext (.submitOrder (sampleOrder "" 1000))] ++
    acceptSteps 1 "b" [] ++
    [.ext (.submitOrder (sampleOrder "" 1000))] ++
    acceptSteps 2 "c" [] ++
    [.ext (.recv (sampleOrder "a" 1000))] ++
    gateSteps 3
      [{ sampleOrder "a" 1000 with status := .validating }] ++
    [.ext (.cancelOrder "b")] ++
    steps 4 [.plain, .plain, .plain, .plain, .plain, .plain] ++
    tradeSteps 3

/- The cancelled order is left in the channel, and not counted. -/
theorem exists_gaugesMatch :
    ∃ (tr : List OmEvent) (c : OmConfig),
      AtRest c ∧ c.state.chan.queue.map Order.id = ["b", "c"] ∧
        c.state.metrics.gauges .pendingOrders = 1 ∧
          c.state.metrics.gauges .activeOrders = 0 ∧
            GaugesMatch tr c := by
  have hPlay :=
    Machine.exists_run_of_playUnder sampleManager.machine
      (CountsOnce sampleManager) (sampleState .enabled)
      countedOrdersSchedule
      (fun _ c =>
        c.tasks.all ended &&
          decide
            (c.state.chan.queue.map Order.id = ["b", "c"] ∧
              c.state.metrics.gauges .pendingOrders = 1 ∧
                c.state.metrics.gauges .activeOrders = 0))
      (by decide +kernel)
  rcases hPlay with ⟨tr, c, hRun, hShown⟩
  rw [Bool.and_eq_true, decide_eq_true_eq] at hShown
  rcases hShown with ⟨hEnded, hQueue, hPending, hActive⟩
  exact
    ⟨tr, c, atRest_of_ended hEnded, hQueue, hPending, hActive,
      gaugesMatch_of_countsOnce sampleManager _ _ _ hRun⟩

end Pumpy
