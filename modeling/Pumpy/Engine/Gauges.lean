import Pumpy.Engine.Stations
import Pumpy.Interleaving.Calls

/-
  The gauges of the order manager (`active_orders` and
  `pending_orders`, manager.rs) against the orders they count:
  the entries of the active map, and the orders that wait in
  the channel and are not cancelled.

  A retry is not counted as pending, although its pass will
  count it off; a cancelled order stays in the channel; and a
  pass counts its order off the active map although a cancel
  may have done so.

  Key definitions include:
    * `cancelledIds`
    * `uncounted`
    * `GaugesMatch`
    * `CountsOnce`

  The main results are `BookMove.pendingBalance` and
  `BookMove.activeBalance`: what one operation does to a gauge
  and to what the gauge is to count.
-/

------------------------------------------------------------
-- Gauges that Match
------------------------------------------------------------

namespace Pumpy

open Interleaving

/- The order a cancel has taken out of the pending orders. -/
def cancelledBy : OmEvent → Option OrderId
  | .op _ (.map (.pendingRetain id)) _ dropped =>
      if dropped = true then some id else none
  | _ => none

/- The orders that were cancelled among the pending ones. -/
def cancelledIds (tr : List OmEvent) : List OrderId :=
  tr.filterMap cancelledBy

/- The orders the worker has taken off the channel. -/
def receivedIds (tr : List OmEvent) : List OrderId :=
  tr.filterMap fun
    | .ext (.recv o) => some o.id
    | _ => none

/-
  What one event does to the orders that their task has put
  into a map and not counted there yet.
-/
def uncountedAfter
    (l : List (Nat × OrderId)) : OmEvent → List (Nat × OrderId)
  | .op tid (.map (.pendingPush _ o)) _ _ => (tid, o.id) :: l
  | .op tid (.map (.activeInsert o)) _ _ => (tid, o.id) :: l
  | .op tid (.metric (.inc _)) _ _ => l.filter (·.1 ≠ tid)
  | _ => l

/- The orders put into a map and not counted there, by task. -/
def uncounted (tr : List OmEvent) : List (Nat × OrderId) :=
  tr.foldl uncountedAfter []

/- No task has a step left. -/
def AtRest (c : OmConfig) : Prop :=
  ∀ t ∈ c.tasks, ∀ op k, t.prog ≠ some (.act op k)

/-
  Neither gauge is negative; where no task has a step left, one
  is the number of entries of the active map, the other the
  number of orders that wait in the channel and are not
  cancelled.
-/
structure GaugesMatch (tr : List OmEvent) (c : OmConfig) : Prop where
  pending_nonneg : 0 ≤ c.state.metrics.gauges .pendingOrders
  active_nonneg : 0 ≤ c.state.metrics.gauges .activeOrders
  active :
    AtRest c →
      c.state.metrics.gauges .activeOrders =
        c.state.maps.active.length
  pending :
    AtRest c →
      c.state.metrics.gauges .pendingOrders =
        (c.state.chan.queue.filter
          (·.id ∉ cancelledIds tr)).length

/- Whether a task is a pass. -/
def Root.isPass : Root → Bool
  | .processOrder _ => true
  | _ => false

/- Whether the task `tid` of the trace is a pass. -/
def passAt (om : OrderManager) (tr : List OmEvent) (tid : Nat) : Bool :=
  ((om.machine.rootsIn tr)[tid]?).any Root.isPass

/-
  The steps in which every order is counted in and off once: the
  worker takes no cancelled order off the channel, and leaves
  none behind that is not; a pass does not put its order back,
  and a submission finds the channel open; a cancel finds an
  order among the pending ones only while it waits, and in a map
  only once it is counted there; a pass finds its entry in the
  active map; and the row of an order that is withdrawn is
  updated.
-/
def CountsOnce (om : OrderManager) : OmCond :=
  fun tr s e =>
    match e with
    | .ext (.recv o) => o.id ∉ cancelledIds tr
    | .ext .closeChannel => ∀ o ∈ s.chan.queue, o.id ∈ cancelledIds tr
    | .op tid (.chan (.orderSend _)) _ _ =>
        s.chan.receiverAlive = !passAt om tr tid
    | .op _ (.map (.pendingRetain id)) _ _ =>
        id ∈ s.maps.pending.map Order.id →
          id ∉ receivedIds tr ∧ ∀ tid, (tid, id) ∉ uncounted tr
    | .op tid (.map (.activeRemove id)) _ _ =>
        if passAt om tr tid = true then
          id ∈ s.maps.active.map Order.id
        else
          id ∈ s.maps.active.map Order.id →
            ∀ tid', (tid', id) ∉ uncounted tr
    | .op _ (.db (.updateOrder o)) env _ =>
        o.status = .cancelled → env = .stmt .done
    | _ => True

------------------------------------------------------------
-- What Tasks Owe
------------------------------------------------------------

namespace Book

/- The order a submission has counted and not sent yet. -/
def counting : Book → Option OrderId
  | counted id => some id
  | _ => none

/- The order a task has still to count off the pending ones. -/
def owing : Book → Option OrderId
  | arriving id => some id
  | inserted id => some id
  | entered id => some id
  | dropped id => some id
  | _ => none

/- The entry of the active map that a pass has still to count. -/
def fresh : Book → Option OrderId
  | inserted id => some id
  | _ => none

/- The entry a task has taken out and has still to count off. -/
def gone : Book → Option OrderId
  | removed id => some id
  | withdrawn id => some id
  | _ => none

/- The order a submission has yet to count. -/
def awaiting : Book → Option OrderId
  | drawn id => some id
  | pushed id => some id
  | _ => none

/- The order a task has put into a map and not counted there yet. -/
def uncounted : Book → Option OrderId
  | pushed id => some id
  | inserted id => some id
  | _ => none

/- The order of a pass that has put it back. -/
def back : Book → Option OrderId
  | leaving id => some id
  | _ => none

/- Whether the phase is one of a pass. -/
def ofPass : Book → Option Bool
  | submitting => some false
  | drawn _ => some false
  | pushed _ => some false
  | counted _ => some false
  | arriving _ => some true
  | inserted _ => some true
  | entered _ => some true
  | running _ _ => some true
  | leaving _ => some true
  | removed _ => some true
  | left _ => some true
  | cancelling _ => some false
  | dropped _ => some false
  | seeking _ => some false
  | withdrawn _ => some false
  | cancelled _ => some false
  | idle => none

/- A task that has ended owes nothing. -/
structure Released (f : Book → Option OrderId) : Prop where
  returned : ∀ g, g.mayReturn → f g = none
  crashed : ∀ g, g.mayCrash → f g = none

theorem released_counting : Released counting :=
  ⟨fun g h => by cases g <;> first | rfl | exact h.elim,
    fun g h => by cases g <;> first | rfl | exact h.elim⟩

theorem released_owing : Released owing :=
  ⟨fun g h => by cases g <;> first | rfl | exact h.elim,
    fun g h => by cases g <;> first | rfl | exact h.elim⟩

theorem released_fresh : Released fresh :=
  ⟨fun g h => by cases g <;> first | rfl | exact h.elim,
    fun g h => by cases g <;> first | rfl | exact h.elim⟩

theorem released_gone : Released gone :=
  ⟨fun g h => by cases g <;> first | rfl | exact h.elim,
    fun g h => by cases g <;> first | rfl | exact h.elim⟩

end Book

/- Where no task has a step left, none of them owes anything. -/
theorem held_of_atRest
    {om : OrderManager} {C : OmCond} {s₀ : State}
    {tr : List OmEvent} {c : OmConfig}
    {shs : List (Shadow Root Book)} {f : Book → Option OrderId}
    (hRun :
      bookkeeping.TrackedRun om.machine (fun _ g => g.mayReturn) C s₀
        tr c shs)
    (hRest : AtRest c)
    (hReleased : Book.Released f) :
    Protocol.held f shs = [] := by
  apply List.eq_nil_iff_forall_not_mem.mpr
  intro id hMem
  rcases Protocol.mem_held.mp hMem with ⟨tid, root, g, hAt, hHolds⟩
  rcases hRun.task_of_shadow hAt with ⟨⟨root', prog⟩, hTask, _, hProg⟩
  have hIn := List.mem_of_getElem? hTask
  cases prog with
  | none => exact hProg.elim
  | some p =>
      dsimp only at hProg
      cases p with
      | done a =>
          rw [hReleased.returned g hProg] at hHolds
          cases hHolds
      | crash =>
          rw [hReleased.crashed g hProg] at hHolds
          cases hHolds
      | act op k => exact hRest _ hIn op k rfl

------------------------------------------------------------
-- Single Tasks
------------------------------------------------------------

theorem uncounted_snoc
    (tr : List OmEvent)
    (e : OmEvent) :
    uncounted (tr ++ [e]) = uncountedAfter (uncounted tr) e := by
  simp [uncounted]

/- A quiet operation counts nothing. -/
theorem uncountedAfter_quiet
    {op : Op}
    (l : List (Nat × OrderId))
    (tid : Nat)
    (env : Outcome)
    (r : op.Resp)
    (hQuiet : op.quiet = true) :
    uncountedAfter l (.op tid op env r) = l := by
  cases op with
  | map op => cases op <;> first | rfl | cases hQuiet
  | metric op => cases op <;> first | rfl | cases hQuiet
  | _ => rfl

/- Only the task that has put an order into a map counts it. -/
theorem mem_uncountedAfter_other
    {l : List (Nat × OrderId)} {tid : Nat} {id : OrderId} {e : OmEvent}
    (hOther : ∀ op env r, e ≠ .op tid op env r)
    (hMem : (tid, id) ∈ l) :
    (tid, id) ∈ uncountedAfter l e := by
  cases e with
  | ext e => exact hMem
  | op tid' op env r =>
      have hNe : tid ≠ tid' := by
        rintro rfl
        exact hOther op env r rfl
      cases op with
      | map op =>
          cases op <;>
            first | exact hMem | exact List.mem_cons_of_mem _ hMem
      | metric op =>
          cases op <;>
            first
            | exact hMem
            | exact List.mem_filter.mpr ⟨hMem, decide_eq_true hNe⟩
      | _ => exact hMem

section Moves

variable {g g' : Book} {op : Op} {r : op.Resp} {id : OrderId}

/- A task remains what it started as. -/
theorem BookMove.ofPass
    {b : Bool}
    (hMove : BookMove g op r g')
    (hOf : g'.ofPass = some b) :
    g.ofPass = some b := by
  cases hMove with
  | @push id max o pushed hId hStatus =>
      cases pushed with
      | true => exact hOf
      | false => cases hOf
  | @requeue id o sent hId =>
      cases sent <;> exact hOf
  | @retain id dropped =>
      cases dropped <;> exact hOf
  | @withdraw id r =>
      cases r with
      | none => cases hOf
      | some o => exact hOf
  | send hId => cases hOf
  | giveUp hStatus => cases hOf
  | _ => exact hOf

/- A task that has put an order into a map is in the record of it. -/
theorem BookMove.uncounted
    {l : List (Nat × OrderId)} {tid : Nat} {env : Outcome}
    (hMove : BookMove g op r g')
    (hBefore : ∀ id, g.uncounted = some id → (tid, id) ∈ l)
    (hAfter : g'.uncounted = some id) :
    (tid, id) ∈ uncountedAfter l (.op tid op env r) := by
  cases hMove with
  | quiet hQuiet =>
      rw [uncountedAfter_quiet l tid env r hQuiet]
      exact hBefore id hAfter
  | @push id' max o pushed hId hStatus =>
      cases pushed with
      | true =>
          cases hAfter
          rw [← hId]
          exact List.mem_cons_self
      | false => cases hAfter
  | insert hId hStatus =>
      cases hAfter
      rw [← hId]
      exact List.mem_cons_self
  | @requeue id' o sent hId => cases sent <;> cases hAfter
  | @retain id' dropped => cases dropped <;> cases hAfter
  | @withdraw id' r => cases r <;> cases hAfter
  | _ => cases hAfter

end Moves

/- What every run guarantees of its tasks. -/
structure Books
    (om : OrderManager)
    (tr : List OmEvent)
    (s : State)
    (shs : List (Shadow Root Book)) : Prop where
  owned : OwnedBy Book.station s shs
  uncounted :
    ∀ (tid : Nat) root g id,
      shs[tid]? = some ⟨root, some g⟩ →
        g.uncounted = some id → (tid, id) ∈ Pumpy.uncounted tr
  passes :
    ∀ (tid : Nat) root g b,
      shs[tid]? = some ⟨root, some g⟩ →
        g.ofPass = some b → passAt om tr tid = b

theorem books_of_run
    {om : OrderManager} {C : OmCond} {db : Database}
    {chain : Chain} {seenIds : List OrderId} {tr : List OmEvent}
    {s : State} {shs : List (Shadow Root Book)}
    (hRun : BookRun om C (State.boot db chain seenIds) tr s shs) :
    Books om tr s shs := by
  constructor
  · exact stationed_of_run hRun
  · intro tid root g id hAt
    refine hRun.local_invariant
      (fun tr tid _ g =>
        ∀ id, g.uncounted = some id → (tid, id) ∈ Pumpy.uncounted tr)
      ?_ ?_ ?_ hAt id
    · intro tr tid root _ id hStart
      cases root <;> cases hStart
    · intro tr s s' shs tid root g op env r g' _ _ _ _ hBefore hMove id
        hAfter
      rw [uncounted_snoc]
      exact BookMove.uncounted hMove hBefore hAfter
    · intro tr s shs tid root g e _ _ hBefore hOther id hHolds
      rw [uncounted_snoc]
      exact mem_uncountedAfter_other hOther (hBefore id hHolds)
  · intro tid root g b hAt hOf
    have hSame :
        ∀ b, g.ofPass = some b → root.isPass = b := by
      refine hRun.local_invariant
        (fun _ _ root g => ∀ b, g.ofPass = some b → root.isPass = b)
        ?_ ?_ ?_ hAt
      · intro tr tid root _ b hStart
        cases root <;> cases hStart <;> rfl
      · intro tr s s' shs tid root g op env r g' _ _ _ _ hBefore hMove b
          hAfter
        exact hBefore b (BookMove.ofPass hMove hAfter)
      · intro tr s shs tid root g e _ _ hBefore _
        exact hBefore
    have hRoot := hRun.root_at [] hAt
    rw [List.append_nil] at hRoot
    rw [passAt, hRoot]
    exact hSame b hOf

------------------------------------------------------------
-- Entries and Counts
------------------------------------------------------------

theorem length_insertById
    {o : Order} {l : List Order}
    (hNew : o.id ∉ l.map Order.id) :
    (insertById o l).length = l.length + 1 := by
  have hSame : l.filter (·.id ≠ o.id) = l := by
    refine List.filter_eq_self.mpr fun x hIn => decide_eq_true ?_
    intro hId
    exact hNew (List.mem_map.mpr ⟨x, hIn, hId⟩)
  rw [insertById, hSame, List.length_cons]

theorem removeById_of_notMem
    {id : OrderId} {l : List Order}
    (hNot : id ∉ l.map Order.id) :
    removeById id l = l := by
  refine List.filter_eq_self.mpr fun x hIn => decide_eq_true ?_
  intro hId
  exact hNot (List.mem_map.mpr ⟨x, hIn, hId⟩)

theorem length_removeById
    {id : OrderId} {l : List Order}
    (hNodup : (l.map Order.id).Nodup)
    (hIn : id ∈ l.map Order.id) :
    (removeById id l).length + 1 = l.length := by
  induction l with
  | nil => cases hIn
  | cons x l ih =>
      rw [List.map_cons, List.nodup_cons] at hNodup
      by_cases hId : x.id = id
      · subst hId
        have hRest : removeById x.id (x :: l) = removeById x.id l := by
          simp [removeById]
        rw [hRest, removeById_of_notMem hNodup.1, List.length_cons]
      · have hKeep :
            removeById id (x :: l) = x :: removeById id l := by
          simp [removeById, hId]
        have hLater : id ∈ l.map Order.id := by
          rcases List.mem_cons.mp hIn with hHead | hTail
          · exact absurd hHead.symm hId
          · exact hTail
        rw [hKeep, List.length_cons, List.length_cons,
          ih hNodup.2 hLater]

/- An operation leaves no identifier twice in the active map. -/
theorem nodup_active_op
    {op : Op} {env : Outcome} {s s' : State} {r : op.Resp}
    (hExec : State.exec op env s = some (r, s'))
    (hNodup : (s.maps.active.map Order.id).Nodup) :
    (s'.maps.active.map Order.id).Nodup := by
  have hFiltered :
      ∀ p : Order → Bool,
        ((s.maps.active.filter p).map Order.id).Nodup :=
    fun p => hNodup.sublist (List.filter_sublist.map _)
  have hElse :
      op.inserts = none → op.removes = none →
        (s'.maps.active.map Order.id).Nodup := by
    intro hInserts hRemoves
    rw [exec_active hInserts hRemoves hExec]
    exact hNodup
  cases op with
  | map op =>
      cases op with
      | activeInsert o =>
          rw [(exec_activeInsert hExec).2, insertById, List.map_cons,
            List.nodup_cons]
          refine ⟨fun hIn => ?_, hFiltered _⟩
          rcases List.mem_map.mp hIn with ⟨x, hX, hId⟩
          exact of_decide_eq_true (List.mem_filter.mp hX).2 hId
      | activeRemove id =>
          rw [(exec_activeRemove hExec).2]
          exact hFiltered _
      | activeValues | activeLock | activeUnlock | pendingPush max o
      | pendingRetain id | historyInsert o =>
          exact hElse rfl rfl
  | engine op | db op | chan op | metric op | chain op | sys op =>
      exact hElse rfl rfl

/- How many identifiers of `l` are not in `C`. -/
def outside (C l : List OrderId) : Nat :=
  l.countP (· ∉ C)

@[simp] theorem outside_nil
    (C : List OrderId) :
    outside C [] = 0 :=
  rfl

@[simp] theorem outside_append
    (C l l' : List OrderId) :
    outside C (l ++ l') = outside C l + outside C l' :=
  List.countP_append

theorem outside_perm
    {C l l' : List OrderId}
    (hPerm : l.Perm l') :
    outside C l = outside C l' :=
  hPerm.countP_eq _

/- One more identifier in `C` is one less that is not. -/
theorem outside_concat
    {C l : List OrderId} {id : OrderId}
    (hNodup : l.Nodup)
    (hIn : id ∈ l)
    (hNew : id ∉ C) :
    outside (C ++ [id]) l + 1 = outside C l := by
  have hPerm := List.perm_cons_erase hIn
  have hErase : id ∉ l.erase id := hNodup.not_mem_erase
  have hRest :
      outside (C ++ [id]) (l.erase id) = outside C (l.erase id) := by
    refine List.countP_congr fun x hX => ?_
    have hNe : x ≠ id := by
      rintro rfl
      exact hErase hX
    simp [hNe]
  rw [outside_perm hPerm, outside_perm hPerm]
  unfold outside at hRest ⊢
  rw [List.countP_cons, List.countP_cons, hRest]
  simp [hNew]

theorem delta_of_quiet
    {op : Op}
    (gauge : Gauge)
    (hQuiet : op.quiet = true) :
    op.delta gauge = 0 := by
  cases op with
  | metric op =>
      cases op with
      | count counter => rfl
      | inc g | dec g => cases hQuiet
  | _ => rfl

section Balance

variable {g g' : Book} {op : Op} {r : op.Resp}

/-
  What a move adds to the gauge of the pending orders, it adds
  to the orders that wait and those still to be counted off.
-/
theorem BookMove.pendingBalance
    {C : List OrderId}
    (hMove : BookMove g op r g')
    (hCounted : ∀ id, g.awaiting = some id → id ∉ C)
    (hSent :
      ∀ o, op.sends = some o →
        op.enqueues r = if g.ofPass = some true then none else some o)
    (hKept : ∀ id, op = .map (.pendingRetain id) → g' ≠ .dropped id) :
    op.delta .pendingOrders + outside C g.counting.toList +
        g.owing.toList.length =
      outside C ((op.enqueues r).toList.map Order.id) +
        outside C g'.counting.toList +
          (g'.owing.toList.length : Int) := by
  cases hMove with
  | quiet hQuiet =>
      rw [delta_of_quiet _ hQuiet, Op.enqueues_of_quiet hQuiet]
      simp
  | @push id max o pushed hId hStatus =>
      cases pushed <;> rfl
  | @count id u =>
      have hNew := hCounted id rfl
      simp [Op.delta, Op.enqueues, Book.counting, Book.owing, outside,
        hNew]
  | @send id o sent hId =>
      have hIn := hSent o rfl
      rw [hIn]
      subst hId
      simp [Op.delta, Book.counting, Book.owing, Book.ofPass]
  | @requeue id o sent hId =>
      have hOut := hSent o rfl
      rw [hOut]
      cases sent <;> rfl
  | @retain id dropped =>
      cases dropped with
      | false => rfl
      | true => exact absurd rfl (hKept id rfl)
  | @withdraw id r => cases r <;> rfl
  | _ => rfl

/-
  What a move adds to the gauge of the active orders, it adds to
  the entries, but for those still to be counted in or off.
-/
theorem BookMove.activeBalance
    {env : Outcome} {s s' : State}
    (hMove : BookMove g op r g')
    (hExec : State.exec op env s = some (r, s'))
    (hNodup : (s.maps.active.map Order.id).Nodup)
    (hNew : ∀ id, g = .arriving id → id ∉ s.maps.active.map Order.id)
    (hFound :
      ∀ id, op.removes = some id → g.ofPass = some true →
        id ∈ s.maps.active.map Order.id)
    (hUpdated : ∀ id, g = .withdrawn id → g' ≠ .idle) :
    op.delta .activeOrders + g'.fresh.toList.length +
        s.maps.active.length + g.gone.toList.length =
      g.fresh.toList.length + s'.maps.active.length +
        (g'.gone.toList.length : Int) := by
  have hSame :
      op.inserts = none → op.removes = none →
        s'.maps.active = s.maps.active :=
    fun hInserts hRemoves => exec_active hInserts hRemoves hExec
  have hTaken :
      ∀ id, op.removes = some id → id ∈ s.maps.active.map Order.id →
        s'.maps.active.length + 1 = s.maps.active.length := by
    intro id hRemoves hIn
    cases op with
    | map op =>
        cases op with
        | activeRemove id' =>
            cases hRemoves
            rw [(exec_activeRemove hExec).2]
            exact length_removeById hNodup hIn
        | _ => cases hRemoves
    | _ => cases hRemoves
  cases hMove with
  | quiet hQuiet =>
      rw [delta_of_quiet _ hQuiet, (exec_quiet hQuiet hExec).active]
      omega
  | @push id max o pushed hId hStatus =>
      rw [hSame rfl rfl]
      cases pushed <;> simp [Op.delta, Book.fresh, Book.gone]
  | @insert id o u hId hStatus =>
      have hLonger :
          s'.maps.active.length = s.maps.active.length + 1 := by
        rw [(exec_activeInsert hExec).2]
        refine length_insertById ?_
        rw [hId]
        exact hNew id rfl
      simp [Op.delta, Book.fresh, Book.gone, hLonger]
      omega
  | @requeue id o sent hId =>
      rw [hSame rfl rfl]
      cases sent <;> simp [Op.delta, Book.fresh, Book.gone]
  | @remove id r =>
      have hShorter := hTaken id rfl (hFound id rfl rfl)
      simp [Op.delta, Book.fresh, Book.gone]
      omega
  | @leave id r =>
      have hShorter := hTaken id rfl (hFound id rfl rfl)
      simp [Op.delta, Book.fresh, Book.gone]
      omega
  | @retain id dropped =>
      rw [hSame rfl rfl]
      cases dropped <;> simp [Op.delta, Book.fresh, Book.gone]
  | @withdraw id r =>
      rcases exec_activeRemove hExec with ⟨hResult, hActive⟩
      by_cases hIn : id ∈ s.maps.active.map Order.id
      · rcases findById_of_mem hIn with ⟨o, hO, _⟩
        have hShorter := hTaken id rfl hIn
        rw [hResult, hO]
        simp [Op.delta, Book.fresh, Book.gone]
        omega
      · rw [hResult, findById_of_notMem hIn, hActive,
          removeById_of_notMem hIn]
        simp [Op.delta, Book.fresh, Book.gone]
  | @giveUp id o e hStatus => exact absurd rfl (hUpdated id rfl)
  | draw | count | send hId | enter | unqueue | tell hId | uncount
  | archive hId | undo | discount | report hId =>
      rw [hSame rfl rfl]
      simp [Op.delta, Book.fresh, Book.gone]
      try omega

end Balance

end Pumpy
