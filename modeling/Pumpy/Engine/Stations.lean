import Pumpy.Engine.Bookkeeping
import Pumpy.Engine.Holding

/-
  Where an order is while its task keeps its books: with one
  task, or in the channel, and in the maps.  A quiet operation
  changes none of it; the others change what the books say.

  Key definitions include:
    * `BookRun`
    * `SameRecords`
    * `Book.station`
    * `Apart`

  The main results are `stationed_of_run` and, of an order that
  has yet to reach the active map, `Apart.afterOp` and
  `Apart.afterExt`.
-/

------------------------------------------------------------
-- Quiet Operations
------------------------------------------------------------

namespace Pumpy

open Interleaving

/- The runs of the order manager, as its bookkeeping allows them. -/
abbrev BookRun (om : OrderManager) :=
  Protocol.ShadowRun bookkeeping om.machine

/- The records of both states are the same. -/
structure SameRecords (s s' : State) : Prop where
  active : s'.maps.active = s.maps.active
  pending : s'.maps.pending = s.maps.pending
  history : s'.maps.history = s.maps.history
  gauges : ∀ gauge, s'.metrics.gauges gauge = s.metrics.gauges gauge

namespace Op

theorem enqueues_of_quiet
    {op : Op}
    (hQuiet : op.quiet = true)
    (r : op.Resp) :
    op.enqueues r = none := by
  cases op with
  | chan op => cases hQuiet
  | _ => rfl

theorem drawn_of_quiet
    {op : Op}
    (hQuiet : op.quiet = true)
    (r : op.Resp) :
    op.drawn r = none := by
  cases op with
  | sys op =>
      cases op with
      | newUuid => cases hQuiet
      | _ => rfl
  | _ => rfl

theorem inserts_of_quiet
    {op : Op}
    (hQuiet : op.quiet = true) :
    op.inserts = none := by
  cases op with
  | map op =>
      cases op with
      | activeInsert o => cases hQuiet
      | _ => rfl
  | _ => rfl

theorem removes_of_quiet
    {op : Op}
    (hQuiet : op.quiet = true) :
    op.removes = none := by
  cases op with
  | map op =>
      cases op with
      | activeRemove id => cases hQuiet
      | _ => rfl
  | _ => rfl

end Op

theorem exec_quiet
    {op : Op} {env : Outcome} {s s' : State} {r : op.Resp}
    (hQuiet : op.quiet = true)
    (hExec : State.exec op env s = some (r, s')) :
    SameRecords s s' := by
  constructor
  · exact exec_active (Op.inserts_of_quiet hQuiet)
      (Op.removes_of_quiet hQuiet) hExec
  · refine exec_pending ?_ ?_ hExec
    · rintro max o rfl
      cases hQuiet
    · rintro id rfl
      cases hQuiet
  · refine exec_history ?_ hExec
    rintro o rfl
    cases hQuiet
  · intro gauge
    rw [exec_gauges gauge hExec]
    have hDelta : op.delta gauge = 0 := by
      cases op with
      | metric op =>
          cases op with
          | count counter => rfl
          | inc g | dec g => cases hQuiet
      | _ => rfl
    rw [hDelta, Int.add_zero]

------------------------------------------------------------
-- Orders in the Maps
------------------------------------------------------------

theorem findById_of_mem
    {id : OrderId} {l : List Order}
    (hMem : id ∈ l.map Order.id) :
    ∃ o, findById id l = some o ∧ o ∈ l ∧ o.id = id := by
  rcases List.mem_map.mp hMem with ⟨x, hIn, hId⟩
  have hFound : (l.find? (·.id = id)).isSome = true :=
    List.find?_isSome.mpr ⟨x, hIn, by simp [hId]⟩
  rcases Option.isSome_iff_exists.mp hFound with ⟨o, hO⟩
  refine ⟨o, hO, List.mem_of_find?_eq_some hO, ?_⟩
  simpa using List.find?_some hO

theorem findById_of_notMem
    {id : OrderId} {l : List Order}
    (hNotMem : id ∉ l.map Order.id) :
    findById id l = none := by
  refine List.find?_eq_none.mpr fun x hIn hId => ?_
  exact hNotMem (List.mem_map.mpr ⟨x, hIn, by simpa using hId⟩)

theorem mem_insertById
    {id : OrderId} {o : Order} {l : List Order} :
    id ∈ (insertById o l).map Order.id ↔
      id = o.id ∨ id ∈ l.map Order.id := by
  simp only [insertById, List.map_cons, List.mem_cons, List.mem_map,
    List.mem_filter, decide_eq_true_eq]
  constructor
  · rintro (hNew | ⟨x, ⟨hIn, _⟩, hId⟩)
    · exact .inl hNew
    · exact .inr ⟨x, hIn, hId⟩
  · rintro (hNew | ⟨x, hIn, hId⟩)
    · exact .inl hNew
    · by_cases hSame : id = o.id
      · exact .inl hSame
      · exact .inr ⟨x, ⟨hIn, by rwa [hId]⟩, hId⟩

theorem mem_removeById
    {id id' : OrderId} {l : List Order} :
    id ∈ (removeById id' l).map Order.id ↔
      id ∈ l.map Order.id ∧ id ≠ id' := by
  simp only [removeById, List.mem_map, List.mem_filter,
    decide_eq_true_eq]
  constructor
  · rintro ⟨x, ⟨hIn, hNe⟩, rfl⟩
    exact ⟨⟨x, hIn, rfl⟩, hNe⟩
  · rintro ⟨⟨x, hIn, rfl⟩, hNe⟩
    exact ⟨x, ⟨hIn, hNe⟩, rfl⟩

/- Taking out an order that is not there changes no membership. -/
theorem mem_removeById_of_absent
    {id id' : OrderId} {l : List Order}
    (hAbsent : id' = id → ∀ x ∈ l, x.id ≠ id) :
    id ∈ (removeById id' l).map Order.id ↔ id ∈ l.map Order.id := by
  rw [mem_removeById]
  constructor
  · exact fun hBoth => hBoth.1
  · intro hIn
    refine ⟨hIn, fun hSame => ?_⟩
    rcases List.mem_map.mp hIn with ⟨x, hX, hId⟩
    exact hAbsent hSame.symm x hX hId

/- The order an operation has put among the pending ones. -/
def Op.pushes : (op : Op) → op.Resp → Option Order
  | .map (.pendingPush _ o), pushed =>
      if pushed = true then some o else none
  | _, _ => none

section Maps

variable {op : Op} {env : Outcome} {r : op.Resp}
variable {s s' : State} {id : OrderId}

/- Where a pending order comes from. -/
theorem mem_pending_op
    {x : Order}
    (hExec : State.exec op env s = some (r, s'))
    (hMem : x ∈ s'.maps.pending) :
    x ∈ s.maps.pending ∨ op.pushes r = some x := by
  have hOther :
      (∀ max o, op ≠ .map (.pendingPush max o)) →
        (∀ id, op ≠ .map (.pendingRetain id)) →
          x ∈ s.maps.pending := by
    intro hPush hRetain
    rw [exec_pending hPush hRetain hExec] at hMem
    exact hMem
  cases op with
  | map op =>
      cases op with
      | pendingPush max o =>
          rcases exec_pendingPush hExec with
            ⟨_, rfl, rfl⟩ | ⟨_, rfl, rfl⟩
          · exact .inl hMem
          · rcases List.mem_append.mp hMem with hOld | hNew
            · exact .inl hOld
            · rw [List.mem_singleton.mp hNew]
              exact .inr rfl
      | pendingRetain id =>
          rw [(exec_pendingRetain hExec).2] at hMem
          exact .inl (List.mem_filter.mp hMem).1
      | activeInsert o | activeValues | activeLock | activeRemove id
      | activeUnlock | historyInsert o =>
          exact .inl (hOther (by simp) (by simp))
  | engine op | db op | chan op | metric op | chain op | sys op =>
      exact .inl (hOther (by simp) (by simp))

/- An order that was pushed is pending. -/
theorem exec_pushes
    {o : Order}
    (hExec : State.exec op env s = some (r, s'))
    (hPushes : op.pushes r = some o) :
    o ∈ s'.maps.pending := by
  cases op with
  | map op =>
      cases op with
      | pendingPush max o' =>
          rcases exec_pendingPush hExec with
            ⟨_, rfl, _⟩ | ⟨_, rfl, rfl⟩
          · cases hPushes
          · cases hPushes
            exact List.mem_append_right _ (List.mem_singleton_self o)
      | _ => cases hPushes
  | _ => cases hPushes

/- A pending order stays, unless it is taken out. -/
theorem keeps_pending_op
    (hExec : State.exec op env s = some (r, s'))
    (hRetain :
      op = .map (.pendingRetain id) →
        ∀ x ∈ s.maps.pending, x.id ≠ id)
    (hMem : id ∈ s.maps.pending.map Order.id) :
    id ∈ s'.maps.pending.map Order.id := by
  have hOther :
      (∀ max o, op ≠ .map (.pendingPush max o)) →
        (∀ id, op ≠ .map (.pendingRetain id)) →
          id ∈ s'.maps.pending.map Order.id := by
    intro hPush hNever
    rw [exec_pending hPush hNever hExec]
    exact hMem
  cases op with
  | map op =>
      cases op with
      | pendingPush max o =>
          rcases exec_pendingPush hExec with
            ⟨_, _, rfl⟩ | ⟨_, _, rfl⟩
          · exact hMem
          · rw [List.map_append]
            exact List.mem_append_left _ hMem
      | pendingRetain id' =>
          rw [(exec_pendingRetain hExec).2]
          refine (mem_removeById_of_absent fun hSame => ?_).mpr hMem
          exact hRetain (by rw [hSame])
      | activeInsert o | activeValues | activeLock | activeRemove id
      | activeUnlock | historyInsert o =>
          exact hOther (by simp) (by simp)
  | engine op | db op | chan op | metric op | chain op | sys op =>
      exact hOther (by simp) (by simp)

end Maps

------------------------------------------------------------
-- Orders and their Tasks
------------------------------------------------------------

namespace Book

/- The order a task has, until it sends it or takes it out. -/
def station : Book → Option OrderId
  | drawn id => some id
  | pushed id => some id
  | counted id => some id
  | arriving id => some id
  | inserted id => some id
  | entered id => some id
  | running id _ => some id
  | _ => none

/- The order a task has that is not in the active map yet. -/
def before : Book → Option OrderId
  | drawn id => some id
  | pushed id => some id
  | counted id => some id
  | arriving id => some id
  | _ => none

/- The order a submission has put among the pending ones. -/
def listed : Book → Option OrderId
  | pushed id => some id
  | counted id => some id
  | _ => none

theorem station_of_before
    {g : Book} {id : OrderId}
    (hBefore : g.before = some id) :
    g.station = some id := by
  cases g <;> first | exact hBefore | cases hBefore

end Book

theorem station_start
    (root : Root) :
    (bookkeeping.start root).station = root.carried := by
  cases root <;> rfl

theorem before_start
    (root : Root) :
    (bookkeeping.start root).before = root.carried := by
  cases root <;> rfl

section Moves

variable {g g' : Book} {op : Op} {r : op.Resp}

/- A move hands the order of its task on. -/
theorem BookMove.hands
    (hMove : BookMove g op r g') :
    Hands Book.station g op r g' := by
  cases hMove with
  | quiet hQuiet =>
      exact .keeps (Op.enqueues_of_quiet hQuiet r)
        (Op.drawn_of_quiet hQuiet r) rfl
  | draw => exact .draws rfl rfl rfl rfl
  | @push id max o pushed hId hStatus =>
      cases pushed with
      | true => exact .keeps rfl rfl rfl
      | false => exact .drops rfl rfl rfl
  | @send id o sent hId =>
      subst hId
      cases sent with
      | true => exact .sends rfl rfl rfl rfl
      | false => exact .drops rfl rfl rfl
  | @requeue id o sent hId =>
      subst hId
      cases sent with
      | true => exact .sends rfl rfl rfl rfl
      | false => exact .keeps rfl rfl rfl
  | remove => exact .drops rfl rfl rfl
  | @retain id dropped =>
      cases dropped <;> exact .keeps rfl rfl rfl
  | @withdraw id r =>
      cases r <;> exact .keeps rfl rfl rfl
  | _ => exact .keeps rfl rfl rfl

/- Where an order comes from that is not in the active map yet. -/
theorem BookMove.before
    {id : OrderId}
    (hMove : BookMove g op r g')
    (hBefore : g'.before = some id) :
    g.before = some id ∨ op.drawn r = some id := by
  cases hMove with
  | quiet hQuiet => exact .inl hBefore
  | draw =>
      cases hBefore
      exact .inr rfl
  | @push id' max o pushed hId hStatus =>
      cases pushed with
      | true => exact .inl hBefore
      | false => cases hBefore
  | count => exact .inl hBefore
  | @requeue id' o sent hId => cases sent <;> cases hBefore
  | @retain id' dropped => cases dropped <;> cases hBefore
  | @withdraw id' r => cases r <;> cases hBefore
  | _ => cases hBefore

/- Only a submission, or a pass that tries again, sends an order. -/
theorem BookMove.enqueues
    {o : Order}
    (hMove : BookMove g op r g')
    (hEnqueues : op.enqueues r = some o) :
    g = .counted o.id ∨ g = .running o.id true := by
  cases hMove with
  | quiet hQuiet =>
      rw [Op.enqueues_of_quiet hQuiet r] at hEnqueues
      cases hEnqueues
  | @send id o' sent hId =>
      simp only [Op.enqueues, Option.ite_none_right_eq_some]
        at hEnqueues
      rcases hEnqueues with ⟨_, hEq⟩
      cases hEq
      exact .inl (by rw [hId])
  | @requeue id o' sent hId =>
      simp only [Op.enqueues, Option.ite_none_right_eq_some]
        at hEnqueues
      rcases hEnqueues with ⟨_, hEq⟩
      cases hEq
      exact .inr (by rw [hId])
  | _ => cases hEnqueues

/- Only a pass that begins puts an order into the active map. -/
theorem BookMove.inserts
    {o : Order}
    (hMove : BookMove g op r g')
    (hInserts : op.inserts = some o) :
    g = .arriving o.id ∧ g' = .inserted o.id ∧
      o.status = .validating := by
  cases hMove with
  | quiet hQuiet =>
      rw [Op.inserts_of_quiet hQuiet] at hInserts
      cases hInserts
  | @insert id o' u hId hStatus =>
      cases hInserts
      subst hId
      exact ⟨rfl, rfl, hStatus⟩
  | _ => cases hInserts

/- Only the submission that has drawn it pushes an order. -/
theorem BookMove.pushes
    {o : Order}
    (hMove : BookMove g op r g')
    (hPushes : op.pushes r = some o) :
    g = .drawn o.id ∧ g' = .pushed o.id ∧ o.status = .pending := by
  cases hMove with
  | @quiet _ op _ hQuiet =>
      cases op with
      | map op => cases op <;> first | cases hPushes | cases hQuiet
      | _ => cases hPushes
  | @push id max o' pushed hId hStatus =>
      simp only [Op.pushes, Option.ite_none_right_eq_some] at hPushes
      rcases hPushes with ⟨hPushed, hEq⟩
      cases hEq
      subst hId
      exact ⟨rfl, if_pos hPushed, hStatus⟩
  | _ => cases hPushes

/- A submission lists its order by a push. -/
theorem BookMove.listed
    {id : OrderId}
    (hMove : BookMove g op r g')
    (hListed : g'.listed = some id) :
    g.listed = some id ∨ ∃ o, op.pushes r = some o ∧ o.id = id := by
  cases hMove with
  | quiet hQuiet => exact .inl hListed
  | @push id' max o pushed hId hStatus =>
      cases pushed with
      | true =>
          cases hListed
          exact .inr ⟨o, rfl, hId⟩
      | false => cases hListed
  | count => exact .inl hListed
  | @requeue id' o sent hId => cases sent <;> cases hListed
  | @retain id' dropped => cases dropped <;> cases hListed
  | @withdraw id' r => cases r <;> cases hListed
  | _ => cases hListed

end Moves

/- In every run, no order is with two tasks, or with one and queued. -/
theorem stationed_of_run
    {om : OrderManager} {C : OmCond} {db : Database}
    {chain : Chain} {seenIds : List OrderId} {tr : List OmEvent}
    {s : State} {shs : List (Shadow Root Book)}
    (hRun : BookRun om C (State.boot db chain seenIds) tr s shs) :
    OwnedBy Book.station s shs :=
  ownedBy_of_shadowRun station_start
    (fun _ _ _ _ hMove => BookMove.hands hMove) hRun

------------------------------------------------------------
-- Orders before their Pass
------------------------------------------------------------

/-
  The active map does not hold an order that has yet to reach
  it, and holds it under an identifier that is in use.
-/
structure Apart
    (id : OrderId)
    (s : State)
    (shs : List (Shadow Root Book)) : Prop where
  apart :
    id ∈ holdersBy Book.before s shs →
      id ∉ s.maps.active.map Order.id
  seen : id ∈ s.maps.active.map Order.id → id ∈ s.seenIds

section Apart

variable {om : OrderManager} {id : OrderId} {s s' : State}
variable {shs : List (Shadow Root Book)}
variable {tid : Nat} {root : Root} {g g' : Book}
variable {op : Op} {env : Outcome} {r : op.Resp}

/- Where an order comes from that has yet to reach the active map. -/
theorem mem_before_op
    (hPhase : shs[tid]? = some ⟨root, some g⟩)
    (hMove : BookMove g op r g')
    (hExec : State.exec op env s = some (r, s'))
    (hMem :
      id ∈ holdersBy Book.before s'
        (afterOp bookkeeping shs tid root g' op)) :
    id ∈ holdersBy Book.before s shs ∨ op.drawn r = some id ∨
      (g = .running id true ∧ op.enqueues r ≠ none) := by
  have hOwn :
      g.before = some id → id ∈ holdersBy Book.before s shs :=
    fun hBefore => List.mem_append_right _
      (Protocol.mem_held.mpr ⟨tid, root, g, hPhase, hBefore⟩)
  rcases List.mem_append.mp hMem with hQueued | hHeld
  · rw [exec_queue hExec, List.map_append] at hQueued
    rcases List.mem_append.mp hQueued with hOld | hNew
    · exact .inl (List.mem_append_left _ hOld)
    · cases hEnqueues : op.enqueues r with
      | none => simp [hEnqueues] at hNew
      | some o =>
          have hId : id = o.id := by simpa [hEnqueues] using hNew
          subst hId
          rcases hMove.enqueues hEnqueues with rfl | rfl
          · exact .inl (hOwn rfl)
          · exact .inr (.inr ⟨rfl, by simp⟩)
  · rcases mem_held_afterOp (fun _ _ => rfl) hHeld with
      hSelf | ⟨tid', root', g₁, _, hAt, hBefore⟩
    · rcases hMove.before hSelf with hBefore | hDrawn
      · exact .inl (hOwn hBefore)
      · exact .inr (.inl hDrawn)
    · exact .inl (List.mem_append_right _
        (Protocol.mem_held.mpr ⟨tid', root', g₁, hAt, hBefore⟩))

/- What an operation leaves in the active map, by identifier. -/
theorem mem_active_op
    (hMove : BookMove g op r g')
    (hExec : State.exec op env s = some (r, s'))
    (hMem : id ∈ s'.maps.active.map Order.id) :
    (g = .arriving id ∧ g' = .inserted id) ∨
      id ∈ s.maps.active.map Order.id := by
  rcases List.mem_map.mp hMem with ⟨x, hIn, rfl⟩
  rcases exec_mem_active hExec hIn with hInserts | ⟨hOld, _⟩
  · rcases hMove.inserts hInserts with ⟨hBefore, hAfter, _⟩
    exact .inl ⟨hBefore, hAfter⟩
  · exact .inr (List.mem_map_of_mem hOld)

/- A pass that tries again brings its order back; nothing else does. -/
theorem Apart.afterOp
    (hApart : Apart id s shs)
    (hOwned : OwnedBy Book.station s shs)
    (hPhase : shs[tid]? = some ⟨root, some g⟩)
    (hMove : BookMove g op r g')
    (hExec : State.exec op env s = some (r, s'))
    (hOnce : g = .running id true → op.enqueues r = none) :
    Apart id s' (Pumpy.afterOp bookkeeping shs tid root g' op) := by
  rcases exec_seenIds hExec with ⟨hFresh, hSeen⟩
  constructor
  · intro hBefore hActive
    rcases mem_active_op hMove hExec hActive with ⟨rfl, rfl⟩ | hOld
    · -- the pass that has entered the order was its only holder
      have hAfter : OwnedBy Book.station s'
          (Pumpy.afterOp bookkeeping shs tid root (.inserted id) op) :=
        hOwned.afterOp (fun _ _ => rfl) hPhase hMove.hands hExec
      have hSelf :
          (Pumpy.afterOp bookkeeping shs tid root (.inserted id)
            op)[tid]? = some ⟨root, some (.inserted id)⟩ :=
        afterOp_self hPhase
      rcases List.mem_append.mp hBefore with hQueued | hHeld
      · exact hAfter.not_queued hSelf rfl hQueued
      · rcases Protocol.mem_held.mp hHeld with
          ⟨tid', root', g₁, hAt, hHolds⟩
        have hSame : tid = tid' :=
          hAfter.unique hSelf hAt rfl (Book.station_of_before hHolds)
        subst hSame
        rw [hSelf] at hAt
        cases hAt
        cases hHolds
    · rcases mem_before_op hPhase hMove hExec hBefore with
        hWas | hDrawn | ⟨hRunning, hSent⟩
      · exact hApart.apart hWas hOld
      · exact hFresh id hDrawn (hApart.seen hOld)
      · exact hSent (hOnce hRunning)
  · intro hActive
    rw [hSeen]
    apply List.mem_append_right
    rcases mem_active_op hMove hExec hActive with ⟨rfl, _⟩ | hOld
    · exact hOwned.seen_of_held hPhase rfl
    · exact hApart.seen hOld

theorem Apart.afterExt
    {e : Ext}
    (hApart : Apart id s shs)
    (hExt : Ext.exec e s = some s') :
    Apart id s' (Pumpy.afterExt om bookkeeping shs e) := by
  by_cases hRestart : e = .restart
  · subst hRestart
    cases hExt
    constructor
    · intro _ hActive
      cases hActive
    · intro hActive
      cases hActive
  · have hMaps := active_ext hRestart hExt
    rcases holdersBy_ext om shs before_start hExt with ⟨gone, hPerm⟩
    constructor
    · intro hBefore
      rw [hMaps]
      exact hApart.apart
        (hPerm.mem_iff.mpr (List.mem_append_right _ hBefore))
    · intro hActive
      rw [hMaps] at hActive
      exact seenIds_ext hExt _ (hApart.seen hActive)

end Apart

end Pumpy
