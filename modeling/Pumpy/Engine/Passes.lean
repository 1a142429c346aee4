import Pumpy.Engine.History

/-
  Passes and the active map.  A pass is under way from the
  moment its order comes off the channel until it returns,
  and it takes its entry out of the active map itself, unless
  it returns early.

  Key definitions include:
    * `UnderWay`
    * `PassUnderWay`
    * `Phase.entry`
    * `Tended`
    * `LockHeld`

  The main results are `tended_of_shadowRun` and
  `lockHeld_of_shadowRun`.
-/

------------------------------------------------------------
-- Passes Under Way
------------------------------------------------------------

namespace Pumpy

open Interleaving

/- The tracked runs of the order manager. -/
abbrev OmTrackedRun (om : OrderManager) :=
  Protocol.TrackedRun om.lifecycle om.machine fun _ g => Phase.mayReturn g

/- The pass of the order has neither returned nor been dropped. -/
def UnderWay
    (om : OrderManager)
    (s₀ : State)
    (tr : List OmEvent)
    (tid : Nat)
    (o : Order) : Prop :=
  ∃ (c : OmConfig) (p : OmProg Ret),
    Machine.Run om.machine Machine.anyStep s₀ tr c ∧
      c.tasks[tid]? = some ⟨.processOrder o, some p⟩ ∧
        ∀ r, p ≠ .done r

/- Some pass of the order is under way. -/
def PassUnderWay
    (om : OrderManager)
    (s₀ : State)
    (tr : List OmEvent)
    (id : OrderId) : Prop :=
  ∃ tid o, UnderWay om s₀ tr tid o ∧ o.id = id

section UnderWay

variable {om : OrderManager} {C : OmCond} {s₀ : State}
variable {tr : List OmEvent} {c : OmConfig}
variable {shs : List (Shadow Root Phase)}
variable {tid : Nat} {g g' : Phase} {op : Op} {r : op.Resp}
variable {o : Order}

/- A task that is over stays over. -/
theorem OrderManager.Move.mayReturn
    (hOver : g.mayReturn)
    (hMove : om.Move g op r g') :
    g'.mayReturn := by
  cases hMove with
  | idle hNeutral hOpen => exact hOver
  | announce hOp hMay => exact hOver
  | pause => trivial
  | close hId hMay =>
      cases g with
      | pausing => exact hMay.elim
      | finished => exact hMay.elim
      | _ => exact hOver.elim
  | _ => exact hOver.elim

/- A task in its last phase does nothing more. -/
theorem OrderManager.Move.not_ended
    (hMove : om.Move g op r g') :
    g.ended = false := by
  cases hMove with
  | idle hNeutral hOpen => exact hOpen
  | announce hOp hMay =>
      cases g with
      | finished => exact hMay.elim
      | _ => rfl
  | close hId hMay => exact Phase.ended_of_mayClose hMay
  | _ => rfl

/- A pass that is not over is under way. -/
theorem underWay_of_shadow
    (hRun : OmTrackedRun om C s₀ tr c shs)
    (hAt : shs[tid]? = some ⟨.processOrder o, some g⟩)
    (hOpen : ¬g.mayReturn) :
    UnderWay om s₀ tr tid o := by
  rcases hRun.task_of_shadow hAt with ⟨⟨root, prog⟩, hTask, hRoot, hTracks⟩
  have hPass : root = .processOrder o := hRoot
  subst hPass
  cases prog with
  | none => exact hTracks.elim
  | some p =>
      refine ⟨c, p, hRun.run.mono fun _ _ _ _ => trivial, hTask, ?_⟩
      rintro r rfl
      exact hOpen hTracks

/- Where no pass of its order is under way, a pass is over. -/
theorem over_of_not_underWay
    {id : OrderId}
    (hRun : OmTrackedRun om C s₀ tr c shs)
    (hAlone : ¬PassUnderWay om s₀ tr id)
    (hAt : shs[tid]? = some ⟨.processOrder o, some g⟩)
    (hId : o.id = id) :
    g.mayReturn := by
  by_contra hOpen
  exact hAlone ⟨tid, o, underWay_of_shadow hRun hAt hOpen, hId⟩

end UnderWay

------------------------------------------------------------
-- Tended Entries
------------------------------------------------------------

namespace Phase

/- The order of a pass that has let go of it, still in the map. -/
def letGo : Phase → Option OrderId
  | raising .execution o _ d => if d.isAllow then none else some o.id
  | issuing .execution o _ d => if d.isAllow then none else some o.id
  | refused o => some o.id
  | _ => none

/- The entry a pass will still take out of the active map. -/
def entry : Phase → Option Order
  | reading .execution o => some o
  | deciding .execution o _ _ => some o
  | raising .execution o _ _ => some o
  | issuing .execution o _ _ => some o
  | executing o _ _ => some o
  | refused o => some o
  | exiting o .arriving => some o
  | exiting o .holding => some o
  | _ => none

/- The order whose entry a pass will still take out. -/
def tends (g : Phase) : Option OrderId :=
  g.entry.map Order.id

end Phase

section Moves

variable {om : OrderManager} {g g' : Phase} {op : Op} {r : op.Resp}
variable {id : OrderId}

theorem letGo_of_settled
    {gate : Gate} {o : Order} {active : List Order} {d : Decision}
    (hGone : (Phase.settled gate o active d).letGo = some id) :
    (Phase.raising gate o active d).letGo = some id := by
  cases gate <;> cases hAllow : d.isAllow <;>
    simp_all [Phase.settled, Phase.letGo]

/- A pass lets go of its order when it is refused. -/
theorem OrderManager.Move.letGo
    (hMove : om.Move g op r g')
    (hGone : g'.letGo = some id) :
    g.letGo = some id ∨
      (g.carries = some id ∧ g'.carries = none ∧ op.sends = none) := by
  cases hMove with
  | idle hNeutral hOpen => exact .inl hGone
  | announce hOp hMay => exact .inl hGone
  | @emit gate o active stage rec hId hMay =>
      cases gate with
      | submission => cases hGone
      | execution =>
          right
          cases hAllow : rec.decision.isAllow with
          | true =>
              simp [Phase.decided, Phase.letGo, hAllow] at hGone
          | false =>
              simp [Phase.decided, Phase.letGo, hAllow] at hGone
              simp [Phase.decided, Phase.carries, Op.sends, hAllow,
                hGone]
  | @take gate o active d b =>
      cases b with
      | true => cases gate <;> exact .inl hGone
      | false => exact .inl (letGo_of_settled hGone)
  | @issue gate o active d reason n =>
      have hBefore := letGo_of_settled hGone
      cases gate <;> exact .inl hBefore
  | @check o active d b => cases b <;> cases hGone
  | status => split at hGone <;> cases hGone
  | store hId hStatus => split at hGone <;> cases hGone
  | push hId => split at hGone <;> cases hGone
  | close hId hMay => split at hGone <;> cases hGone
  | _ => cases hGone

/- What is settled keeps its entry. -/
theorem entry_of_settled
    {gate : Gate} {o : Order} {active : List Order} {d : Decision} :
    (Phase.settled gate o active d).entry =
      (Phase.raising gate o active d).entry := by
  cases gate <;> cases hAllow : d.isAllow <;>
    simp [Phase.settled, Phase.entry, hAllow]

theorem tends_of_settled
    {gate : Gate} {o : Order} {active : List Order} {d : Decision}
    (hTends : (Phase.raising gate o active d).tends = some id) :
    (Phase.settled gate o active d).tends = some id := by
  unfold Phase.tends
  rw [entry_of_settled]
  exact hTends

/-
  A pass tends its entry until it takes it out, or until it
  returns early, and then it has let go of its order.
-/
theorem OrderManager.Move.tends
    (hMove : om.Move g op r g')
    (hTends : g.tends = some id) :
    g'.tends = some id ∨ op.removes = some id ∨
      (g'.carries = none ∧ op.sends = none ∧
        (g.carries = some id ∨ g.letGo = some id)) := by
  cases hMove with
  | idle hNeutral hOpen => exact .inl hTends
  | announce hOp hMay => exact .inl hTends
  | @read gate o active => cases gate <;> exact .inl hTends
  | @load gate o active b => cases gate <;> exact .inl hTends
  | @reject gate o active n => cases gate <;> exact .inl hTends
  | @latch gate o active b => cases gate <;> exact .inl hTends
  | @flag gate o active => cases gate <;> exact .inl hTends
  | @clear gate o active hCleared => cases gate <;> exact .inl hTends
  | @emit gate o active stage rec hId hMay =>
      cases gate with
      | submission => cases hTends
      | execution => exact .inl hTends
  | @take gate o active d b =>
      cases b with
      | true => cases gate <;> exact .inl hTends
      | false => exact .inl (tends_of_settled hTends)
  | @issue gate o active d reason n =>
      cases gate with
      | submission => cases hTends
      | execution => exact .inl (tends_of_settled hTends)
  | @close g o o' r hId hMay =>
      cases r with
      | ok u =>
          left
          cases g with
          | reading gate v =>
              cases gate with
              | submission => exact hMay.elim
              | execution =>
                  rcases hMay with ⟨rfl, _⟩
                  exact hTends
          | refused v =>
              rcases hMay with ⟨rfl, _⟩
              exact hTends
          | executing v active live =>
              rcases hMay with ⟨rfl, _⟩
              exact hTends
          | _ => exact hMay.elim
      | error e =>
          refine .inr (.inr ⟨rfl, rfl, ?_⟩)
          cases g with
          | reading gate v =>
              cases gate with
              | submission => exact hMay.elim
              | execution => exact .inl hTends
          | refused v => exact .inr hTends
          | executing v active live => exact .inl hTends
          | _ => exact hMay.elim
  | bundle | direct | poll | deadline => exact .inl hTends
  | requeue hId => exact .inl hTends
  | exitLock => exact .inl hTends
  | exitRemove hId =>
      refine .inr (.inl ?_)
      rw [hId]
      exact hTends
  | @check o active d b => cases hTends
  | status => cases hTends
  | _ => cases hTends

/- An entry is tended by a pass of its order. -/
theorem pass_of_tends
    {tr : List OmEvent} {tid : Nat} {root : Root}
    (hHistory : History om tr tid root g)
    (hTends : g.tends = some id) :
    ∃ o, root = .processOrder o ∧ o.id = id := by
  have hPassOf : ∃ v : Order, v.id = id ∧ PassOf root v := by
    cases g with
    | reading gate v =>
        cases gate with
        | submission => cases hTends
        | execution => exact ⟨v, Option.some.inj hTends, hHistory.1⟩
    | deciding gate v active stage =>
        cases gate with
        | submission => cases hTends
        | execution => exact ⟨v, Option.some.inj hTends, hHistory.1⟩
    | raising gate v active d =>
        cases gate with
        | submission => cases hTends
        | execution => exact ⟨v, Option.some.inj hTends, hHistory.1⟩
    | issuing gate v active d =>
        cases gate with
        | submission => cases hTends
        | execution => exact ⟨v, Option.some.inj hTends, hHistory.1⟩
    | executing v active live =>
        exact ⟨v, Option.some.inj hTends, hHistory.1⟩
    | refused v => exact ⟨v, Option.some.inj hTends, hHistory⟩
    | exiting v stage =>
        cases stage with
        | removed => cases hTends
        | arriving | holding =>
            exact ⟨v, Option.some.inj hTends, hHistory⟩
    | _ => cases hTends
  rcases hPassOf with ⟨v, hId, o, hRoot, rfl⟩
  exact ⟨o, hRoot, hId⟩

/- Only the pass itself puts an order into the map. -/
theorem OrderManager.Move.inserts
    {o : Order}
    (hMove : om.Move g op r g')
    (hInserts : op.inserts = some o) :
    g.carries = some o.id ∧ g'.tends = some o.id := by
  cases hMove with
  | idle hNeutral hOpen =>
      rw [(Op.inert_of_neutral hNeutral).inserts] at hInserts
      cases hInserts
  | announce hOp hMay =>
      rw [(Op.inert_of_announces hOp).inserts] at hInserts
      cases hInserts
  | enter =>
      cases hInserts
      exact ⟨rfl, rfl⟩
  | _ => cases hInserts

end Moves

/-
  What is known of an entry of the active map: its identifier
  is in use, and as long as its order has a holder, a pass
  will take the entry out.
-/
structure Tended
    (s : State)
    (shs : List (Shadow Root Phase)) : Prop where
  seen : ∀ x ∈ s.maps.active, x.id ∈ s.seenIds
  tended :
    ∀ x ∈ s.maps.active, x.id ∈ holders s shs →
      x.id ∈ Protocol.held Phase.tends shs
  letGo :
    ∀ id ∈ Protocol.held Phase.letGo shs,
      id ∈ s.seenIds ∧ id ∉ holders s shs

section Steps

variable {om : OrderManager} {s s' : State}
variable {shs : List (Shadow Root Phase)}
variable {tid : Nat} {root : Root} {g g' : Phase}
variable {op : Op} {env : Outcome} {r : op.Resp}

theorem Tended.afterOp
    (hTended : Tended s shs)
    (hOwned : Owned s shs)
    (hPhase : shs[tid]? = some ⟨root, some g⟩)
    (hMove : om.Move g op r g')
    (hExec : State.exec op env s = some (r, s')) :
    Tended s' (shadowsAfter om shs tid root g' op) := by
  have hSeen' : ∀ id ∈ s.seenIds, id ∈ s'.seenIds := by
    intro id hMem
    rw [(exec_seenIds hExec).2]
    exact List.mem_append_right _ hMem
  have hSelf :
      (shadowsAfter om shs tid root g' op)[tid]? =
        some ⟨root, some g'⟩ :=
    shadowsAfter_self hPhase
  constructor
  · intro x hMem
    rcases exec_mem_active hExec hMem with hInserts | ⟨hOld, _⟩
    · have hCarries := (hMove.inserts hInserts).1
      apply hSeen'
      apply hOwned.seen
      apply List.mem_append_right
      exact Protocol.mem_held.mpr ⟨tid, root, g, hPhase, hCarries⟩
    · exact hSeen' _ (hTended.seen x hOld)
  · intro x hMem hHeld'
    rcases exec_mem_active hExec hMem with hInserts | ⟨hOld, hKept⟩
    · have hTends := (hMove.inserts hInserts).2
      exact Protocol.mem_held.mpr ⟨tid, root, g', hSelf, hTends⟩
    · have hSeen := hTended.seen x hOld
      have hHeld : x.id ∈ holders s shs := by
        by_contra hNot
        exact not_holder_op hPhase hMove hExec hSeen hNot hHeld'
      rcases Protocol.mem_held.mp (hTended.tended x hOld hHeld) with
        ⟨tid', root', g₁, hAt, hTends⟩
      by_cases hTid : tid' = tid
      · subst hTid
        rw [hPhase] at hAt
        cases hAt
        rcases hMove.tends hTends with
          hStill | hRemoved | ⟨hReleased, hSends, hWhy⟩
        · exact Protocol.mem_held.mpr ⟨tid', root, g', hSelf, hStill⟩
        · exact absurd hRemoved hKept
        · rcases hWhy with hCarried | hGone
          · exact absurd hHeld'
              (hOwned.released hPhase hExec hCarried hReleased hSends)
          · have hLet :=
              hTended.letGo x.id
                (Protocol.mem_held.mpr ⟨tid', root, g, hPhase, hGone⟩)
            exact absurd hHeld hLet.2
      · exact Protocol.mem_held.mpr
          ⟨tid', root', g₁, shadowsAfter_other hTid hAt, hTends⟩
  · intro id hMem
    have hKeep :
        ∀ (tid' : Nat) (root' : Root) (g₁ : Phase),
          shs[tid']? = some ⟨root', some g₁⟩ → g₁.letGo = some id →
            id ∈ s'.seenIds ∧
              id ∉ holders s' (shadowsAfter om shs tid root g' op) := by
      intro tid' root' g₁ hAt hGone
      rcases hTended.letGo id
        (Protocol.mem_held.mpr ⟨tid', root', g₁, hAt, hGone⟩) with
        ⟨hSeen, hNot⟩
      exact ⟨hSeen' _ hSeen,
        not_holder_op hPhase hMove hExec hSeen hNot⟩
    rcases mem_held_shadowsAfter rfl hMem with
      hOwn | ⟨tid', root', g₁, _, hAt, hGone⟩
    · rcases hMove.letGo hOwn with hBefore | ⟨hCarried, hReleased, hSends⟩
      · exact hKeep tid root g hPhase hBefore
      · refine ⟨hSeen' _ (hOwned.seen _ ?_),
          hOwned.released hPhase hExec hCarried hReleased hSends⟩
        apply List.mem_append_right
        exact Protocol.mem_held.mpr ⟨tid, root, g, hPhase, hCarried⟩
    · exact hKeep tid' root' g₁ hAt hGone

/- After a restart no task holds anything. -/
theorem held_restart
    {β : Type}
    (f : Phase → Option β) :
    Protocol.held f (shadowsAfterExt om shs .restart) = [] :=
  held_afterExt_restart (P := om.lifecycle) f

/- From outside nothing else changes what tasks hold that have begun. -/
theorem held_ext
    {β : Type} {f : Phase → Option β} {e : Ext}
    (hNe : e ≠ .restart)
    (hStart : ∀ root, f (om.lifecycle.start root) = none) :
    Protocol.held f (shadowsAfterExt om shs e) = Protocol.held f shs :=
  held_afterExt (P := om.lifecycle) hNe fun root _ => hStart root

theorem Tended.afterExt
    {e : Ext}
    (hTended : Tended s shs)
    (hExt : Ext.exec e s = some s') :
    Tended s' (shadowsAfterExt om shs e) := by
  by_cases hRestart : e = .restart
  · subst hRestart
    cases hExt
    refine ⟨fun x hMem => ?_, fun x hMem => ?_, fun id hMem => ?_⟩
    · cases hMem
    · cases hMem
    · rw [held_restart] at hMem
      cases hMem
  · have hMaps := active_ext hRestart hExt
    have hShadows := shadowsAfterExt_of_ne_restart om shs hRestart
    have hTends :
        ∀ id ∈ Protocol.held Phase.tends shs,
          id ∈ Protocol.held Phase.tends (shadowsAfterExt om shs e) := by
      intro id hMem
      rw [hShadows, Protocol.held_append]
      exact List.mem_append_left _ hMem
    have hLetGo :
        Protocol.held Phase.letGo (shadowsAfterExt om shs e) =
          Protocol.held Phase.letGo shs :=
      held_ext hRestart fun root => by cases root <;> rfl
    refine ⟨fun x hMem => ?_, fun x hMem hHeld' => ?_, fun id hMem => ?_⟩
    · rw [hMaps] at hMem
      exact seenIds_ext hExt _ (hTended.seen x hMem)
    · rw [hMaps] at hMem
      refine hTends _ (hTended.tended x hMem ?_)
      by_contra hNot
      exact not_holder_ext hExt hNot hHeld'
    · rw [hLetGo] at hMem
      rcases hTended.letGo id hMem with ⟨hSeen, hNot⟩
      exact ⟨seenIds_ext hExt _ hSeen, not_holder_ext hExt hNot⟩

end Steps

section Runs

variable {om : OrderManager} {C : OmCond}
variable {db : Database} {chain : Chain} {seenIds : List OrderId}
variable {tr : List OmEvent} {s : State}
variable {shs : List (Shadow Root Phase)}

/- In every run, the entries of the active map are tended. -/
theorem tended_of_shadowRun
    (hRun :
      OmShadowRun om C (State.boot db chain seenIds) tr s shs) :
    Tended s shs := by
  induction hRun with
  | nil =>
      refine ⟨fun x hMem => ?_, fun x hMem => ?_, fun id hMem => ?_⟩ <;>
        cases hMem
  | snoc hRun hCond hStep ih =>
      cases hStep with
      | op hPhase hMove hExec =>
          exact ih.afterOp (owned_of_shadowRun hRun) hPhase hMove hExec
      | ext hExt => exact ih.afterExt hExt

end Runs

------------------------------------------------------------
-- The Lock of the Active Map
------------------------------------------------------------

/- Whether a task holds the write lock of the active map. -/
def Phase.locker : Phase → Option Unit
  | exiting _ .holding => some ()
  | exiting _ .removed => some ()
  | cancelling _ true => some ()
  | withdrawing _ _ => some ()
  | _ => none

/- The lock of the active map has one holder while it is taken. -/
def LockHeld
    (s : State)
    (shs : List (Shadow Root Phase)) : Prop :=
  (Protocol.held Phase.locker shs).length =
    if s.maps.activeLocked then 1 else 0

section Lock

variable {om : OrderManager} {g g' : Phase} {op : Op} {r : op.Resp}
variable {s s' : State} {shs : List (Shadow Root Phase)}
variable {tid : Nat} {root : Root} {env : Outcome}

/- What a move does to the lock. -/
theorem OrderManager.Move.locker
    (hMove : om.Move g op r g') :
    (op.locks = false ∧ g'.locker = g.locker) ∨
      (op = .map .activeLock ∧ g.locker = none ∧
        g'.locker = some ()) ∨
        (op = .map .activeUnlock ∧ g.locker = some () ∧
          g'.locker = none) := by
  cases hMove with
  | idle hNeutral hOpen =>
      exact .inl ⟨(Op.inert_of_neutral hNeutral).locks, rfl⟩
  | announce hOp hMay =>
      exact .inl ⟨(Op.inert_of_announces hOp).locks, rfl⟩
  | exitLock => exact .inr (.inl ⟨rfl, rfl, rfl⟩)
  | cancelLock => exact .inr (.inl ⟨rfl, rfl, rfl⟩)
  | exitUnlock => exact .inr (.inr ⟨rfl, rfl, rfl⟩)
  | cancelUnlock => exact .inr (.inr ⟨rfl, rfl, rfl⟩)
  | @emit gate o active stage rec hId hMay =>
      cases gate <;> exact .inl ⟨rfl, rfl⟩
  | check => split <;> exact .inl ⟨rfl, rfl⟩
  | status => split <;> exact .inl ⟨rfl, rfl⟩
  | @take gate o active d b =>
      refine .inl ⟨rfl, ?_⟩
      cases b with
      | true => rfl
      | false =>
          cases gate <;> cases hAllow : d.isAllow <;>
            simp [Phase.settled, Phase.locker, hAllow]
  | @issue gate o active d reason n =>
      refine .inl ⟨rfl, ?_⟩
      cases gate <;> cases hAllow : d.isAllow <;>
        simp [Phase.settled, Phase.locker, hAllow]
  | store hId hStatus => split <;> exact .inl ⟨rfl, rfl⟩
  | push hId => split <;> exact .inl ⟨rfl, rfl⟩
  | @close g o o' r hId hMay =>
      refine .inl ⟨rfl, ?_⟩
      have hBefore : g.locker = none := by
        cases g with
        | reading gate v => rfl
        | refused v => rfl
        | executing v active live => rfl
        | _ => exact hMay.elim
      rw [hBefore]
      split <;> rfl
  | _ => exact .inl ⟨rfl, rfl⟩

theorem LockHeld.afterOp
    (hHeld : LockHeld s shs)
    (hPhase : shs[tid]? = some ⟨root, some g⟩)
    (hMove : om.Move g op r g')
    (hExec : State.exec op env s = some (r, s')) :
    LockHeld s' (shadowsAfter om shs tid root g' op) := by
  unfold LockHeld at hHeld ⊢
  rcases exists_held_op (f := Phase.locker) om op g' rfl hPhase with
    ⟨rest, hOld, hNew⟩
  rw [hOld.length_eq, List.length_append] at hHeld
  rw [hNew.length_eq, List.length_append]
  rcases OrderManager.Move.locker hMove with
    ⟨hLocks, hSame⟩ | ⟨rfl, hFree, hTaken⟩ | ⟨rfl, hTaken, hFree⟩
  · rw [hSame, exec_activeLocked hLocks hExec]
    exact hHeld
  · rcases exec_activeLock hExec with ⟨hUnlocked, hLocked⟩
    rw [hFree, hUnlocked] at hHeld
    rw [hTaken, hLocked]
    simpa using hHeld
  · have hUnlocked := exec_activeUnlock hExec
    rw [hTaken] at hHeld
    rw [hFree, hUnlocked]
    cases hLocked : s.maps.activeLocked with
    | true => simpa [hLocked] using hHeld
    | false => simp [hLocked] at hHeld

theorem LockHeld.afterExt
    {e : Ext}
    (hHeld : LockHeld s shs)
    (hExt : Ext.exec e s = some s') :
    LockHeld s' (shadowsAfterExt om shs e) := by
  unfold LockHeld at hHeld ⊢
  by_cases hRestart : e = .restart
  · subst hRestart
    cases hExt
    rw [held_restart]
    rfl
  · rw [held_ext hRestart fun root => by cases root <;> rfl,
      active_ext hRestart hExt]
    exact hHeld

/- A task that holds the lock has taken it. -/
theorem LockHeld.of_locker
    (hHeld : LockHeld s shs)
    (hPhase : shs[tid]? = some ⟨root, some g⟩)
    (hLocker : g.locker = some ()) :
    s.maps.activeLocked = true := by
  have hMem : () ∈ Protocol.held Phase.locker shs :=
    Protocol.mem_held.mpr ⟨tid, root, g, hPhase, hLocker⟩
  have hPos := List.length_pos_of_mem hMem
  rw [hHeld] at hPos
  by_contra hFree
  rw [if_neg hFree] at hPos
  exact absurd hPos (Nat.lt_irrefl 0)

/- In every run, the lock is held by those in its section only. -/
theorem lockHeld_of_shadowRun
    {C : OmCond} {db : Database} {chain : Chain}
    {seenIds : List OrderId} {tr : List OmEvent}
    (hRun :
      OmShadowRun om C (State.boot db chain seenIds) tr s shs) :
    LockHeld s shs := by
  induction hRun with
  | nil => rfl
  | snoc _ _ hStep ih =>
      cases hStep with
      | op hPhase hMove hExec => exact ih.afterOp hPhase hMove hExec
      | ext hExt => exact ih.afterExt hExt

end Lock

end Pumpy
