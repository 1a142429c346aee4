import Pumpy.Engine.Conformance
import Pumpy.Engine.Holding

/-
  Every accepted order has one holder at a time: the
  submission that is about to send it, the channel, or a pass
  that may still put it back.  A holder that lets go of an
  order lets go of it for ever.

  Key definitions include:
    * `Phase.carries`
    * `holders`
    * `Owned`

  The main results are `owned_of_shadowRun` and
  `not_holder_of_released`.
-/

------------------------------------------------------------
-- Holders
------------------------------------------------------------

namespace Pumpy

open Interleaving

/- The runs of the order manager, as its life cycle allows them. -/
abbrev OmShadowRun (om : OrderManager) :=
  Protocol.ShadowRun om.lifecycle om.machine

namespace Phase

/- The order a task may still send into the channel. -/
def carries : Phase → Option OrderId
  | submitting _ => none
  | entering o => some o.id
  | reading _ o => some o.id
  | deciding _ o _ _ => some o.id
  | healing o _ d _ => if d.isAllow then some o.id else none
  | raising _ o _ d => if d.isAllow then some o.id else none
  | issuing _ o _ d => if d.isAllow then some o.id else none
  | accepting o => some o.id
  | executing o _ _ => some o.id
  | refused _ => none
  | exiting _ _ => none
  | cancelling _ _ => none
  | withdrawing _ _ => none
  | pausing => none
  | finished => none

theorem carries_decided
    (gate : Gate)
    (o : Order)
    (active : List Order)
    (d : Decision) :
    (decided gate o active d).carries =
      if d.isAllow then some o.id else none := by
  cases gate <;> rfl

theorem carries_settled
    (gate : Gate)
    (o : Order)
    (active : List Order)
    (d : Decision) :
    (settled gate o active d).carries =
      if d.isAllow then some o.id else none := by
  cases gate <;> cases hAllow : d.isAllow <;>
    simp [settled, hAllow, carries]

end Phase

/- A move keeps its order, lets go of it, draws it, or sends it. -/
theorem OrderManager.Move.carries
    {om : OrderManager} {g g' : Phase} {op : Op} {r : op.Resp}
    (hMove : om.Move g op r g') :
    (op.sends = none ∧ op.drawn r = none ∧
        (g'.carries = g.carries ∨ g'.carries = none)) ∨
      (op.sends = none ∧ ∃ id, op.drawn r = some id ∧
        g.carries = none ∧ g'.carries = some id) ∨
      (∃ o, op.sends = some o ∧ op.drawn r = none ∧
        g.carries = some o.id ∧ g'.carries = none) := by
  cases hMove with
  | idle hNeutral hOpen =>
      have hInert := Op.inert_of_neutral hNeutral
      exact .inl ⟨hInert.sends, hInert.drawn r, .inl rfl⟩
  | announce hOp hMay =>
      have hInert := Op.inert_of_announces hOp
      exact .inl ⟨hInert.sends, hInert.drawn r, .inl rfl⟩
  | draw => exact .inr (.inl ⟨rfl, _, rfl, rfl, rfl⟩)
  | send hId =>
      exact .inr (.inr
        ⟨_, rfl, rfl, by simp [Phase.carries, hId], rfl⟩)
  | requeue hId =>
      exact .inr (.inr
        ⟨_, rfl, rfl, by simp [Phase.carries, hId], rfl⟩)
  | emit hId hMay =>
      refine .inl ⟨rfl, rfl, ?_⟩
      rw [Phase.carries_decided]
      split
      · exact .inl rfl
      · exact .inr rfl
  | issue =>
      refine .inl ⟨rfl, rfl, .inl ?_⟩
      rw [Phase.carries_settled]
      rfl
  | @take gate o active d b =>
      refine .inl ⟨rfl, rfl, .inl ?_⟩
      cases b with
      | true => rfl
      | false => exact Phase.carries_settled _ _ _ _
  | close hId hMay =>
      refine .inl ⟨rfl, rfl, .inr ?_⟩
      split <;> rfl
  | store hId hStatus =>
      refine .inl ⟨rfl, rfl, ?_⟩
      split
      · exact .inl rfl
      · exact .inr rfl
  | push hId =>
      refine .inl ⟨rfl, rfl, ?_⟩
      split
      · exact .inl rfl
      · exact .inr rfl
  | check =>
      refine .inl ⟨rfl, rfl, .inl ?_⟩
      split <;> rfl
  | status =>
      refine .inl ⟨rfl, rfl, .inl ?_⟩
      split <;> rfl
  | _ => exact .inl ⟨rfl, rfl, .inl rfl⟩

------------------------------------------------------------
-- Ownership
------------------------------------------------------------

/- Every order that may still reach a pass, once per holder. -/
def holders
    (s : State)
    (shs : List (Shadow Root Phase)) : List OrderId :=
  s.chan.queue.map Order.id ++ Protocol.held Phase.carries shs

/- No order has two holders, and every holder's order is known. -/
structure Owned
    (s : State)
    (shs : List (Shadow Root Phase)) : Prop where
  nodup : (holders s shs).Nodup
  seen : ∀ id ∈ holders s shs, id ∈ s.seenIds

section Steps

variable {om : OrderManager} {s s' : State}
variable {shs : List (Shadow Root Phase)}
variable {tid : Nat} {root : Root} {g g' : Phase}
variable {op : Op} {env : Outcome} {r : op.Resp}

/- The shadows after the task `tid` has executed `op`. -/
def shadowsAfter
    (om : OrderManager)
    (shs : List (Shadow Root Phase))
    (tid : Nat)
    (root : Root)
    (g' : Phase)
    (op : Op) : List (Shadow Root Phase) :=
  shs.set tid ⟨root, some g'⟩ ++
    (om.machine.opRoots op).map om.lifecycle.startShadow

/- The shadow of the task that has moved. -/
theorem shadowsAfter_self
    (hPhase : shs[tid]? = some ⟨root, some g⟩) :
    (shadowsAfter om shs tid root g' op)[tid]? =
      some ⟨root, some g'⟩ :=
  afterOp_self (P := om.lifecycle) hPhase

/- The shadow of another task. -/
theorem shadowsAfter_other
    {tid' : Nat} {sh : Shadow Root Phase}
    (hNe : tid' ≠ tid)
    (hAt : shs[tid']? = some sh) :
    (shadowsAfter om shs tid root g' op)[tid']? = some sh :=
  afterOp_other (P := om.lifecycle) hNe hAt

/- Where a token that is held after an operation comes from. -/
theorem mem_held_shadowsAfter
    {β : Type} {f : Phase → Option β} {b : β}
    (hPausing : f .pausing = none)
    (hMem :
      b ∈ Protocol.held f (shadowsAfter om shs tid root g' op)) :
    f g' = some b ∨
      ∃ (tid' : Nat) (root' : Root) (g₁ : Phase),
        tid' ≠ tid ∧ shs[tid']? = some ⟨root', some g₁⟩ ∧
          f g₁ = some b :=
  mem_held_afterOp (P := om.lifecycle) (fun _ _ => hPausing) hMem

/- What the tasks hold before and after an operation. -/
theorem exists_held_op
    {β : Type} {f : Phase → Option β}
    (om : OrderManager)
    (op : Op)
    (g' : Phase)
    (hPausing : f .pausing = none)
    (hPhase : shs[tid]? = some ⟨root, some g⟩) :
    ∃ rest,
      (Protocol.held f shs).Perm ((f g).toList ++ rest) ∧
      (Protocol.held f (shadowsAfter om shs tid root g' op)).Perm
        ((f g').toList ++ rest) :=
  exists_held_afterOp (P := om.lifecycle) op g' (fun _ _ => hPausing)
    hPhase

/- A move of the life cycle hands its identifier on. -/
theorem OrderManager.Move.hands
    (hMove : om.Move g op r g') :
    Hands Phase.carries g op r g' := by
  rcases hMove.carries with
    ⟨hSends, hDrawn, hSame | hGone⟩ |
    ⟨hSends, id, hDrawn, hBefore, hAfter⟩ |
    ⟨o, hSends, hDrawn, hBefore, hAfter⟩
  · exact .keeps (Op.enqueues_of_sends hSends) hDrawn hSame
  · exact .drops (Op.enqueues_of_sends hSends) hDrawn hGone
  · exact .draws (Op.enqueues_of_sends hSends) hDrawn hBefore hAfter
  · cases hSent : op.enqueues r with
    | none => exact .drops hSent hDrawn hAfter
    | some o' =>
        cases op with
        | chan op =>
            cases op with
            | orderSend o'' =>
                cases hSends
                simp only [Op.enqueues, Option.ite_none_right_eq_some]
                  at hSent
                rcases hSent with ⟨hTrue, hEq⟩
                cases hEq
                exact .sends (by simp [Op.enqueues, hTrue]) hDrawn
                  hBefore hAfter
            | eventSend ev => cases hSends
        | _ => cases hSends

/- Ownership in the life cycle is that of what its phases carry. -/
theorem owned_iff :
    Owned s shs ↔ OwnedBy Phase.carries s shs :=
  ⟨fun h => ⟨h.nodup, h.seen⟩, fun h => ⟨h.nodup, h.seen⟩⟩

theorem Owned.afterOp
    (hOwned : Owned s shs)
    (hPhase : shs[tid]? = some ⟨root, some g⟩)
    (hMove : om.Move g op r g')
    (hExec : State.exec op env s = some (r, s')) :
    Owned s' (shadowsAfter om shs tid root g' op) :=
  owned_iff.mpr
    ((owned_iff.mp hOwned).afterOp (P := om.lifecycle)
      (fun _ _ => rfl) hPhase hMove.hands hExec)

/- Two tasks that carry one order are one task. -/
theorem Owned.unique
    {tid' : Nat} {root' : Root} {id : OrderId}
    (hOwned : Owned s shs)
    (hPhase : shs[tid]? = some ⟨root, some g⟩)
    (hPhase' : shs[tid']? = some ⟨root', some g'⟩)
    (hCarried : g.carries = some id)
    (hCarried' : g'.carries = some id) :
    tid = tid' :=
  (owned_iff.mp hOwned).unique hPhase hPhase' hCarried hCarried'

/- A task that lets go of its order was its last holder. -/
theorem Owned.released
    {id : OrderId}
    (hOwned : Owned s shs)
    (hPhase : shs[tid]? = some ⟨root, some g⟩)
    (hExec : State.exec op env s = some (r, s'))
    (hCarried : g.carries = some id)
    (hReleased : g'.carries = none)
    (hSends : op.sends = none) :
    id ∉ holders s' (shadowsAfter om shs tid root g' op) :=
  (owned_iff.mp hOwned).released (P := om.lifecycle) (fun _ _ => rfl)
    hPhase hExec hCarried hReleased (Op.enqueues_of_sends hSends)

/- An identifier in use and let go of is never held again. -/
theorem not_holder_op
    {id : OrderId}
    (hPhase : shs[tid]? = some ⟨root, some g⟩)
    (hMove : om.Move g op r g')
    (hExec : State.exec op env s = some (r, s'))
    (hSeen : id ∈ s.seenIds)
    (hNot : id ∉ holders s shs) :
    id ∉ holders s' (shadowsAfter om shs tid root g' op) :=
  not_holdersBy_op (P := om.lifecycle) (fun _ _ => rfl) hPhase
    hMove.hands hExec hSeen hNot

end Steps

------------------------------------------------------------
-- Outside Events
------------------------------------------------------------

section Outside

variable {om : OrderManager} {s s' : State}
variable {shs shs' : List (Shadow Root Phase)} {e : Ext}

/- The shadows after the outside event `e`. -/
def shadowsAfterExt
    (om : OrderManager)
    (shs : List (Shadow Root Phase))
    (e : Ext) : List (Shadow Root Phase) :=
  shs.mapIdx (Protocol.surviveShadow om.machine e) ++
    (om.machine.extRoots e).map om.lifecycle.startShadow

/- Only a restart drops tasks. -/
theorem shadowsAfterExt_of_ne_restart
    (om : OrderManager)
    (shs : List (Shadow Root Phase))
    (hNe : e ≠ .restart) :
    shadowsAfterExt om shs e =
      shs ++ (om.machine.extRoots e).map om.lifecycle.startShadow :=
  afterExt_of_ne_restart om om.lifecycle shs hNe

/- The order an outside event hands to a pass. -/
def Ext.received : Ext → Option Order
  | .recv o => some o
  | _ => none

/- Of the tasks an outside event starts, a pass holds its order. -/
theorem held_extRoots
    (om : OrderManager)
    (e : Ext) :
    Protocol.held Phase.carries
      ((om.machine.extRoots e).map om.lifecycle.startShadow) =
        (e.received.map Order.id).toList := by
  cases e <;> rfl

/- After a restart nobody holds an order. -/
theorem holders_restart
    (hExt : Ext.exec .restart s = some s') :
    holders s' (shadowsAfterExt om shs .restart) = [] := by
  cases hExt
  have hNone :
      Protocol.held Phase.carries
        (shadowsAfterExt om shs .restart) = [] := by
    rw [shadowsAfterExt, Protocol.held_append, held_extRoots,
      Protocol.held_survive_of_kills fun _ _ => rfl]
    rfl
  simp [holders, State.boot, hNone]

theorem Owned.afterExt
    (hOwned : Owned s shs)
    (hExt : Ext.exec e s = some s') :
    Owned s' (shadowsAfterExt om shs e) :=
  owned_iff.mpr
    ((owned_iff.mp hOwned).afterExt (P := om.lifecycle)
      (fun root => by cases root <;> rfl) hExt)

theorem not_holder_ext
    {id : OrderId}
    (hExt : Ext.exec e s = some s')
    (hNot : id ∉ holders s shs) :
    id ∉ holders s' (shadowsAfterExt om shs e) :=
  not_holdersBy_ext (P := om.lifecycle) om
    (fun root => by cases root <;> rfl) hExt hNot

theorem Owned.step
    {e : OmEvent}
    (hOwned : Owned s shs)
    (hStep : om.lifecycle.ShadowStep om.machine s shs e s' shs') :
    Owned s' shs' := by
  cases hStep with
  | op hPhase hMove hExec => exact hOwned.afterOp hPhase hMove hExec
  | ext hExt => exact hOwned.afterExt hExt

/- An identifier in use that nobody holds is never held again. -/
theorem not_holder_step
    {e : OmEvent} {id : OrderId}
    (hStep : om.lifecycle.ShadowStep om.machine s shs e s' shs')
    (hSeen : id ∈ s.seenIds)
    (hNot : id ∉ holders s shs) :
    id ∈ s'.seenIds ∧ id ∉ holders s' shs' := by
  cases hStep with
  | op hPhase hMove hExec =>
      refine ⟨?_, not_holder_op hPhase hMove hExec hSeen hNot⟩
      rw [(exec_seenIds hExec).2]
      exact List.mem_append_right _ hSeen
  | ext hExt =>
      exact ⟨seenIds_ext hExt id hSeen, not_holder_ext hExt hNot⟩

end Outside

------------------------------------------------------------
-- Runs
------------------------------------------------------------

section Runs

variable {om : OrderManager} {C : OmCond}
variable {db : Database} {chain : Chain} {seenIds : List OrderId}
variable {tr : List OmEvent} {s : State}
variable {shs : List (Shadow Root Phase)}

/- In every run, every order has one holder at most. -/
theorem owned_of_shadowRun
    (hRun :
      OmShadowRun om C (State.boot db chain seenIds) tr s shs) :
    Owned s shs := by
  induction hRun with
  | nil => exact ⟨List.nodup_nil, fun id hMem => by cases hMem⟩
  | snoc hRun hCond hStep ih => exact ih.step hStep

end Runs

end Pumpy
