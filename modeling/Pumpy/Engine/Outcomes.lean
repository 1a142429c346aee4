import Mathlib.Data.List.Nodup
import Pumpy.Engine.Execution
import Pumpy.Engine.Tally

/-
  What becomes of an order in the end: a pass that does not put
  its order back counts it as executed or failed, unless the
  gate has refused it, announces the outcome, and files the
  order in the history.

  Key definitions include:
    * `Judgement`
    * `JudgeMove`
    * `outcomeEvents`
    * `filings`
    * `SingleOutcome`

  The main results are `singleOutcome_of_run`: in every run every
  order has at most one outcome, and no pass after it; and
  `counts_le_of_run`: the counters of executed and failed orders
  and the orders that still wait never exceed the counter of the
  submitted ones.
-/

------------------------------------------------------------
-- Phases
------------------------------------------------------------

namespace Pumpy

open Interleaving

/- The order is through: nothing else is to come. -/
def OrderStatus.isOutcome : OrderStatus → Bool
  | executed => true
  | failed => true
  | _ => false

/-
  Where a task stands with the outcome of its order: `judged`
  has counted it, `told` has announced it.
-/
inductive Judgement where
  | asking : Judgement
  | drawn (id : OrderId) : Judgement
  | counted (id : OrderId) : Judgement
  | passing (id : OrderId) : Judgement
  | judged (id : OrderId) : Judgement
  | told (ev : OrderEvent) : Judgement
  | apart : Judgement

/- The operations that are not about the outcome of an order. -/
def Op.plain : Op → Bool
  | .chan (.orderSend _) => false
  | .chan (.eventSend ev) => !ev.status.isOutcome
  | .map (.historyInsert _) => false
  | .metric (.count .ordersSubmitted) => false
  | .metric (.count .ordersExecuted) => false
  | .metric (.count .ordersFailed) => false
  | .sys .newUuid => false
  | _ => true

namespace Judgement

/- The identifier whose outcome a task may still announce. -/
def holds : Judgement → Option OrderId
  | drawn id => some id
  | counted id => some id
  | passing id => some id
  | judged id => some id
  | _ => none

/- The order a task has that is counted only as submitted. -/
def pending : Judgement → Option OrderId
  | counted id => some id
  | passing id => some id
  | _ => none

/- The outcome a task has announced of an order not yet filed. -/
def unfiled : Judgement → Option OrderEvent
  | told ev => some ev
  | _ => none

end Judgement

/- The moves of the outcomes. -/
inductive JudgeMove : Judgement → (op : Op) → op.Resp → Judgement → Prop
  | plain
      {g : Judgement} {op : Op} {r : op.Resp}
      (hPlain : op.plain = true) :
      JudgeMove g op r g
  | draw
      {id : OrderId} :
      JudgeMove .asking (.sys .newUuid) id (.drawn id)
  | count
      {id : OrderId} {u : Unit} :
      JudgeMove (.drawn id) (.metric (.count .ordersSubmitted)) u
        (.counted id)
  | submit
      {id : OrderId} {o : Order} {sent : Bool}
      (hId : o.id = id) :
      JudgeMove (.counted id) (.chan (.orderSend o)) sent .apart
  | resend
      {id : OrderId} {o : Order} {sent : Bool}
      (hId : o.id = id) :
      JudgeMove (.passing id) (.chan (.orderSend o)) sent .apart
  | judge
      {id : OrderId} {c : Counter} {u : Unit}
      (hCounter : c = .ordersExecuted ∨ c = .ordersFailed) :
      JudgeMove (.passing id) (.metric (.count c)) u (.judged id)
  | tell
      {g : Judgement} {id : OrderId} {ev : OrderEvent} {u : Unit}
      (hGate : g = .passing id ∨ g = .judged id)
      (hId : ev.orderId = id)
      (hOutcome : ev.status.isOutcome = true) :
      JudgeMove g (.chan (.eventSend ev)) u (.told ev)
  | file
      {ev : OrderEvent} {o : Order} {u : Unit}
      (hEvent : o.event = ev) :
      JudgeMove (.told ev) (.map (.historyInsert o)) u .apart

/- The outcomes of the engine's tasks. -/
def judging : Protocol Op Op.Resp Root Judgement where
  start
    | .submitOrder _ => .asking
    | .processOrder o => .passing o.id
    | .cancelOrder _ => .apart
    | .pauseWallet _ _ => .apart
  move := JudgeMove
  crash := fun _ => True

section Classes

variable {op : Op}

theorem Op.plain_of_decides
    (hDecides : op.decides = true) :
    op.plain = true := by
  cases op with
  | engine op => rfl
  | _ => cases hDecides

theorem Op.plain_of_raises
    (hRaises : op.raises = true) :
    op.plain = true := by
  rcases op with op | op | op | op | op | op | op <;> cases op <;>
    first
    | rfl
    | cases hRaises

theorem Op.plain_of_executes
    (hExecutes : op.executes = true) :
    op.plain = true := by
  rcases op with op | op | op | op | op | op | op
  case metric =>
    cases op with
    | count c =>
        cases c with
        | jitoBundlesLanded => rfl
        | _ => cases hExecutes
    | _ => rfl
  all_goals
    cases op <;>
      first
      | rfl
      | cases hExecutes

theorem Op.enqueues_of_plain
    (hPlain : op.plain = true)
    (r : op.Resp) :
    op.enqueues r = none := by
  cases op with
  | chan op =>
      cases op with
      | orderSend o => cases hPlain
      | eventSend ev => rfl
  | _ => rfl

theorem Op.drawn_of_plain
    (hPlain : op.plain = true)
    (r : op.Resp) :
    op.drawn r = none := by
  cases op with
  | sys op =>
      cases op with
      | newUuid => cases hPlain
      | _ => rfl
  | _ => rfl

end Classes

/- A move hands the identifier on whose outcome is open. -/
theorem JudgeMove.hands
    {g g' : Judgement} {op : Op} {r : op.Resp}
    (hMove : JudgeMove g op r g') :
    Hands Judgement.holds g op r g' := by
  cases hMove with
  | plain hPlain =>
      exact .keeps (Op.enqueues_of_plain hPlain r)
        (Op.drawn_of_plain hPlain r) rfl
  | draw => exact .draws rfl rfl rfl rfl
  | count => exact .keeps rfl rfl rfl
  | @submit id o sent hId | @resend id o sent hId =>
      cases sent with
      | false => exact .drops rfl rfl rfl
      | true => exact .sends rfl rfl (congrArg some hId.symm) rfl
  | judge hCounter => exact .keeps rfl rfl rfl
  | tell hGate hId hOutcome => exact .drops rfl rfl rfl
  | file hEvent => exact .keeps rfl rfl rfl

------------------------------------------------------------
-- Programs
------------------------------------------------------------

namespace OrderManager

variable {om : OrderManager} {α : Type} {g : Judgement} {id : OrderId}

/- An operation that leaves the task where it stands. -/
theorem judging_plain
    {op : Op}
    {k : op.Resp → OmProg α}
    {Q : α → Judgement → Prop}
    (hPlain : op.plain = true)
    (hRest : ∀ r, judging.Wp (k r) g Q) :
    judging.Wp (.act op k) g Q :=
  fun r => ⟨g, .plain hPlain, hRest r⟩

/- A program of such operations. -/
theorem judging_of_always
    {p : OmProg α}
    (hAlways : p.Always (·.plain = true)) :
    judging.Wp p g (fun _ g' => g' = g) :=
  Protocol.Wp.of_always hAlways (fun _ _ hPlain => .plain hPlain)
    trivial

theorem judging_selfHealingResume :
    judging.Wp selfHealingResume g (fun _ g' => g' = g) := by
  unfold selfHealingResume
  refine judging_plain rfl fun autoPaused => ?_
  cases autoPaused with
  | false => exact rfl
  | true =>
      refine judging_plain rfl fun dbStatus => ?_
      dsimp only [Prog.bind]
      split
      · iterate 3
          refine judging_plain rfl fun _ => ?_
        exact rfl
      · exact rfl

theorem judging_enqueue
    (o : Order) :
    judging.Wp (om.enqueue o) (.drawn o.id) (fun _ _ => True) := by
  unfold enqueue
  iterate 2
    refine judging_plain rfl fun _ => ?_
  refine judging_plain rfl fun stored => ?_
  cases stored with
  | error e => trivial
  | ok u =>
      refine judging_plain rfl fun pushed => ?_
      cases pushed with
      | false => trivial
      | true =>
          intro u
          refine ⟨.counted o.id, .count, ?_⟩
          refine judging_plain rfl fun _ => ?_
          intro sent
          refine ⟨.apart, .submit rfl, ?_⟩
          cases sent <;> trivial

theorem judging_submitOrder
    (o : Order) :
    judging.Wp (om.submitOrder o) .asking (fun _ _ => True) := by
  unfold submitOrder
  intro id
  refine ⟨.drawn id, .draw, ?_⟩
  refine judging_plain rfl fun active => ?_
  apply (judging_of_always
    (decides_evaluate.mono fun _ => Op.plain_of_decides)).bind
  rintro decision g rfl
  apply judging_selfHealingResume.bind
  rintro _ g rfl
  apply (judging_of_always
    ((raises_raiseDbPause decision
      "consecutive_reject threshold exceeded").mono
        fun _ => Op.plain_of_raises)).bind
  rintro _ g rfl
  cases decision with
  | allow => exact judging_enqueue { o with id := id }
  | reject reason => trivial
  | halt reason => trivial

theorem judging_cancelActive :
    judging.Wp (cancelActive id) .apart (fun _ _ => True) := by
  unfold cancelActive
  refine judging_plain rfl fun _ => ?_
  refine judging_plain rfl fun removed => ?_
  cases removed with
  | none => exact judging_plain rfl fun _ => trivial
  | some order =>
      refine judging_plain rfl fun updatedAt => ?_
      refine judging_plain rfl fun updated => ?_
      cases updated with
      | error e => exact judging_plain rfl fun _ => trivial
      | ok u =>
          iterate 4
            refine judging_plain rfl fun _ => ?_
          trivial

theorem judging_cancelOrder :
    judging.Wp (cancelOrder id) .apart (fun _ _ => True) := by
  unfold cancelOrder
  refine judging_plain rfl fun dropped => ?_
  cases dropped with
  | false => exact judging_cancelActive
  | true =>
      iterate 2
        refine judging_plain rfl fun _ => ?_
      exact judging_cancelActive

theorem judging_pauseWallet
    (reason : String)
    (rejectCount : UInt32) :
    judging.Wp (pauseWallet reason rejectCount) .apart
      (fun _ _ => True) := by
  unfold pauseWallet
  iterate 3
    refine judging_plain rfl fun _ => ?_
  trivial

/- The outcome is announced, and the order filed. -/
theorem judging_finalizeOrderMinimal
    {o : Order}
    (hId : o.id = id)
    (hOutcome : o.status.isOutcome = true)
    (hGate : g = .passing id ∨ g = .judged id) :
    judging.Wp (finalizeOrderMinimal o) g (fun _ _ => True) := by
  have hLeave :
      judging.Wp (finalizeOrderMinimal.leave o) g (fun _ _ => True) := by
    intro u
    refine ⟨.told o.event, .tell hGate hId hOutcome, ?_⟩
    iterate 3
      refine judging_plain rfl fun _ => ?_
    intro u
    refine ⟨.apart, .file rfl, ?_⟩
    exact judging_plain rfl fun _ => trivial
  refine judging_plain rfl fun updated => ?_
  cases updated with
  | error e => trivial
  | ok u =>
      dsimp only [Prog.bind]
      split
      · exact judging_plain rfl fun _ => hLeave
      · exact hLeave

theorem judging_failOrder
    {o : Order}
    (reason : String)
    (hId : o.id = id) :
    judging.Wp (failOrder o reason) (.passing id) (fun _ _ => True) :=
  judging_plain rfl fun _ =>
    judging_finalizeOrderMinimal hId rfl (.inl rfl)

theorem judging_requeue
    {o : Order} {backoff : Duration}
    (hId : o.id = id) :
    judging.Wp (requeue o backoff) (.passing id) (fun _ _ => True) := by
  unfold requeue
  refine judging_plain rfl fun _ => ?_
  intro sent
  refine ⟨.apart, .resend hId, ?_⟩
  iterate 4
    refine judging_plain rfl fun _ => ?_
  trivial

theorem judging_settle
    {o : Order}
    (result : Except String String)
    (hId : o.id = id) :
    judging.Wp (om.settle o result) (.passing id) (fun _ _ => True) := by
  cases result with
  | ok sig =>
      unfold settle
      iterate 2
        refine judging_plain rfl fun _ => ?_
      intro u
      refine ⟨.judged id, .judge (.inl rfl), ?_⟩
      exact judging_finalizeOrderMinimal hId rfl (.inr rfl)
  | error e =>
      dsimp only [settle]
      split
      · split
        · trivial
        · exact judging_requeue hId
      · refine judging_plain rfl fun _ => ?_
        intro u
        refine ⟨.judged id, .judge (.inr rfl), ?_⟩
        exact judging_finalizeOrderMinimal hId rfl (.inr rfl)

theorem judging_executeApproved
    {o : Order}
    (mint : Pubkey)
    (snapshot : Option BondingCurveParams)
    (hId : o.id = id) :
    judging.Wp (om.executeApproved mint o snapshot) (.passing id)
      (fun _ _ => True) := by
  unfold executeApproved
  iterate 2
    refine judging_plain rfl fun _ => ?_
  dsimp only [Prog.bind]
  split
  · trivial
  · apply (judging_of_always (g := .passing id)
      (fun op hExecutes => ?_)).bind
    · rintro result g rfl
      exact judging_settle _ hId
    · rcases Prog.canExecute_timeout hExecutes with rfl | hTrade
      · rfl
      · exact Op.plain_of_executes
          (executes_executeTrade _ _ op hTrade)

theorem judging_gateAndExecute
    {o : Order}
    (mint : Pubkey)
    (hId : o.id = id) :
    judging.Wp (om.gateAndExecute mint o) (.passing id)
      (fun _ _ => True) := by
  unfold gateAndExecute
  iterate 3
    refine judging_plain rfl fun _ => ?_
  apply (judging_of_always
    (decides_evaluate.mono fun _ => Op.plain_of_decides)).bind
  rintro decision g rfl
  apply (judging_of_always
    ((raises_raiseDbPause decision _).mono
      fun _ => Op.plain_of_raises)).bind
  rintro _ g rfl
  split
  · exact judging_executeApproved mint _ hId
  · exact judging_failOrder _ hId

theorem judging_processOrder
    (o : Order) :
    judging.Wp (om.processOrder o) (.passing o.id)
      (fun _ _ => True) := by
  unfold processOrder
  iterate 3
    refine judging_plain rfl fun _ => ?_
  dsimp only [Prog.bind]
  split
  · exact judging_failOrder _ rfl
  · exact judging_gateAndExecute _ rfl

/- Every task of the order manager ends this way. -/
theorem follows_judging
    (om : OrderManager) :
    judging.Follows om.machine (fun _ _ => True) := by
  intro root
  cases root with
  | submitOrder o =>
      exact (judging_submitOrder o).bind fun _ _ _ => trivial
  | processOrder o =>
      exact (judging_processOrder o).bind fun _ _ _ => trivial
  | cancelOrder id =>
      exact judging_cancelOrder.bind fun _ _ _ => trivial
  | pauseWallet reason rejectCount =>
      exact (judging_pauseWallet reason rejectCount).bind
        fun _ _ _ => trivial

end OrderManager

------------------------------------------------------------
-- Outcomes
------------------------------------------------------------

/- The outcome an event announces. -/
def outcomeOf : OmEvent → Option OrderEvent
  | .op _ (.chan (.eventSend ev)) _ _ =>
      if ev.status.isOutcome then some ev else none
  | _ => none

/- The outcomes that were announced, and of which orders. -/
def outcomeEvents (tr : List OmEvent) : List OrderEvent :=
  tr.filterMap outcomeOf

/- The order an event puts into the history. -/
def filedBy : OmEvent → Option Order
  | .op _ (.map (.historyInsert o)) _ _ => some o
  | _ => none

def filings (tr : List OmEvent) : List Order :=
  tr.filterMap filedBy

/-
  No order has two outcomes, no pass is begun after the outcome,
  and every order is filed once, as it was announced.
-/
structure SingleOutcome (tr : List OmEvent) : Prop where
  once : ((outcomeEvents tr).map OrderEvent.orderId).Nodup
  last :
    ∀ pre o post,
      tr = pre ++ .ext (.recv o) :: post →
        ∀ ev ∈ outcomeEvents pre, o.id ≠ ev.orderId
  filed : ((filings tr).map Order.id).Nodup
  announced : ∀ o ∈ filings tr, o.event ∈ outcomeEvents tr

/- What is so of the outcomes after every run. -/
structure Told
    (tr : List OmEvent)
    (s : State)
    (shs : List (Shadow Root Judgement)) : Prop where
  once : ((outcomeEvents tr).map OrderEvent.orderId).Nodup
  gone :
    ∀ ev ∈ outcomeEvents tr,
      ev.orderId ∈ s.seenIds ∧
        ev.orderId ∉ holdersBy Judgement.holds s shs
  last :
    ∀ pre o post,
      tr = pre ++ .ext (.recv o) :: post →
        ∀ ev ∈ outcomeEvents pre, o.id ≠ ev.orderId
  -- what was filed, or is still to be, was announced
  filed :
    ((filings tr).map Order.event ++
      Protocol.held Judgement.unfiled shs).Subperm (outcomeEvents tr)

section Steps

variable {om : OrderManager} {tr : List OmEvent} {s s' : State}
variable {shs : List (Shadow Root Judgement)}
variable {tid : Nat} {root : Root} {g g' : Judgement}
variable {op : Op} {env : Outcome} {r : op.Resp} {e : Ext}

theorem outcomeEvents_concat (e : OmEvent) :
    outcomeEvents (tr ++ [e]) =
      outcomeEvents tr ++ (outcomeOf e).toList := by
  unfold outcomeEvents
  rw [List.filterMap_append]
  cases hOutcome : outcomeOf e with
  | none => simp [hOutcome]
  | some ev => simp [hOutcome]

theorem filings_concat (e : OmEvent) :
    filings (tr ++ [e]) = filings tr ++ (filedBy e).toList := by
  unfold filings
  rw [List.filterMap_append]
  cases hFiled : filedBy e with
  | none => simp [hFiled]
  | some o => simp [hFiled]

/- What a move announces and files, and what it leaves to file. -/
theorem JudgeMove.records
    (tid : Nat)
    (env : Outcome)
    (hMove : JudgeMove g op r g') :
    (outcomeOf (.op tid op env r) = none ∧
        filedBy (.op tid op env r) = none ∧ g'.unfiled = g.unfiled) ∨
      (∃ ev,
        outcomeOf (.op tid op env r) = some ev ∧
          filedBy (.op tid op env r) = none ∧
            g.unfiled = none ∧ g'.unfiled = some ev ∧
              g.holds = some ev.orderId ∧ g'.holds = none ∧
                op.enqueues r = none) ∨
      ∃ o,
        outcomeOf (.op tid op env r) = none ∧
          filedBy (.op tid op env r) = some o ∧
            g.unfiled = some o.event ∧ g'.unfiled = none := by
  cases hMove with
  | plain hPlain =>
      left
      rcases op with op | op | op | op | op | op | op
      case chan =>
        cases op with
        | orderSend o => cases hPlain
        | eventSend ev =>
            refine ⟨if_neg ?_, rfl, rfl⟩
            simpa [Op.plain] using hPlain
      case map =>
        cases op with
        | historyInsert o => cases hPlain
        | _ => exact ⟨rfl, rfl, rfl⟩
      all_goals exact ⟨rfl, rfl, rfl⟩
  | draw => exact .inl ⟨rfl, rfl, rfl⟩
  | count => exact .inl ⟨rfl, rfl, rfl⟩
  | submit hId => exact .inl ⟨rfl, rfl, rfl⟩
  | resend hId => exact .inl ⟨rfl, rfl, rfl⟩
  | judge hCounter => exact .inl ⟨rfl, rfl, rfl⟩
  | @tell _ id ev u hGate hId hOutcome =>
      right; left
      subst hId
      rcases hGate with rfl | rfl
      · exact ⟨ev, if_pos hOutcome, rfl, rfl, rfl, rfl, rfl, rfl⟩
      · exact ⟨ev, if_pos hOutcome, rfl, rfl, rfl, rfl, rfl, rfl⟩
  | @file ev o u hEvent =>
      subst hEvent
      exact .inr (.inr ⟨o, rfl, rfl, rfl, rfl⟩)

theorem Told.afterOp
    (hTold : Told tr s shs)
    (hOwned : OwnedBy Judgement.holds s shs)
    (hPhase : shs[tid]? = some ⟨root, some g⟩)
    (hMove : JudgeMove g op r g')
    (hExec : State.exec op env s = some (r, s')) :
    Told (tr ++ [.op tid op env r]) s'
      (Pumpy.afterOp judging shs tid root g' op) := by
  have hSeen : ∀ id ∈ s.seenIds, id ∈ s'.seenIds := by
    intro id hMem
    rw [(exec_seenIds hExec).2]
    exact List.mem_append_right _ hMem
  have hGone :
      ∀ ev ∈ outcomeEvents tr,
        ev.orderId ∈ s'.seenIds ∧
          ev.orderId ∉
            holdersBy Judgement.holds s'
              (Pumpy.afterOp judging shs tid root g' op) := by
    intro ev hMem
    rcases hTold.gone ev hMem with ⟨hKnown, hNot⟩
    exact ⟨hSeen _ hKnown,
      not_holdersBy_op (P := judging) (fun _ _ => rfl) hPhase
        hMove.hands hExec hKnown hNot⟩
  have hLast :
      ∀ pre o post,
        tr ++ [.op tid op env r] = pre ++ .ext (.recv o) :: post →
          ∀ ev ∈ outcomeEvents pre, o.id ≠ ev.orderId := by
    intro pre o post hSplit
    rcases List.eq_nil_or_concat post with rfl | ⟨post', e, rfl⟩
    · cases (List.append_inj' hSplit rfl).2
    · rw [List.concat_eq_append, ← List.cons_append,
        ← List.append_assoc] at hSplit
      exact hTold.last pre o post' (List.append_inj' hSplit rfl).1
  rcases exists_held_afterOp (P := judging) (f := Judgement.unfiled) op g'
      (fun _ _ => rfl) hPhase with
    ⟨rest, hOld, hNew⟩
  have hFiled := hTold.filed
  rcases hMove.records tid env with
    ⟨hNone, hNotFiled, hSame⟩ |
    ⟨ev, hSome, hNotFiled, hBefore, hAfter, hHeld, hReleased, hSends⟩ |
    ⟨o, hNone, hSomeFiled, hBefore, hAfter⟩
  · rw [hSame] at hNew
    constructor
    · rw [outcomeEvents_concat, hNone, Option.toList_none, List.append_nil]
      exact hTold.once
    · rw [outcomeEvents_concat, hNone, Option.toList_none, List.append_nil]
      exact hGone
    · exact hLast
    · rw [outcomeEvents_concat, hNone, filings_concat, hNotFiled,
        Option.toList_none, List.append_nil, Option.toList_none,
        List.append_nil]
      exact ((hNew.trans hOld.symm).append_left _).subperm.trans hFiled
  · have hKnown := hOwned.seen_of_held hPhase hHeld
    have hMem : ev.orderId ∈ holdersBy Judgement.holds s shs := by
      apply List.mem_append_right
      exact Protocol.mem_held.mpr ⟨tid, root, g, hPhase, hHeld⟩
    have hFresh :
        ev.orderId ∉ (outcomeEvents tr).map OrderEvent.orderId := by
      intro hAgain
      rcases List.mem_map.mp hAgain with ⟨ev', hMem', hSameId⟩
      exact (hTold.gone ev' hMem').2 (hSameId ▸ hMem)
    constructor
    · rw [outcomeEvents_concat, hSome, Option.toList_some, List.map_append,
        List.map_singleton, ← List.concat_eq_append]
      exact hTold.once.concat hFresh
    · rw [outcomeEvents_concat, hSome, Option.toList_some]
      intro ev' hMem'
      rcases List.mem_append.mp hMem' with hOldEv | hNewEv
      · exact hGone ev' hOldEv
      · cases List.mem_singleton.mp hNewEv
        exact ⟨hSeen _ hKnown,
          hOwned.released (P := judging) (fun _ _ => rfl) hPhase hExec
            hHeld hReleased hSends⟩
    · exact hLast
    · rw [hBefore, Option.toList_none, List.nil_append] at hOld
      rw [hAfter, Option.toList_some] at hNew
      rw [outcomeEvents_concat, hSome, filings_concat, hNotFiled,
        Option.toList_none, List.append_nil, Option.toList_some]
      have hBelow := (hOld.symm.append_left _).subperm.trans hFiled
      refine List.Subperm.trans (List.Perm.subperm ?_)
        ((List.subperm_append_right [ev]).mpr hBelow)
      rw [List.append_assoc]
      exact (hNew.trans List.perm_append_comm).append_left _
  · rw [hBefore, Option.toList_some] at hOld
    rw [hAfter, Option.toList_none, List.nil_append] at hNew
    constructor
    · rw [outcomeEvents_concat, hNone, Option.toList_none, List.append_nil]
      exact hTold.once
    · rw [outcomeEvents_concat, hNone, Option.toList_none, List.append_nil]
      exact hGone
    · exact hLast
    · rw [outcomeEvents_concat, hNone, filings_concat, hSomeFiled,
        Option.toList_none, List.append_nil, Option.toList_some,
        List.map_append, List.map_singleton, List.append_assoc]
      refine (List.Perm.append_left _ ?_).subperm.trans hFiled
      exact (hNew.append_left _).trans hOld.symm

theorem Told.afterExt
    (hTold : Told tr s shs)
    (hExt : Ext.exec e s = some s') :
    Told (tr ++ [.ext e]) s' (Pumpy.afterExt om judging shs e) := by
  have hNone : outcomeOf (.ext e) = none := rfl
  have hNotFiled : filedBy (.ext e) = none := rfl
  constructor
  · rw [outcomeEvents_concat, hNone, Option.toList_none, List.append_nil]
    exact hTold.once
  · rw [outcomeEvents_concat, hNone, Option.toList_none, List.append_nil]
    intro ev hMem
    rcases hTold.gone ev hMem with ⟨hKnown, hNot⟩
    refine ⟨seenIds_ext hExt _ hKnown, ?_⟩
    exact not_holdersBy_ext om (fun root => by cases root <;> rfl) hExt
      hNot
  · intro pre o post hSplit
    rcases List.eq_nil_or_concat post with rfl | ⟨post', e', rfl⟩
    · have hBoth := List.append_inj' hSplit rfl
      cases hBoth.1
      cases hBoth.2
      intro ev hMem hSame
      refine (hTold.gone ev hMem).2 ?_
      apply List.mem_append_left
      rw [(exec_recv hExt).1, List.map_cons, ← hSame]
      exact List.mem_cons_self
    · rw [List.concat_eq_append, ← List.cons_append,
        ← List.append_assoc] at hSplit
      exact hTold.last pre o post' (List.append_inj' hSplit rfl).1
  · rw [outcomeEvents_concat, hNone, filings_concat, hNotFiled,
      Option.toList_none, List.append_nil, Option.toList_none,
      List.append_nil]
    by_cases hRestart : e = .restart
    · subst hRestart
      rw [held_afterExt_restart, List.append_nil]
      exact (List.sublist_append_left _ _).subperm.trans hTold.filed
    · rw [held_afterExt hRestart]
      · exact hTold.filed
      · intro root _
        cases root <;> rfl

end Steps

section Runs

variable {om : OrderManager} {C : OmCond}
variable {db : Database} {chain : Chain} {seenIds : List OrderId}
variable {tr : List OmEvent} {s : State}
variable {shs : List (Shadow Root Judgement)}

theorem owned_of_judgedRun
    (hRun :
      judging.ShadowRun om.machine C (State.boot db chain seenIds) tr s
        shs) :
    OwnedBy Judgement.holds s shs :=
  ownedBy_of_shadowRun (fun root => by cases root <;> rfl)
    (fun _ _ _ _ hMove => JudgeMove.hands hMove) hRun

theorem told_of_judgedRun
    (hRun :
      judging.ShadowRun om.machine C (State.boot db chain seenIds) tr s
        shs) :
    Told tr s shs := by
  induction hRun with
  | nil =>
      refine ⟨List.nodup_nil, fun ev hMem => ?_,
        fun pre o post hSplit => ?_, List.nil_subperm⟩
      · cases hMem
      · simp at hSplit
  | snoc hRun hCond hStep ih =>
      cases hStep with
      | op hPhase hMove hExec =>
          exact ih.afterOp (owned_of_judgedRun hRun) hPhase hMove hExec
      | ext hExt => exact ih.afterExt hExt

/-
  In every run every order has at most one outcome: it is
  announced once, filed once as it was announced, and followed
  by no pass.
-/
theorem singleOutcome_of_run
    (om : OrderManager)
    (db : Database)
    (chain : Chain)
    (seenIds : List OrderId)
    {tr : List OmEvent}
    {c : OmConfig}
    (hRun :
      Machine.Run om.machine Machine.anyStep
        (State.boot db chain seenIds) tr c) :
    SingleOutcome tr := by
  rcases Protocol.shadowRun_of_run om.follows_judging hRun with
    ⟨shs, hShadow⟩
  have hTold := told_of_judgedRun hShadow
  have hFiled : ((filings tr).map Order.event).Subperm (outcomeEvents tr) :=
    (List.sublist_append_left _ _).subperm.trans hTold.filed
  refine ⟨hTold.once, hTold.last, ?_, fun o hMem => ?_⟩
  · rcases hFiled with ⟨evs, hPerm, hSub⟩
    have hIds := hTold.once.sublist (hSub.map OrderEvent.orderId)
    have hSame := (hPerm.map OrderEvent.orderId).nodup_iff.mp hIds
    rw [List.map_map] at hSame
    exact hSame
  · exact hFiled.subset (List.mem_map_of_mem hMem)

end Runs

------------------------------------------------------------
-- Counters
------------------------------------------------------------

/- What an operation adds to a counter. -/
def Op.counts : Op → Counter → Nat
  | .metric (.count c), c' => if c' = c then 1 else 0
  | _, _ => 0

/- Submitted orders not yet counted as executed or failed. -/
def awaited
    (s : State)
    (shs : List (Shadow Root Judgement)) : Nat :=
  s.chan.queue.length + (Protocol.held Judgement.pending shs).length

/- The counters that an order can be in, one after the other. -/
def Balanced (s : State) (shs : List (Shadow Root Judgement)) : Prop :=
  s.metrics.counters .ordersExecuted +
      s.metrics.counters .ordersFailed + awaited s shs ≤
    s.metrics.counters .ordersSubmitted

section Counts

variable {om : OrderManager} {s s' : State}
variable {shs : List (Shadow Root Judgement)}
variable {tid : Nat} {root : Root} {g g' : Judgement}
variable {op : Op} {env : Outcome} {r : op.Resp} {e : Ext}

theorem exec_counters
    (c : Counter)
    (hExec : State.exec op env s = some (r, s')) :
    s'.metrics.counters c = s.metrics.counters c + op.counts c := by
  cases op with
  | metric op =>
      cases env <;> simp [State.exec] at hExec
      subst hExec
      cases op with
      | inc gauge | dec gauge => rfl
      | count c' =>
          by_cases hSame : c = c'
          · subst hSame
            simp [MetricOp.exec, Op.counts]
          · simp [MetricOp.exec, Op.counts, hSame]
  | engine op | db op | map op | chain op | chan op | sys op =>
      rcases exec_part hExec with ⟨_, rfl⟩
      rfl

theorem Op.counts_of_plain
    (hPlain : op.plain = true) :
    op.counts .ordersExecuted = 0 ∧ op.counts .ordersFailed = 0 := by
  cases op with
  | metric op =>
      cases op with
      | inc gauge | dec gauge => exact ⟨rfl, rfl⟩
      | count c =>
          cases c with
          | ordersSubmitted | ordersExecuted | ordersFailed =>
              cases hPlain
          | _ => exact ⟨rfl, rfl⟩
  | _ => exact ⟨rfl, rfl⟩

/- No move counts an order off twice, or one that was not counted. -/
theorem JudgeMove.balance
    (hMove : JudgeMove g op r g') :
    op.counts .ordersExecuted + op.counts .ordersFailed +
        ((op.enqueues r).toList.length + g'.pending.toList.length) ≤
      g.pending.toList.length + op.counts .ordersSubmitted := by
  cases hMove with
  | plain hPlain =>
      rw [(Op.counts_of_plain hPlain).1, (Op.counts_of_plain hPlain).2,
        Op.enqueues_of_plain hPlain]
      simp
  | draw => exact Nat.le_refl _
  | count => exact Nat.le_refl _
  | @submit id o sent hId | @resend id o sent hId =>
      cases sent with
      | false => exact Nat.zero_le _
      | true => exact Nat.le_refl _
  | judge hCounter =>
      rcases hCounter with rfl | rfl
      · exact Nat.le_refl _
      · exact Nat.le_refl _
  | tell hGate hId hOutcome => exact Nat.zero_le _
  | file hEvent => exact Nat.le_refl _

theorem Balanced.afterOp
    (hBalanced : Balanced s shs)
    (hPhase : shs[tid]? = some ⟨root, some g⟩)
    (hMove : JudgeMove g op r g')
    (hExec : State.exec op env s = some (r, s')) :
    Balanced s' (Pumpy.afterOp judging shs tid root g' op) := by
  rcases exists_held_afterOp (P := judging) (f := Judgement.pending) op g'
      (fun _ _ => rfl) hPhase with
    ⟨rest, hOld, hNew⟩
  have hBefore := hOld.length_eq
  have hAfter := hNew.length_eq
  have hQueue := congrArg List.length (exec_queue hExec)
  have hMoved := hMove.balance
  rw [List.length_append] at hBefore hAfter hQueue
  unfold Balanced awaited at hBalanced ⊢
  rw [exec_counters .ordersExecuted hExec,
    exec_counters .ordersFailed hExec,
    exec_counters .ordersSubmitted hExec]
  omega

theorem Balanced.afterExt
    (hBalanced : Balanced s shs)
    (hExt : Ext.exec e s = some s') :
    Balanced s' (Pumpy.afterExt om judging shs e) := by
  unfold Balanced awaited at hBalanced ⊢
  by_cases hRestart : e = .restart
  · subst hRestart
    rw [held_afterExt_restart]
    cases hExt
    exact Nat.le_refl _
  · rw [metrics_ext hRestart hExt,
      afterExt_of_ne_restart _ _ _ hRestart, Protocol.held_append,
      List.length_append]
    cases e with
    | recv o =>
        have hQueue := congrArg List.length (exec_recv hExt).1
        rw [List.length_cons] at hQueue
        have hPass :
            (Protocol.held Judgement.pending
              ((Ext.recv o).roots.map judging.startShadow)).length = 1 :=
          rfl
        omega
    | submitOrder o | cancelOrder id | setStatus st | closeChannel =>
        cases hExt
        refine le_trans (Nat.add_le_add_left ?_ _) hBalanced
        simp [Ext.roots, Protocol.held, Protocol.startShadow, judging,
          Judgement.pending]
    | land tx =>
        have hSame : s'.chan.queue = s.chan.queue :=
          queue_ext (by simp) (by simp) hRestart hExt
        rw [hSame]
        exact hBalanced
    | restart => exact absurd rfl hRestart

theorem balanced_of_judgedRun
    {C : OmCond} {db : Database} {chain : Chain}
    {seenIds : List OrderId} {tr : List OmEvent}
    (hRun :
      judging.ShadowRun om.machine C (State.boot db chain seenIds) tr s
        shs) :
    Balanced s shs := by
  induction hRun with
  | nil => exact Nat.le_refl _
  | snoc _ _ hStep ih =>
      cases hStep with
      | op hPhase hMove hExec => exact ih.afterOp hPhase hMove hExec
      | ext hExt => exact ih.afterExt hExt

/-
  In every run, the counters of the orders executed and failed
  and the orders in the channel do not exceed the counter of the
  orders submitted.
-/
theorem counts_le_of_run
    (om : OrderManager)
    (db : Database)
    (chain : Chain)
    (seenIds : List OrderId)
    {tr : List OmEvent}
    {c : OmConfig}
    (hRun :
      Machine.Run om.machine Machine.anyStep
        (State.boot db chain seenIds) tr c) :
    c.state.metrics.counters .ordersExecuted +
        c.state.metrics.counters .ordersFailed +
          c.state.chan.queue.length ≤
      c.state.metrics.counters .ordersSubmitted := by
  rcases Protocol.shadowRun_of_run om.follows_judging hRun with
    ⟨shs, hShadow⟩
  have hBalanced := balanced_of_judgedRun hShadow
  unfold Balanced awaited at hBalanced
  omega

end Counts

/- A retried order is executed, counted and filed once. -/
theorem exists_singleOutcome :
    ∃ (tr : List OmEvent) (c : OmConfig),
      Machine.Run sampleManager.machine Machine.anyStep
          (sampleState .enabled) tr c ∧
        (outcomeEvents tr).map (fun ev => (ev.orderId, ev.status)) =
            [("a", .executed)] ∧
          SingleOutcome tr := by
  have hPlay :=
    Machine.exists_run_of_play sampleManager.machine
      (sampleState .enabled) retriedOrderSchedule
      (fun tr _ =>
        decide
          ((outcomeEvents tr).map (fun ev => (ev.orderId, ev.status)) =
            [("a", .executed)]))
      (by decide +kernel)
  rcases hPlay with ⟨tr, c, hRun, hShown⟩
  exact ⟨tr, c, hRun, of_decide_eq_true hShown,
    singleOutcome_of_run sampleManager _ _ _ hRun⟩

/- One of three orders is counted off. -/
theorem exists_counts_le :
    ∃ c : OmConfig,
      c.state.metrics.counters .ordersSubmitted = 3 ∧
        c.state.chan.queue.length = 2 ∧
          c.state.metrics.counters .ordersExecuted +
              c.state.metrics.counters .ordersFailed +
                c.state.chan.queue.length ≤
            c.state.metrics.counters .ordersSubmitted := by
  have hPlay :=
    Machine.exists_run_of_play sampleManager.machine
      (sampleState .enabled) countedOrdersSchedule
      (fun _ c =>
        decide
          (c.state.metrics.counters .ordersSubmitted = 3 ∧
            c.state.chan.queue.length = 2))
      (by decide +kernel)
  rcases hPlay with ⟨tr, c, hRun, hShown⟩
  rcases of_decide_eq_true hShown with ⟨hSubmitted, hQueue⟩
  exact ⟨c, hSubmitted, hQueue,
    counts_le_of_run sampleManager _ _ _ hRun⟩

end Pumpy
