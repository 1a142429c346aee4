import Pumpy.Engine.Execution
import Pumpy.Engine.Holding

/-
  The protocol of the engine's tasks that keeps an order's
  retries in view: a submission sends the order it has drawn an
  identifier for; a pass ends by refusing its order, by filing
  it, or by sleeping its back-off and sending it once more.

  Key definitions include:
    * `Retry`
    * `RetryMove`
    * `OrderManager.retrying`

  The main results are `OrderManager.follows_retrying` and
  `RetryMove.hands`.
-/

------------------------------------------------------------
-- Phases
------------------------------------------------------------

namespace Pumpy

open Interleaving

/-
  Where a task stands with its order: `resting` has slept its
  back-off, `resent` has put the order back into the channel.
-/
inductive Retry where
  | asking (o : Order) : Retry
  | accepting (id : OrderId) (count : UInt32) : Retry
  | passing (o : Order) : Retry
  | refused (o : Order) : Retry
  | resting (o : Order) (delay : Duration) : Retry
  | resent : Retry
  | apart : Retry

namespace Op

/- The operations that neither send an order nor draw one. -/
def keeps : Op → Bool
  | chan (.orderSend _) => false
  | sys .newUuid => false
  | _ => true

/- The gate's verdict on an order it does not let through. -/
def refuses : Op → Bool
  | engine (.emit rec) => !rec.decision.isAllow
  | _ => false

/- The operations after an order went back into the channel. -/
def departs : Op → Bool
  | map .activeLock => true
  | map (.activeRemove _) => true
  | map .activeUnlock => true
  | metric (.dec _) => true
  | _ => false

theorem keeps_of_decides
    {op : Op}
    (hDecides : op.decides = true) :
    op.keeps = true := by
  cases op with
  | engine op => rfl
  | _ => cases hDecides

theorem keeps_of_raises
    {op : Op}
    (hRaises : op.raises = true) :
    op.keeps = true := by
  rcases op with op | op | op | op | op | op | op <;> cases op <;>
    first
    | rfl
    | cases hRaises

theorem keeps_of_executes
    {op : Op}
    (hExecutes : op.executes = true) :
    op.keeps = true ∧ op.refuses = false := by
  rcases op with op | op | op | op | op | op | op <;> cases op <;>
    first
    | exact ⟨rfl, rfl⟩
    | cases hExecutes

theorem keeps_of_finishes
    {op : Op}
    (hFinishes : op.finishes = true) :
    op.keeps = true ∧ op.refuses = false := by
  rcases op with op | op | op | op | op | op | op <;> cases op <;>
    first
    | exact ⟨rfl, rfl⟩
    | cases hFinishes

theorem keeps_of_departs
    {op : Op}
    (hDeparts : op.departs = true) :
    op.keeps = true ∧ op.refuses = false := by
  rcases op with op | op | op | op | op | op | op <;> cases op <;>
    first
    | exact ⟨rfl, rfl⟩
    | cases hDeparts

theorem enqueues_of_keeps
    {op : Op}
    (hKeeps : op.keeps = true)
    (r : op.Resp) :
    op.enqueues r = none := by
  cases op with
  | chan op =>
      cases op with
      | orderSend o => cases hKeeps
      | eventSend ev => rfl
  | _ => rfl

theorem drawn_of_keeps
    {op : Op}
    (hKeeps : op.keeps = true)
    (r : op.Resp) :
    op.drawn r = none := by
  cases op with
  | sys op =>
      cases op with
      | newUuid => cases hKeeps
      | _ => rfl
  | _ => rfl

end Op

namespace Retry

/- What a task may do without changing where it stands. -/
def mayDo : Retry → Op → Bool
  | asking _, _ => false
  | accepting _ _, op => op.keeps
  | passing _, op => op.keeps && !op.refuses
  | refused _, op => op.keeps
  | resting _ _, _ => false
  | resent, op => op.departs
  | apart, op => op.keeps

/- A task may panic while it decides, prices or waits. -/
def mayCrash : Retry → Prop
  | accepting _ _ => True
  | passing _ => True
  | refused _ => True
  | _ => False

/- The identifier a task may still send. -/
def holds : Retry → Option OrderId
  | accepting id _ => some id
  | passing o => some o.id
  | resting o _ => some o.id
  | _ => none

theorem keeps_of_mayDo
    {g : Retry} {op : Op}
    (hMay : g.mayDo op = true) :
    op.keeps = true := by
  cases g with
  | asking o | resting o delay => cases hMay
  | accepting id count | refused o | apart => exact hMay
  | passing o => exact (Bool.and_eq_true_iff.mp hMay).1
  | resent => exact (Op.keeps_of_departs hMay).1

end Retry

/- The moves of the retries. -/
inductive RetryMove
    (om : OrderManager) :
    Retry → (op : Op) → op.Resp → Retry → Prop
  | idle
      {g : Retry} {op : Op} {r : op.Resp}
      (hMay : g.mayDo op = true) :
      RetryMove om g op r g
  | draw
      {o : Order} {id : OrderId} :
      RetryMove om (.asking o) (.sys .newUuid) id
        (.accepting id o.retryCount)
  | submit
      {id : OrderId} {count : UInt32} {o : Order} {sent : Bool}
      (hId : o.id = id)
      (hCount : o.retryCount = count) :
      RetryMove om (.accepting id count) (.chan (.orderSend o)) sent
        .apart
  | refuse
      {o : Order} {rec : AuditRecord} {u : Unit}
      (hRefuses : rec.decision.isAllow = false) :
      RetryMove om (.passing o) (.engine (.emit rec)) u (.refused o)
  | rest
      {o : Order} {delay : Duration} {u : Unit}
      (hLeft : o.retryCount < om.config.maxRetries)
      (hDelay : om.retryBackoff o = some delay) :
      RetryMove om (.passing o) (.sys (.sleep delay)) u
        (.resting o delay)
  | resend
      {o o' : Order} {delay : Duration} {sent : Bool}
      (hId : o'.id = o.id)
      (hCount : o'.retryCount = o.retryCount + 1) :
      RetryMove om (.resting o delay) (.chan (.orderSend o')) sent
        .resent

namespace OrderManager

/- The retries of the engine's tasks. -/
def retrying (om : OrderManager) :
    Protocol Op Op.Resp Root Retry where
  start
    | .submitOrder o => .asking o
    | .processOrder o => .passing o
    | .cancelOrder _ => .apart
    | .pauseWallet _ _ => .apart
  move := RetryMove om
  crash := Retry.mayCrash

end OrderManager

/- A move of the retries hands its identifier on. -/
theorem RetryMove.hands
    {om : OrderManager} {g g' : Retry} {op : Op} {r : op.Resp}
    (hMove : RetryMove om g op r g') :
    Hands Retry.holds g op r g' := by
  cases hMove with
  | idle hMay =>
      have hKeeps := Retry.keeps_of_mayDo hMay
      exact .keeps (Op.enqueues_of_keeps hKeeps r)
        (Op.drawn_of_keeps hKeeps r) rfl
  | draw => exact .draws rfl rfl rfl rfl
  | @submit id count o sent hId hCount =>
      cases sent with
      | false => exact .drops rfl rfl rfl
      | true => exact .sends rfl rfl (congrArg some hId.symm) rfl
  | refuse hRefuses => exact .drops rfl rfl rfl
  | rest hLeft hDelay => exact .keeps rfl rfl rfl
  | @resend o o' delay sent hId hCount =>
      cases sent with
      | false => exact .drops rfl rfl rfl
      | true => exact .sends rfl rfl (congrArg some hId.symm) rfl

------------------------------------------------------------
-- Programs
------------------------------------------------------------

namespace OrderManager

variable {om : OrderManager} {α : Type}
variable {g : Retry} {id : OrderId} {o : Order} {count : UInt32}

/- An operation that leaves the task where it stands. -/
theorem retry_idle
    {op : Op}
    {k : op.Resp → OmProg α}
    {Q : α → Retry → Prop}
    (hMay : g.mayDo op = true)
    (hRest : ∀ r, om.retrying.Wp (k r) g Q) :
    om.retrying.Wp (.act op k) g Q :=
  fun r => ⟨g, .idle hMay, hRest r⟩

/- A program of such operations. -/
theorem retry_of_always
    {p : OmProg α}
    (hAlways : p.Always (g.mayDo · = true))
    (hCrash : g.mayCrash) :
    om.retrying.Wp p g (fun _ g' => g' = g) :=
  Protocol.Wp.of_always hAlways (fun _ _ hMay => .idle hMay) hCrash

------------------------------------------------------------
-- The Gate
------------------------------------------------------------

theorem mayDo_raiseDbPause
    (d : Decision)
    (default : String)
    (hGate : g = .passing o ∨ g = .refused o) :
    (raiseDbPause d default).Always (g.mayDo · = true) := by
  refine Prog.always_act ?_ fun needsDbPause => ?_
  · rcases hGate with rfl | rfl <;> rfl
  · cases needsDbPause with
    | false => exact Prog.always_done _
    | true =>
        refine Prog.always_act ?_ fun rejectCount => ?_
        · rcases hGate with rfl | rfl <;> rfl
        · refine Prog.always_act ?_ fun _ => Prog.always_done _
          rcases hGate with rfl | rfl <;> rfl

/- Where a pass stands once its gate has decided. -/
def gated (o : Order) (d : Decision) : Retry :=
  if d.isAllow then .passing o else .refused o

theorem retry_emit
    (ctx : DecisionContext)
    (d : Decision) :
    om.retrying.Wp (DecisionEngine.emit ctx d) (.passing o)
      (fun d g => g = gated o d) := by
  intro u
  refine ⟨gated o d, ?_, rfl⟩
  unfold gated
  split
  · next hAllow =>
    refine .idle ?_
    simp [Retry.mayDo, Op.keeps, Op.refuses, hAllow]
  · next hRefuses => exact .refuse (Bool.eq_false_iff.mpr hRefuses)

theorem retry_countReject
    (de : DecisionEngine)
    (ctx : DecisionContext)
    (d : Decision)
    (n : UInt32) :
    om.retrying.Wp (de.countReject ctx d n) (.passing o)
      (fun d g => g = gated o d) := by
  unfold DecisionEngine.countReject
  split
  · refine retry_idle rfl fun wasPaused => ?_
    cases wasPaused with
    | true => exact retry_emit ctx d
    | false => exact retry_idle rfl fun _ => retry_emit ctx _
  · exact retry_emit ctx d

/- The gate of a pass. -/
theorem retry_evaluate
    (de : DecisionEngine)
    (ctx : DecisionContext) :
    om.retrying.Wp (de.evaluate ctx) (.passing o)
      (fun d g => g = gated o d) := by
  unfold DecisionEngine.evaluate
  refine retry_idle rfl fun autoPaused => ?_
  cases autoPaused with
  | true => exact retry_emit ctx _
  | false =>
      dsimp only [Prog.bind]
      rw [if_neg (by simp)]
      split
      · exact retry_emit ctx _
      · split
        · refine retry_idle rfl fun prev => ?_
          dsimp only [Prog.bind]
          split
          · trivial
          · exact retry_countReject de ctx _ _
        · trivial
        · exact retry_idle rfl fun _ => retry_emit ctx _

------------------------------------------------------------
-- Submissions and Cancellations
------------------------------------------------------------

theorem retry_selfHealingResume :
    om.retrying.Wp selfHealingResume (.accepting id count)
      (fun _ g => g = .accepting id count) := by
  unfold selfHealingResume
  refine retry_idle rfl fun autoPaused => ?_
  cases autoPaused with
  | false => exact rfl
  | true =>
      refine retry_idle rfl fun dbStatus => ?_
      dsimp only [Prog.bind]
      split
      · iterate 3
          refine retry_idle rfl fun _ => ?_
        exact rfl
      · exact rfl

theorem retry_enqueue
    (o : Order) :
    om.retrying.Wp (om.enqueue o) (.accepting o.id o.retryCount)
      (fun _ _ => True) := by
  unfold enqueue
  iterate 2
    refine retry_idle rfl fun _ => ?_
  refine retry_idle rfl fun stored => ?_
  cases stored with
  | error e => trivial
  | ok u =>
      refine retry_idle rfl fun pushed => ?_
      cases pushed with
      | false => trivial
      | true =>
          iterate 2
            refine retry_idle rfl fun _ => ?_
          intro sent
          refine ⟨.apart, .submit rfl rfl, ?_⟩
          cases sent <;> trivial

theorem retry_submitOrder
    (o : Order) :
    om.retrying.Wp (om.submitOrder o) (.asking o)
      (fun _ _ => True) := by
  unfold submitOrder
  intro id
  refine ⟨.accepting id o.retryCount, .draw, ?_⟩
  refine retry_idle rfl fun active => ?_
  have hEvaluate :
      (om.decisionEngine.evaluate
        (om.submitContext { o with id := id } active)).Always
          (·.keeps = true) :=
    decides_evaluate.mono fun _ => Op.keeps_of_decides
  apply (retry_of_always (g := .accepting id o.retryCount) hEvaluate
    trivial).bind
  rintro decision g rfl
  apply retry_selfHealingResume.bind
  rintro _ g rfl
  have hRaise :=
    (raises_raiseDbPause decision
      "consecutive_reject threshold exceeded").mono
        fun _ => Op.keeps_of_raises
  apply (retry_of_always (g := .accepting id o.retryCount) hRaise
    trivial).bind
  rintro _ g rfl
  cases decision with
  | allow => exact retry_enqueue { o with id := id }
  | reject reason => trivial
  | halt reason => trivial

theorem retry_cancelActive
    (id : OrderId) :
    om.retrying.Wp (cancelActive id) .apart (fun _ _ => True) := by
  unfold cancelActive
  refine retry_idle rfl fun _ => ?_
  refine retry_idle rfl fun removed => ?_
  cases removed with
  | none => exact retry_idle rfl fun _ => trivial
  | some order =>
      refine retry_idle rfl fun updatedAt => ?_
      refine retry_idle rfl fun updated => ?_
      cases updated with
      | error e => exact retry_idle rfl fun _ => trivial
      | ok u =>
          iterate 4
            refine retry_idle rfl fun _ => ?_
          trivial

theorem retry_cancelOrder
    (id : OrderId) :
    om.retrying.Wp (cancelOrder id) .apart (fun _ _ => True) := by
  unfold cancelOrder
  refine retry_idle rfl fun dropped => ?_
  cases dropped with
  | false => exact retry_cancelActive id
  | true =>
      iterate 2
        refine retry_idle rfl fun _ => ?_
      exact retry_cancelActive id

theorem retry_pauseWallet
    (reason : String)
    (rejectCount : UInt32) :
    om.retrying.Wp (pauseWallet reason rejectCount) .apart
      (fun _ _ => True) := by
  unfold pauseWallet
  iterate 3
    refine retry_idle rfl fun _ => ?_
  trivial

------------------------------------------------------------
-- Passes
------------------------------------------------------------

/- A pass that files its order. -/
theorem retry_finishes
    {p : OmProg α}
    (hFinishes : p.Always (·.finishes = true))
    (hGate : g = .passing o ∨ g = .refused o) :
    om.retrying.Wp p g (fun _ _ => True) := by
  have hMay : p.Always (g.mayDo · = true) :=
    hFinishes.mono fun op hOp => by
      have hKeeps := Op.keeps_of_finishes hOp
      rcases hGate with rfl | rfl
      · simp [Retry.mayDo, hKeeps]
      · exact hKeeps.1
  have hCrash : g.mayCrash := by
    rcases hGate with rfl | rfl <;> trivial
  exact (retry_of_always hMay hCrash).mono fun _ _ _ => trivial

/- A pass that puts its order back. -/
theorem retry_requeue
    {v : Order} {backoff : Duration}
    (hId : v.id = o.id)
    (hCount : v.retryCount = o.retryCount)
    (hLeft : o.retryCount < om.config.maxRetries)
    (hDelay : om.retryBackoff o = some backoff) :
    om.retrying.Wp (requeue v backoff) (.passing o)
      (fun _ _ => True) := by
  unfold requeue
  intro u
  refine ⟨.resting o backoff, .rest hLeft hDelay, ?_⟩
  intro sent
  refine ⟨.resent, .resend hId (congrArg (· + 1) hCount), ?_⟩
  iterate 4
    refine retry_idle rfl fun _ => ?_
  trivial

theorem retry_settle
    {v : Order}
    (result : Except String String)
    (hId : v.id = o.id)
    (hCount : v.retryCount = o.retryCount) :
    om.retrying.Wp (om.settle v result) (.passing o)
      (fun _ _ => True) := by
  cases result with
  | ok sig =>
      unfold settle
      iterate 3
        refine retry_idle rfl fun _ => ?_
      exact retry_finishes (finishes_finalizeOrderMinimal _) (.inl rfl)
  | error e =>
      dsimp only [settle]
      have hBackoff : om.retryBackoff v = om.retryBackoff o := by
        unfold retryBackoff
        rw [hCount]
      split
      · next hAgain =>
        rw [hBackoff]
        split
        · trivial
        · next backoff hDelay =>
          exact retry_requeue hId hCount (hCount ▸ hAgain.1) hDelay
      · iterate 2
          refine retry_idle rfl fun _ => ?_
        exact retry_finishes (finishes_finalizeOrderMinimal _)
          (.inl rfl)

theorem retry_executeApproved
    {v : Order}
    (mint : Pubkey)
    (snapshot : Option BondingCurveParams)
    (hId : v.id = o.id)
    (hCount : v.retryCount = o.retryCount) :
    om.retrying.Wp (om.executeApproved mint v snapshot) (.passing o)
      (fun _ _ => True) := by
  unfold executeApproved
  iterate 2
    refine retry_idle rfl fun _ => ?_
  dsimp only [Prog.bind]
  split
  · trivial
  · refine (retry_of_always (g := .passing o)
      (fun op hExecutes => ?_) trivial).bind ?_
    · rcases Prog.canExecute_timeout hExecutes with rfl | hTrade
      · rfl
      · have hKeeps :=
          Op.keeps_of_executes (executes_executeTrade _ _ op hTrade)
        simp [Retry.mayDo, hKeeps]
    · rintro result g rfl
      exact retry_settle _ hId hCount

theorem retry_gateAndExecute
    {v : Order}
    (mint : Pubkey)
    (hId : v.id = o.id)
    (hCount : v.retryCount = o.retryCount) :
    om.retrying.Wp (om.gateAndExecute mint v) (.passing o)
      (fun _ _ => True) := by
  unfold gateAndExecute
  iterate 3
    refine retry_idle rfl fun _ => ?_
  apply (retry_evaluate _ _).bind
  rintro decision g rfl
  have hGate :
      gated o decision = .passing o ∨ gated o decision = .refused o := by
    unfold gated
    split
    · exact .inl rfl
    · exact .inr rfl
  have hCrash : (gated o decision).mayCrash := by
    rcases hGate with hGate | hGate <;> rw [hGate] <;> trivial
  apply (retry_of_always (mayDo_raiseDbPause _ _ hGate) hCrash).bind
  rintro _ g rfl
  split
  · next hAllow =>
    have hPassing : gated o decision = .passing o := if_pos hAllow
    rw [hPassing]
    exact retry_executeApproved mint _ hId hCount
  · exact retry_finishes (finishes_failOrder _ _) hGate

theorem retry_processOrder
    (o : Order) :
    om.retrying.Wp (om.processOrder o) (.passing o)
      (fun _ _ => True) := by
  unfold processOrder
  iterate 3
    refine retry_idle rfl fun _ => ?_
  dsimp only [Prog.bind]
  split
  · exact retry_finishes (finishes_failOrder _ _) (.inl rfl)
  · exact retry_gateAndExecute _ rfl rfl

/- Every task of the order manager retries this way. -/
theorem follows_retrying
    (om : OrderManager) :
    om.retrying.Follows om.machine (fun _ _ => True) := by
  intro root
  cases root with
  | submitOrder o =>
      exact (retry_submitOrder o).bind fun _ _ _ => trivial
  | processOrder o =>
      exact (retry_processOrder o).bind fun _ _ _ => trivial
  | cancelOrder id =>
      exact (retry_cancelOrder id).bind fun _ _ _ => trivial
  | pauseWallet reason rejectCount =>
      exact (retry_pauseWallet reason rejectCount).bind
        fun _ _ _ => trivial

end OrderManager

end Pumpy
