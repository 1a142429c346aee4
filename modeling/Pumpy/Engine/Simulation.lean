import Pumpy.Engine.Execution
import Pumpy.Engine.Landing
import Pumpy.Engine.Passes

/-
  Rejected simulations.  The gate's error keeps the pass from
  falling back to a direct transaction, but the classifier of
  retriable errors does not know it, so that an order with
  retries left goes back into the channel and may trade in a
  later pass.

  Key definitions include:
    * `GateRejects`
    * `RejectionHolds`
    * `FinalRejections`

  The main results are `not_rejectionHolds` and
  `rejectionHolds_of_finalRejections`.
-/

------------------------------------------------------------
-- Rejections
------------------------------------------------------------

namespace Pumpy

open Interleaving

/- The simulation node refuses the transaction. -/
def rejection (tx : Transaction) (simErr : String) : OmCall :=
  ⟨.chain (.simulateTransaction tx), .error simErr⟩

/- The deadline of the pass has not passed. -/
def heldOff : OmCall :=
  ⟨.sys .timer, false⟩

/- The error the gate returns. -/
def rejectionText (simErr : String) : String :=
  "simulation_rejected: " ++ simErr

/- The task is about to return from its gate with a rejection. -/
def GateRejects
    (tr : List OmEvent)
    (tid : Nat)
    (simErr : String) : Prop :=
  ∃ tx h, Machine.calls tr tid = h ++ [rejection tx simErr]

/- The gate of the task has returned a rejection. -/
def GateRejected (tr : List OmEvent) (tid : Nat) : Prop :=
  ∃ tx simErr h h',
    Machine.calls tr tid = h ++ rejection tx simErr :: heldOff :: h'

/-
  From the moment the gate of a pass has returned a rejection,
  nothing is submitted for its order, and the pass does not
  return without having filed the order as failed.
-/
structure RejectionHolds
    (om : OrderManager)
    (s₀ : State)
    (tr : List OmEvent) : Prop where
  silent :
    ∀ pre post tid env simErr id,
      tr = pre ++ .op tid (.sys .timer) env false :: post →
        GateRejects pre tid simErr →
          passId (om.machine.rootsIn tr) tid = some id →
            ∀ tid' op env' r,
              .op tid' op env' r ∈ post →
                passId (om.machine.rootsIn tr) tid' = some id →
                  op.submits = none
  failed :
    ∀ pre post tid env simErr o r (c : OmConfig),
      tr = pre ++ .op tid (.sys .timer) env false :: post →
        GateRejects pre tid simErr →
          Machine.Run om.machine Machine.anyStep s₀ tr c →
            c.tasks[tid]? =
                some ⟨.processOrder o, some (.done r)⟩ →
              ∃ v env₁ env₂ env₃,
                v.id = o.id ∧ v.status = .failed ∧
                  v.error = some (rejectionText simErr) ∧
                  .op tid (.db (.updateOrder v)) env₁ (.ok ()) ∈ post ∧
                  .op tid (.chan (.eventSend v.event)) env₂ () ∈ post ∧
                  .op tid (.map (.historyInsert v)) env₃ () ∈ post

------------------------------------------------------------
-- A Rejected Order Trades
------------------------------------------------------------

/- A manager that simulates before it submits bundles. -/
def simulatingManager : OrderManager :=
  { sampleManager with
    mevEnabled := true
    jitoClient := some ⟨some "http://simulation"⟩ }

/- A pass up to the end of its simulation, with what it is told. -/
def simulateSteps
    (tid : Nat)
    (simulated : Except String Unit) :
    List (Machine.Choice Outcome Ext) :=
  steps tid
    [.time 0, .plain,
      .setting none, .deadline false, .setting none, .deadline false,
      .setting none, .deadline false, .tipAccount none,
      .setting none, .deadline false,
      .unit (.ok ()), .deadline false,
      .blockhash (.ok 7), .deadline false,
      .unit simulated]

/- An order is accepted, and its simulation is rejected. -/
def rejectedSchedule : List (Machine.Choice Outcome Ext) :=
  [.ext (.submitOrder (sampleOrder "" 1000))] ++
    acceptSteps 0 "a" [] ++
    [.ext (.recv (sampleOrder "a" 1000))] ++
    gateSteps 1
      [{ sampleOrder "a" 1000 with status := .validating }] ++
    simulateSteps 1 (.error "custom program error")

/- The order goes back into the channel and is traded. -/
def retriedSchedule : List (Machine.Choice Outcome Ext) :=
  [.task 1 (.deadline false)] ++
    steps 1 [.plain, .plain, .plain, .plain, .plain, .plain] ++
    [.ext (.recv { sampleOrder "a" 1000 with retryCount := 1 })] ++
    gateSteps 2
      [{ sampleOrder "a" 1000 with
          status := .validating, retryCount := 1 }] ++
    simulateSteps 2 (.ok ()) ++
    steps 2
      [.deadline false,
        .unit (.ok ()), .deadline false,
        .blockhash (.ok 8), .deadline false,
        .submit true (.ok "bundle")]

/- The last call of the task is a rejection. -/
def endsInRejection (tr : List OmEvent) (tid : Nat) : Bool :=
  match (Machine.calls tr tid).getLast? with
  | some ⟨.chain (.simulateTransaction _), .error _⟩ => true
  | _ => false

theorem gateRejects_of_endsInRejection
    {tr : List OmEvent} {tid : Nat}
    (hEnds : endsInRejection tr tid = true) :
    ∃ simErr, GateRejects tr tid simErr := by
  unfold endsInRejection at hEnds
  split at hEnds
  · rename_i tx simErr hLast
    refine ⟨simErr, tx, (Machine.calls tr tid).dropLast, ?_⟩
    exact (List.dropLast_append_getLast? _ hLast).symm
  · cases hEnds

/- The gate of the pass returns, and its order is submitted later. -/
def tradesAfter
    (om : OrderManager)
    (tid : Nat)
    (id : OrderId)
    (tr post : List OmEvent) : Bool :=
  match post with
  | .op tid' (.sys .timer) _ false :: rest =>
      tid' = tid && passId (om.machine.rootsIn (tr ++ post)) tid = some id
        && rest.any fun e =>
          match e with
          | .op tid'' op _ _ =>
              op.submits.isSome
                && passId (om.machine.rootsIn (tr ++ post)) tid'' = some id
          | .ext _ => false
  | _ => false

theorem not_rejectionHolds_of_tradesAfter
    {om : OrderManager} {s₀ : State} {tid : Nat} {id : OrderId}
    {tr post : List OmEvent}
    (hEnds : endsInRejection tr tid = true)
    (hTrades : tradesAfter om tid id tr post = true) :
    ¬RejectionHolds om s₀ (tr ++ post) := by
  intro hHolds
  rcases gateRejects_of_endsInRejection hEnds with ⟨simErr, hRejects⟩
  unfold tradesAfter at hTrades
  split at hTrades
  · rename_i tid' env rest
    simp only [Bool.and_eq_true, decide_eq_true_eq] at hTrades
    rcases hTrades with ⟨⟨rfl, hPass⟩, hAny⟩
    rcases List.any_eq_true.mp hAny with ⟨e, hMem, hEvent⟩
    cases e with
    | ext e => cases hEvent
    | op tid'' op env' r =>
        simp only [Bool.and_eq_true, decide_eq_true_eq] at hEvent
        rcases hEvent with ⟨hSubmits, hPass'⟩
        have hNone :=
          hHolds.silent tr rest tid' env simErr id rfl hRejects hPass
            tid'' op env' r hMem hPass'
        rw [hNone] at hSubmits
        cases hSubmits
  · cases hTrades

/- A rejected order with retries left is traded in a later pass. -/
theorem not_rejectionHolds :
    ¬∀ (om : OrderManager) (db : Database) (chain : Chain)
      (seenIds : List OrderId) (tr : List OmEvent) (c : OmConfig),
      Machine.Run om.machine Machine.anyStep
          (State.boot db chain seenIds) tr c →
        RejectionHolds om (State.boot db chain seenIds) tr := by
  intro hAll
  have hPlay :=
    Machine.exists_runs_of_play simulatingManager.machine
      (sampleState .enabled) rejectedSchedule retriedSchedule
      (fun tr _ tr' _ =>
        endsInRejection tr 1 &&
          tradesAfter simulatingManager 1 "a" tr (tr'.drop tr.length))
      (by decide +kernel)
  rcases hPlay with ⟨tr, c, post, c', _, hLater, hShown⟩
  rw [List.drop_left] at hShown
  simp only [Bool.and_eq_true] at hShown
  exact not_rejectionHolds_of_tradesAfter hShown.1 hShown.2
    (hAll simulatingManager _ _ _ (tr ++ post) c' hLater)

------------------------------------------------------------
-- What Is Left of a Rejected Pass
------------------------------------------------------------

section Leads

variable {om : OrderManager} {mint : Pubkey} {o : Order}
variable {tx : Transaction} {simErr : String} {α : Type}

theorem avoids_of_delivers
    {p : OmProg α}
    (hDelivers : p.Always (·.delivers = true)) :
    p.Avoids [rejection tx simErr] := by
  apply Prog.avoids_of hDelivers
  simp [rejection, Op.delivers]

/- Operations outside the deadline are neither of the two. -/
theorem avoids_rejected
    {Q : Op → Bool} {p : OmProg α}
    (hAlways : p.Always (Q · = true))
    (hSim : Q (.chain (.simulateTransaction tx)) = false)
    (hTimer : Q (.sys .timer) = false) :
    p.Avoids [rejection tx simErr, heldOff] := by
  apply Prog.avoids_of hAlways
  simp [rejection, heldOff, hSim, hTimer]

theorem leads_executeSimulationGate
    (jito : JitoClient)
    (tx' : Transaction) :
    (OrderManager.executeSimulationGate jito tx').Leads
      [rejection tx simErr]
      (· = .done (.error (rejectionText simErr))) := by
  unfold OrderManager.executeSimulationGate
  cases jito.simRpcUrl with
  | none => exact Prog.leads_done _ (by simp)
  | some url =>
      by_cases hSame : tx' = tx
      · subst hSame
        refine Prog.leads_act_of rfl fun simulated => ?_
        cases simulated <;> exact Prog.leads_done _ (by simp)
      · refine Prog.leads_act ?_ (by simp) fun simulated => ?_
        · intro r w' hEq
          cases hEq
          exact hSame rfl
        · cases simulated <;> exact Prog.leads_done _ (by simp)

theorem leads_simulateFirst
    {bound : UInt64} {tip : Option Instruction}
    (jito : JitoClient)
    (simEnabled : Bool) :
    (om.simulateFirst jito mint o bound tip simEnabled).Leads
      [rejection tx simErr]
      (· = .done (.error (rejectionText simErr))) := by
  unfold OrderManager.simulateFirst
  cases simEnabled with
  | false => exact Prog.leads_done _ (by simp)
  | true =>
      rw [if_pos rfl]
      refine Prog.Leads.skip
        (avoids_of_delivers delivers_buildTransactionWithTip) (by simp)
        fun built _ => ?_
      cases built with
      | error e => exact Prog.leads_done _ (by simp)
      | ok simTx => exact leads_executeSimulationGate jito simTx

theorem leads_executeViaJitoMinimal
    (jito : JitoClient)
    (maxCost minOutput : UInt64) :
    (om.executeViaJitoMinimal jito mint o maxCost minOutput).Leads
      [rejection tx simErr]
      (· = .done (.error (rejectionText simErr))) := by
  iterate 5
    refine Prog.leads_act (fun r w' hEq => by cases hEq) (by simp)
      fun _ => ?_
  refine (Prog.Leads.bind (leads_simulateFirst jito _) (by simp)
    fun gate _ => ?_).mono ?_
  · cases gate with
    | error e => exact Prog.always_done _
    | ok u => exact avoids_of_delivers (delivers_bundleAttempts 2 0)
  · rintro _ ⟨_, rfl, rfl⟩
    rfl

theorem isPrefixOf_append
    (l l' : List Char) :
    l.isPrefixOf (l ++ l') = true :=
  List.isPrefixOf_iff_prefix.mpr (List.prefix_append l l')

/- The rejection keeps the pass from falling back to RPC. -/
theorem afterJitoError_rejectionText
    (maxCost minOutput : UInt64) :
    om.afterJitoError mint o maxCost minOutput
        (rejectionText simErr) =
      .done (.error (rejectionText simErr)) := by
  have hText :
      "simulation_rejected: ".toList =
        "simulation_rejected:".toList ++ [' '] := by
    decide +kernel
  have hSplit :
      (rejectionText simErr).toList =
        "simulation_rejected:".toList ++ ([' '] ++ simErr.toList) := by
    unfold rejectionText
    rw [String.toList_append, hText, List.append_assoc]
  have hPrefix :
      "simulation_rejected:".toList.isPrefixOf
        (rejectionText simErr).toList = true := by
    rw [hSplit]
    exact isPrefixOf_append _ _
  unfold OrderManager.afterJitoError
  rw [if_pos hPrefix]
  rfl

theorem leads_executeTrade
    (maxCost minOutput : UInt64) :
    (om.executeTrade mint o maxCost minOutput).Leads
      [rejection tx simErr]
      (· = .done (.error (rejectionText simErr))) := by
  unfold OrderManager.executeTrade
  split
  · refine (Prog.Leads.bind (leads_executeViaJitoMinimal _ _ _)
      (by simp) fun result _ => ?_).mono ?_
    · cases result with
      | ok sig =>
          refine Prog.always_act (by simp [rejection]) fun _ => ?_
          exact Prog.always_done _
      | error e => exact avoids_of_delivers (delivers_afterJitoError _ _ e)
    · rintro _ ⟨_, rfl, rfl⟩
      exact afterJitoError_rejectionText _ _
  · exact Prog.leads_of_avoids (by simp)
      (avoids_of_delivers (delivers_executeDirect _ _))

/- What is left of the pass of `o` after its gate has rejected it. -/
def OrderManager.Rejected
    (om : OrderManager)
    (o : Order)
    (simErr : String)
    (q : OmProg (Except OrderError Unit)) : Prop :=
  ∃ v : Order,
    v.id = o.id ∧ v.retryCount = o.retryCount ∧
      q = om.settle v (.error (rejectionText simErr))

theorem leads_executeApproved
    (snapshot : Option BondingCurveParams) :
    (om.executeApproved mint o snapshot).Leads
      [rejection tx simErr, heldOff] (om.Rejected o simErr) := by
  refine Prog.leads_act (fun r w' hEq => by cases hEq) (by simp)
    fun updatedAt => ?_
  refine Prog.leads_act (fun r w' hEq => by cases hEq) (by simp)
    fun _ => ?_
  dsimp only [Prog.bind]
  split
  · exact Prog.leads_crash (by simp)
  · rename_i maxCost minOutput _
    refine (Prog.Leads.bind
      (Prog.Leads.timeout rfl rfl rfl (leads_executeTrade _ _))
      (by simp) fun result _ => ?_).mono ?_
    · exact avoids_rejected (Q := Op.settles) (settles_settle om _ _)
        rfl rfl
    · rintro _ ⟨_, rfl, rfl⟩
      exact
        ⟨{ o with status := .executing, updatedAt := updatedAt }, rfl,
          rfl, rfl⟩

theorem leads_gateAndExecute :
    (om.gateAndExecute mint o).Leads
      [rejection tx simErr, heldOff] (om.Rejected o simErr) := by
  iterate 3
    refine Prog.leads_act (fun r w' hEq => by cases hEq) (by simp)
      fun _ => ?_
  dsimp only [Prog.bind]
  refine Prog.Leads.skip
    (avoids_rejected (Q := Op.decides) decides_evaluate rfl rfl)
    (by simp) fun decision _ => ?_
  refine Prog.Leads.skip
    (avoids_rejected (Q := Op.raises) (raises_raiseDbPause _ _) rfl rfl)
    (by simp) fun _ _ => ?_
  split
  · exact leads_executeApproved _
  · exact Prog.leads_of_avoids (by simp)
      (avoids_rejected (Q := Op.finishes) (finishes_failOrder _ _) rfl
        rfl)

theorem leads_processOrder :
    (om.processOrder o).Leads
      [rejection tx simErr, heldOff] (om.Rejected o simErr) := by
  iterate 3
    refine Prog.leads_act (fun r w' hEq => by cases hEq) (by simp)
      fun _ => ?_
  dsimp only [Prog.bind]
  split
  · exact Prog.leads_of_avoids (by simp)
      (avoids_rejected (Q := Op.finishes) (finishes_failOrder _ _) rfl
        rfl)
  · exact leads_gateAndExecute

theorem leads_body :
    (om.body (.processOrder o)).Leads
      [rejection tx simErr, heldOff]
      fun t => ∃ q, om.Rejected o simErr q ∧
        t = q >>= fun r => pure (.processed r) :=
  Prog.Leads.bind leads_processOrder (by simp)
    fun _ _ => Prog.always_done _

end Leads

------------------------------------------------------------
-- Final Rejections
------------------------------------------------------------

/-
  A rejection finds its order without retries left, or its
  text is one of those that are not retried, and the statement
  that then writes the order's row succeeds.
-/
structure FinalRejections
    (om : OrderManager)
    (tr : List OmEvent)
    (_ : State)
    (e : OmEvent) : Prop where
  unretried :
    ∀ tid env simErr o,
      e = .op tid (.sys .timer) env false →
        GateRejects tr tid simErr →
          (om.machine.rootsIn tr)[tid]? = some (.processOrder o) →
            ¬(o.retryCount < om.config.maxRetries ∧
              isRetriableError (rejectionText simErr) = true)
  written :
    ∀ tid env v r,
      e = .op tid (.db (.updateOrder v)) env r →
        GateRejected tr tid → r = .ok ()

theorem submits_of_finishes
    {op : Op}
    (hFinishes : op.finishes = true) :
    op.submits = none ∧ op.sends = none := by
  rcases op with op | op | op | op | op | op | op <;> cases op <;>
    first
    | exact ⟨rfl, rfl⟩
    | cases hFinishes

section Rests

variable {om : OrderManager} {C : OmCond} {s₀ : State}
variable {pre post tr : List OmEvent} {c : OmConfig}
variable {tid : Nat} {env : Outcome} {simErr : String} {o v : Order}

/- The end of a pass that was rejected for good. -/
theorem settle_of_final
    (hFinal :
      ¬(v.retryCount < om.config.maxRetries ∧
        isRetriableError (rejectionText simErr) = true)) :
    om.settle v (.error (rejectionText simErr)) = (do
      let updatedAt ← Do.utcNow
      Do.count .ordersFailed
      OrderManager.finalizeOrderMinimal
        { v with
          status := .failed
          error := some (rejectionText simErr)
          updatedAt := updatedAt }) :=
  if_neg hFinal

theorem finishes_of_final
    (hFinal :
      ¬(v.retryCount < om.config.maxRetries ∧
        isRetriableError (rejectionText simErr) = true)) :
    (om.settle v (.error (rejectionText simErr)) >>= fun r =>
      (pure (.processed r) : OmProg Ret)).Always
        (·.finishes = true) := by
  rw [settle_of_final hFinal]
  refine Prog.always_act rfl fun updatedAt => ?_
  refine Prog.always_act rfl fun _ => ?_
  exact Prog.Always.bind (finishes_finalizeOrderMinimal _)
    fun _ _ => Prog.always_done _

/- What is left of a pass whose gate has rejected its order. -/
theorem rest_of_gateRejects
    {c₀ : OmConfig}
    (hEarly : Machine.Run om.machine C s₀ pre c₀)
    (hStep :
      Machine.Step om.machine c₀ (.op tid (.sys .timer) env false) c)
    (hRejects : GateRejects pre tid simErr)
    (hRoot :
      (om.machine.rootsIn pre)[tid]? = some (.processOrder o)) :
    ∃ v : Order,
      v.id = o.id ∧ v.retryCount = o.retryCount ∧
        (om.machine.body (.processOrder o)).After
          (Machine.calls (pre ++ [.op tid (.sys .timer) env false]) tid)
          (om.settle v (.error (rejectionText simErr)) >>= fun r =>
            pure (.processed r)) := by
  rcases hRejects with ⟨tx, h, hCalls⟩
  cases hStep with
  | @op s s' tasks _ root _ k _ _ hTask hExec =>
      have hSame : root = .processOrder o := by
        have hAt := congrArg (·[tid]?) hEarly.roots_eq
        simp only [List.getElem?_map, hTask, Option.map_some, hRoot]
          at hAt
        exact Option.some.inj hAt
      subst hSame
      have hBefore := hEarly.after_calls hTask
      have hAfter :=
        hBefore.trans (.call (r := false) Prog.After.refl)
      rw [hCalls, List.append_assoc] at hAfter
      rcases leads_body h _ hAfter with
        ⟨q, ⟨v, hId, hCount, rfl⟩, hLeft⟩
      refine ⟨v, hId, hCount, ?_⟩
      rw [Machine.calls_append_singleton_self, hCalls,
        List.append_assoc, ← hLeft]
      exact hAfter

end Rests

------------------------------------------------------------
-- The Last Holder of an Order
------------------------------------------------------------

/- Nobody but the task holds the order, and nobody else will. -/
def LastHolder
    (tid : Nat)
    (id : OrderId)
    (s : State)
    (shs : List (Shadow Root Phase)) : Prop :=
  (∃ root g, shs[tid]? = some ⟨root, some g⟩ ∧
    g.carries = some id) ∨
    (id ∈ s.seenIds ∧ id ∉ holders s shs)

section LastHolder

variable {om : OrderManager} {s s' : State}
variable {shs shs' : List (Shadow Root Phase)}
variable {tid : Nat} {id : OrderId} {e : OmEvent}

theorem LastHolder.alone
    {tid' : Nat} {root : Root} {g : Phase}
    (hLast : LastHolder tid id s shs)
    (hOwned : Owned s shs)
    (hPhase : shs[tid']? = some ⟨root, some g⟩)
    (hCarries : g.carries = some id) :
    tid' = tid := by
  rcases hLast with ⟨root', g', hAt, hHolds⟩ | ⟨_, hNone⟩
  · exact hOwned.unique hPhase hAt hCarries hHolds
  · refine absurd ?_ hNone
    apply List.mem_append_right
    exact Protocol.mem_held.mpr ⟨tid', root, g, hPhase, hCarries⟩

/- The last holder keeps the order, or drops it for good. -/
theorem LastHolder.step
    (hLast : LastHolder tid id s shs)
    (hOwned : Owned s shs)
    (hStep : om.lifecycle.ShadowStep om.machine s shs e s' shs')
    (hSends : ∀ op env r, e = .op tid op env r → op.sends = none) :
    LastHolder tid id s' shs' := by
  rcases hLast with ⟨root, g, hAt, hHolds⟩ | ⟨hSeen, hNone⟩
  · have hSeen : id ∈ s.seenIds := by
      apply hOwned.seen
      apply List.mem_append_right
      exact Protocol.mem_held.mpr ⟨tid, root, g, hAt, hHolds⟩
    cases hStep with
    | @op _ _ tid' root' g₁ g₂ op env r hPhase hMove hExec =>
        by_cases hTid : tid = tid'
        · subst hTid
          rw [hPhase] at hAt
          cases hAt
          have hQuiet : op.sends = none := hSends op env r rfl
          rcases OrderManager.Move.carries hMove with
            ⟨_, _, hSame | hGone⟩ | ⟨_, _, _, hNot, _⟩ | ⟨o, hSent, _⟩
          · exact .inl ⟨root, g₂, shadowsAfter_self hPhase,
              hSame.trans hHolds⟩
          · refine .inr ⟨?_,
              hOwned.released hPhase hExec hHolds hGone hQuiet⟩
            rw [(exec_seenIds hExec).2]
            exact List.mem_append_right _ hSeen
          · rw [hHolds] at hNot
            cases hNot
          · rw [hQuiet] at hSent
            cases hSent
        · exact .inl ⟨root, g, shadowsAfter_other hTid hAt, hHolds⟩
    | @ext _ _ e hExt =>
        by_cases hRestart : e = .restart
        · subst hRestart
          have hOut : Ext.exec .restart s = some s' := hExt
          refine .inr ⟨seenIds_ext hOut id hSeen, fun hMem => ?_⟩
          have hIn : id ∈ holders s' (shadowsAfterExt om shs .restart) :=
            hMem
          rw [holders_restart hOut] at hIn
          cases hIn
        · refine .inl ⟨root, g, ?_, hHolds⟩
          have hKeeps : (shadowsAfterExt om shs e)[tid]? = shs[tid]? := by
            rw [shadowsAfterExt_of_ne_restart om shs hRestart,
              List.getElem?_append_left
                (List.getElem?_eq_some_iff.mp hAt).1]
          exact hKeeps.trans hAt
  · exact .inr (not_holder_step hStep hSeen hNone)

end LastHolder

------------------------------------------------------------
-- Final Rejections Hold
------------------------------------------------------------

section Runs

variable {om : OrderManager} {C : OmCond}
variable {db : Database} {chain : Chain} {seenIds : List OrderId}
variable {tr pre post : List OmEvent} {c : OmConfig}
variable {tid : Nat} {env : Outcome} {simErr : String} {o : Order}

/- After its deadline has held off, a pass is the last holder. -/
theorem lastHolder_of_heldOff
    {s s' : State} {shs shs' : List (Shadow Root Phase)}
    (hRun :
      OmShadowRun om C (State.boot db chain seenIds) pre s shs)
    (hStep :
      om.lifecycle.ShadowStep om.machine s shs
        (.op tid (.sys .timer) env false) s' shs')
    (hRoot :
      (om.machine.rootsIn pre)[tid]? = some (.processOrder o)) :
    LastHolder tid o.id s' shs' := by
  cases hStep with
  | @op _ _ _ root g g' _ _ _ hPhase hMove hExec =>
      have hSame := root_of_shadow hRun (List.append_nil pre).symm hPhase
      rw [hRoot] at hSame
      cases hSame
      cases hMove with
      | idle hNeutral hOpen => cases hNeutral
      | announce hOp hMay => cases hOp
      | @deadline v active live _ =>
          rcases history_of_shadowRun hRun hPhase with ⟨⟨v', hV, rfl⟩, _⟩
          cases hV
          exact .inl ⟨_, _, shadowsAfter_self hPhase, rfl⟩

/-
  If after its deadline has held off a pass only files its
  order, nothing is submitted for the order any more.
-/
theorem silent_of_finishes
    (hRun :
      Machine.Run om.machine C (State.boot db chain seenIds) tr c)
    (hSplit : tr = pre ++ .op tid (.sys .timer) env false :: post)
    (hRoot :
      (om.machine.rootsIn pre)[tid]? = some (.processOrder o))
    (hFinishes :
      ∀ op env' r, .op tid op env' r ∈ post → op.finishes = true)
    {tid' : Nat} {op : Op} {env' : Outcome} {r : op.Resp}
    (hMem : .op tid' op env' r ∈ post)
    (hPass : passId (om.machine.rootsIn tr) tid' = some o.id) :
    op.submits = none := by
  rcases Protocol.shadowRun_of_run om.follows hRun with ⟨shs, hShadow⟩
  rcases List.append_of_mem hMem with ⟨mid, rest, rfl⟩
  have hLater :
      tr =
        (pre ++ .op tid (.sys .timer) env false :: mid) ++
          .op tid' op env' r :: rest := by
    rw [hSplit, List.append_assoc]
    rfl
  rcases hShadow.at_event hLater with
    ⟨s₁, shs₁, s₂, shs₂, hPre, _, hStep⟩
  have hLast :
      (∀ op env' r, .op tid op env' r ∈ mid → op.finishes = true) →
        LastHolder tid o.id s₁ shs₁ := by
    refine hPre.after
      (Q := fun mid s shs =>
        (∀ op env' r, .op tid op env' r ∈ mid → op.finishes = true) →
          LastHolder tid o.id s shs)
      ?_ ?_ rfl
    · intro s shs s' shs' hBefore _ hNow _
      exact lastHolder_of_heldOff hBefore hNow hRoot
    · intro mid s shs e s' shs' hBefore _ hNow hHolds hAll
      refine (hHolds fun op env' r hIn =>
        hAll op env' r (List.mem_append_left _ hIn)).step
          (owned_of_shadowRun hBefore) hNow ?_
      rintro op env' r rfl
      exact (submits_of_finishes
        (hAll op env' r (List.mem_append_right _ (by simp)))).2
  have hHolds :=
    hLast fun op env' r hIn =>
      hFinishes op env' r (List.mem_append_left _ hIn)
  by_contra hSome
  rcases Option.ne_none_iff_exists'.mp hSome with ⟨tx, hSubmits⟩
  cases hStep with
  | @op _ _ _ root g g' _ _ _ hPhase hMove hExec =>
      rcases OrderManager.Move.submits hMove hSubmits with
        ⟨v, active, rfl, _⟩
      rcases history_of_shadowRun hPre hPhase with ⟨⟨o', rfl, rfl⟩, _⟩
      have hRoot' := root_of_shadow hPre hLater hPhase
      have hId : o'.id = o.id := by
        simpa [passId, hRoot'] using hPass
      have hTid : tid' = tid :=
        hHolds.alone (owned_of_shadowRun hPre) hPhase
          (congrArg some hId)
      subst hTid
      have hNone :=
        (submits_of_finishes
          (hFinishes op env' r (List.mem_append_right _ (by simp)))).1
      rw [hNone] at hSubmits
      cases hSubmits

/- What is left of a pass that was rejected for good. -/
theorem rest_of_final
    (hRun :
      Machine.Run om.machine (FinalRejections om)
        (State.boot db chain seenIds) tr c)
    (hSplit : tr = pre ++ .op tid (.sys .timer) env false :: post)
    (hRejects : GateRejects pre tid simErr)
    (hRoot :
      (om.machine.rootsIn pre)[tid]? = some (.processOrder o)) :
    ∃ v : Order,
      v.id = o.id ∧
        ¬(v.retryCount < om.config.maxRetries ∧
          isRetriableError (rejectionText simErr) = true) ∧
        (om.machine.body (.processOrder o)).After
          (Machine.calls (pre ++ [.op tid (.sys .timer) env false]) tid)
          (om.settle v (.error (rejectionText simErr)) >>= fun r =>
            pure (.processed r)) := by
  rcases hRun.step_at hSplit with ⟨c₀, c₁, hEarly, hCond, hStep⟩
  rcases rest_of_gateRejects hEarly hStep hRejects hRoot with
    ⟨v, hId, hCount, hAfter⟩
  refine ⟨v, hId, ?_, hAfter⟩
  rw [hCount]
  exact hCond.unretried tid env simErr o rfl hRejects hRoot

/- Such a pass files its order as failed before it returns. -/
theorem filed_of_settle
    {v : Order} {h : List OmCall} {r : Ret}
    (hFinal :
      ¬(v.retryCount < om.config.maxRetries ∧
        isRetriableError (rejectionText simErr) = true))
    (hAfter :
      (om.settle v (.error (rejectionText simErr)) >>= fun r =>
        (pure (.processed r) : OmProg Ret)).After h (.done r))
    (hWritten : ∀ v u, ⟨.db (.updateOrder v), u⟩ ∈ h → u = .ok ()) :
    ∃ v' : Order,
      v'.id = v.id ∧ v'.status = .failed ∧
        v'.error = some (rejectionText simErr) ∧
        ⟨.db (.updateOrder v'), .ok ()⟩ ∈ h ∧
        ⟨.chan (.eventSend v'.event), ()⟩ ∈ h ∧
        ⟨.map (.historyInsert v'), ()⟩ ∈ h := by
  rcases Prog.after_bind_done hAfter with
    ⟨h₁, h₂, a, rfl, hSettle, _⟩
  rw [settle_of_final hFinal] at hSettle
  rcases hSettle.act_done_inv with ⟨updatedAt, h₃, rfl, hCount⟩
  rcases hCount.act_done_inv with ⟨u, h₄, rfl, hFinalize⟩
  have hTail :
      ∀ call : OmCall, call ∈ h₄ →
        call ∈ ⟨.sys .utcNow, updatedAt⟩ ::
          ⟨.metric (.count .ordersFailed), u⟩ :: h₄ ++ h₂ :=
    fun call hMem =>
      List.mem_append_left _ (List.mem_cons_of_mem _
        (List.mem_cons_of_mem _ hMem))
  rcases filed_of_finalizeOrderMinimal hFinalize
      fun u hMem => hWritten _ u (hTail _ hMem) with
    ⟨hRow, hEvent, hFiled⟩
  refine
    ⟨{ v with
        status := .failed
        error := some (rejectionText simErr)
        updatedAt := updatedAt }, rfl, rfl, rfl, ?_, ?_, ?_⟩
  · exact hTail _ hRow
  · exact hTail _ hEvent
  · exact hTail _ hFiled

/-
  In every run in which rejections are final, a rejected order
  is not submitted any more and ends failed.
-/
theorem rejectionHolds_of_finalRejections
    (om : OrderManager)
    (db : Database)
    (chain : Chain)
    (seenIds : List OrderId)
    {tr : List OmEvent}
    {c : OmConfig}
    (hRun :
      Machine.Run om.machine (FinalRejections om)
        (State.boot db chain seenIds) tr c) :
    RejectionHolds om (State.boot db chain seenIds) tr := by
  constructor
  · intro pre post tid env simErr id hSplit hRejects hPass tid' op env' r
      hMem hPass'
    have hAt := hRun.root_at hSplit
    have hRootOf :
        ∃ o, (om.machine.rootsIn tr)[tid]? = some (.processOrder o) ∧
          o.id = id := by
      unfold passId at hPass
      split at hPass
      · rename_i o hRoot
        exact ⟨o, hRoot, Option.some.inj hPass⟩
      · cases hPass
    rcases hRootOf with ⟨o, hRoot, rfl⟩
    rw [hRoot] at hAt
    rcases rest_of_final hRun hSplit hRejects hAt with
      ⟨v, hId, hFinal, hAfter⟩
    refine silent_of_finishes hRun hSplit hAt ?_ hMem hPass'
    intro op' env₁ r' hIn
    rcases List.append_of_mem hIn with ⟨mid, rest, rfl⟩
    apply finishes_of_final hFinal
    have hLater :
        tr =
          pre ++ [.op tid (.sys .timer) env false] ++ mid ++
            .op tid op' env₁ r' :: rest := by
      rw [hSplit, List.append_assoc, List.append_assoc]
      rfl
    exact hRun.op_since hAfter (om.machine.root_append hAt _) hLater
  · intro pre post tid env simErr o r c' hSplit hRejects hAny hTask
    have hAt := hRun.root_at hSplit
    have hRoot : (om.machine.rootsIn tr)[tid]? = some (.processOrder o) := by
      rw [← hAny.roots_eq, List.getElem?_map, hTask]
      rfl
    rw [hRoot] at hAt
    rcases rest_of_final hRun hSplit hRejects hAt with
      ⟨v, hId, hFinal, hAfter⟩
    have hSplit' :
        tr = pre ++ [.op tid (.sys .timer) env false] ++ post := by
      rw [hSplit, List.append_assoc]
      rfl
    rw [hSplit'] at hAny
    have hRest := hAny.after_since hAfter hTask
    have hWritten :
        ∀ v u, (⟨.db (.updateOrder v), u⟩ : OmCall) ∈
            Machine.calls post tid → u = .ok () := by
      intro v' u hMem
      rcases Machine.mem_calls.mp hMem with ⟨env', hIn⟩
      rcases List.append_of_mem hIn with ⟨mid, rest, rfl⟩
      have hLater :
          tr =
            (pre ++ .op tid (.sys .timer) env false :: mid) ++
              .op tid (.db (.updateOrder v')) env' u :: rest := by
        rw [hSplit, List.append_assoc]
        rfl
      rcases hRun.step_at hLater with ⟨c₀, c₁, _, hCond, _⟩
      refine hCond.written tid env' v' u rfl ?_
      rcases hRejects with ⟨tx, h, hCalls⟩
      refine ⟨tx, simErr, h, Machine.calls mid tid, ?_⟩
      rw [Machine.calls_append, hCalls, List.append_assoc]
      simp [Machine.calls, Machine.callOf, heldOff]
    rcases filed_of_settle hFinal hRest hWritten with
      ⟨v', hId', hStatus, hError, hRow, hEvent, hFiled⟩
    rcases Machine.mem_calls.mp hRow with ⟨env₁, hRow⟩
    rcases Machine.mem_calls.mp hEvent with ⟨env₂, hEvent⟩
    rcases Machine.mem_calls.mp hFiled with ⟨env₃, hFiled⟩
    exact ⟨v', env₁, env₂, env₃, hId'.trans hId, hStatus, hError, hRow,
      hEvent, hFiled⟩

end Runs

/- The manager without retries. -/
def impatientManager : OrderManager :=
  { simulatingManager with
    config := { sampleManager.config with maxRetries := 0 } }

/- Every statement that updates an order succeeds. -/
def updatesSucceed (tr : List OmEvent) : Bool :=
  tr.all fun e =>
    match e with
    | .op _ (.db (.updateOrder _)) _ r => r.isOk
    | _ => true

theorem ok_of_updatesSucceed
    {tr : List OmEvent} {tid : Nat} {v : Order} {env : Outcome}
    {r : Except DbError Unit}
    (hSucceed : updatesSucceed tr = true)
    (hMem : .op tid (.db (.updateOrder v)) env r ∈ tr) :
    r = .ok () := by
  have hOk : r.isOk = true := List.all_eq_true.mp hSucceed _ hMem
  cases r with
  | error e => cases hOk
  | ok u => rfl

/- An order without retries is rejected, and filed as failed. -/
theorem exists_rejectionHolds :
    ∃ (tr : List OmEvent) (c : OmConfig),
      c.state.maps.history.map (fun o => (o.id, o.status)) =
          [("a", .failed)] ∧
        RejectionHolds impatientManager (sampleState .enabled) tr := by
  have hPlay :=
    Machine.exists_run_of_play impatientManager.machine
      (sampleState .enabled)
      (rejectedSchedule ++ [.task 1 (.deadline false)] ++
        steps 1
          [.time 0, .plain, .stmt .done, .plain, .plain, .plain, .plain,
            .plain, .plain])
      (fun tr c =>
        updatesSucceed tr &&
          decide (c.state.maps.history.map (fun o => (o.id, o.status)) =
            [("a", .failed)]))
      (by decide +kernel)
  rcases hPlay with ⟨tr, c, hRun, hShown⟩
  simp only [Bool.and_eq_true, decide_eq_true_eq] at hShown
  rcases hShown with ⟨hSucceed, hFiled⟩
  refine ⟨tr, c, hFiled,
    rejectionHolds_of_finalRejections impatientManager _ _ _
      (hRun.meets ?_)⟩
  intro pre post e c' hSplit _
  constructor
  · intro tid env simErr o _ _ _ hRetried
    exact absurd hRetried.1 (UInt32.not_lt.mpr (UInt32.zero_le))
  · rintro tid env v r rfl _
    rw [hSplit] at hSucceed
    exact ok_of_updatesSucceed hSucceed
      (List.mem_append_right pre List.mem_cons_self)

end Pumpy
