import Pumpy.Engine.OperatorPause
import Pumpy.Engine.Passes

/-
  Cancellation.  A cancel takes an order out of the pending
  deque and the active map, but not out of the channel and
  not out of a running pass, so that the order may trade all
  the same.  It is effective where it meets no pass of its
  order, and the gate refuses the passes that come later.

  Key definitions include:
    * `CancellationHolds`
    * `QuietCancels`
    * `Retired`

  The main results are `not_cancellationHolds` and
  `cancellationHolds_of_quietCancels`.
-/

------------------------------------------------------------
-- Effective and Final
------------------------------------------------------------

namespace Pumpy

open Interleaving

/-
  The order an operation records a status of, and the status;
  a trade counts as executed.
-/
def Op.records : Op → Option (OrderId × OrderStatus)
  | db (.insertOrder o) => some (o.id, o.status)
  | db (.updateOrder o) => some (o.id, o.status)
  | op => op.announces

theorem Op.records_of_neutral
    {op : Op}
    (hNeutral : op.neutral = true) :
    op.records = none := by
  rcases op with op | op | op | op | op | op | op <;> cases op <;>
    first
    | rfl
    | cases hNeutral

theorem Op.records_of_announces
    {op : Op} {p : OrderId × OrderStatus}
    (hOp : op.announces = some p) :
    op.records = some p := by
  rcases op with op | op | op | op | op | op | op <;> cases op <;>
    first
    | exact hOp
    | cases hOp

/-
  A cancel that returns before anything was submitted for its
  order keeps it from trading, and an order recorded as
  cancelled stays cancelled.
-/
structure CancellationHolds
    (om : OrderManager)
    (s₀ : State)
    (tr : List OmEvent) : Prop where
  effective :
    ∀ pre post (c : OmConfig) (tid : Nat) id,
      tr = pre ++ post →
        Machine.Run om.machine Machine.anyStep s₀ pre c →
          c.tasks[tid]? =
              some ⟨.cancelOrder id,
                some (.done (.cancelled (.ok ())))⟩ →
            (∀ tx, ¬SubmittedFor om pre id tx) →
              ∀ tx, ¬SubmittedFor om tr id tx
  final :
    ∀ pre post tid ev env,
      tr = pre ++ .op tid (.chan (.eventSend ev)) env () :: post →
        ev.status = .cancelled →
          ∀ tid' op env' r st, .op tid' op env' r ∈ post →
            op.records = some (ev.orderId, st) → st = .cancelled

------------------------------------------------------------
-- A Cancelled Order Trades
------------------------------------------------------------

def submitsNothing (tr : List OmEvent) : Bool :=
  tr.all fun e =>
    match e with
    | .op _ op _ _ => op.submits.isNone
    | .ext _ => true

theorem not_submittedFor_of_submitsNothing
    {om : OrderManager} {tr : List OmEvent}
    (hNothing : submitsNothing tr = true)
    (id : OrderId)
    (tx : Transaction) :
    ¬SubmittedFor om tr id tx := by
  rintro ⟨tid, op, env, r, hMem, hSubmits, _⟩
  have hNone : op.submits.isNone = true :=
    List.all_eq_true.mp hNothing _ hMem
  rw [hSubmits] at hNone
  cases hNone

/- The task has returned from a successful cancel of `id`. -/
def hasCancelled (c : OmConfig) (tid : Nat) (id : OrderId) : Bool :=
  match c.tasks[tid]? with
  | some ⟨.cancelOrder id', some (.done (.cancelled (.ok ())))⟩ =>
      id' = id
  | _ => false

theorem task_of_hasCancelled
    {c : OmConfig} {tid : Nat} {id : OrderId}
    (hDone : hasCancelled c tid id = true) :
    c.tasks[tid]? =
      some ⟨.cancelOrder id,
        some (.done (.cancelled (.ok ())))⟩ := by
  unfold hasCancelled at hDone
  split at hDone
  · rename_i id' hTask
    have hId : id' = id := of_decide_eq_true hDone
    rw [hTask, hId]
  · cases hDone

/- An order is accepted, and cancelled while it is in the channel. -/
def queuedCancelSchedule : List (Machine.Choice Outcome Ext) :=
  [.ext (.submitOrder (sampleOrder "" 1000))] ++
    acceptSteps 0 "a" [] ++
    [.ext (.cancelOrder "a")] ++
    steps 1 [.plain, .plain, .plain, .plain, .plain, .plain]

/- The worker takes it off the channel and trades it. -/
def lateTradeSchedule : List (Machine.Choice Outcome Ext) :=
  [.ext (.recv (sampleOrder "a" 1000))] ++
    gateSteps 2
      [{ sampleOrder "a" 1000 with status := .validating }] ++
    steps 2
      [.time 0, .plain, .unit (.ok ()), .deadline false,
        .blockhash (.ok 7), .deadline false,
        .submit true (.ok "signature")]

/- An order trades although its cancel has returned. -/
theorem not_cancellationHolds :
    ¬∀ (om : OrderManager) (db : Database) (chain : Chain)
      (seenIds : List OrderId) (tr : List OmEvent) (c : OmConfig),
      Machine.Run om.machine Machine.anyStep
          (State.boot db chain seenIds) tr c →
        CancellationHolds om (State.boot db chain seenIds) tr := by
  intro hAll
  have hPlay :=
    Machine.exists_runs_of_play sampleManager.machine
      (sampleState .enabled) queuedCancelSchedule lateTradeSchedule
      (fun tr c tr' _ =>
        submitsNothing tr && hasCancelled c 1 "a" &&
          showsSubmission sampleManager "a" (bundleTrade 7) tr')
      (by decide +kernel)
  rcases hPlay with ⟨tr, c, post, c', hRun, hLater, hShown⟩
  simp only [Bool.and_eq_true] at hShown
  rcases hShown with ⟨⟨hNothing, hDone⟩, hTrades⟩
  have hHolds := hAll sampleManager _ _ _ (tr ++ post) c' hLater
  exact hHolds.effective tr post c 1 "a" rfl hRun
    (task_of_hasCancelled hDone)
    (not_submittedFor_of_submitsNothing hNothing "a") _
    (submittedFor_of_shows hTrades)

------------------------------------------------------------
-- Quiet Cancels
------------------------------------------------------------

/- Some cancel of the order has looked into the active map. -/
def LookedFor
    (om : OrderManager)
    (tr : List OmEvent)
    (id : OrderId) : Prop :=
  ∃ tid env removed,
    .op tid (.map (.activeRemove id)) env removed ∈ tr ∧
      (om.machine.rootsIn tr)[tid]? = some (.cancelOrder id)

/-
  No cancel looks into the active map while a pass of its
  order is under way, and whenever the execution gate consults
  the engine for an order a cancel has looked for, with nothing
  submitted yet, the latch is set or the order breaks a rule.
-/
structure QuietCancels
    (om : OrderManager)
    (s₀ : State)
    (tr : List OmEvent)
    (s : State)
    (e : OmEvent) : Prop where
  alone :
    ∀ tid id env removed,
      e = .op tid (.map (.activeRemove id)) env removed →
        (om.machine.rootsIn tr)[tid]? = some (.cancelOrder id) →
          ¬PassUnderWay om s₀ tr id
  refused :
    ∀ tid env b o,
      e = .op tid (.engine .loadAutoPaused) env b →
        (om.machine.rootsIn tr)[tid]? = some (.processOrder o) →
          LookedFor om tr o.id →
            (∀ tx, ¬SubmittedFor om tr o.id tx) →
              s.latch.autoPaused = true ∨
                ∀ active, ActiveRead tr tid active →
                  ¬om.Cleared .execution o active


------------------------------------------------------------
-- Looks
------------------------------------------------------------

/- The cancel has taken the entry out of the active map. -/
def Withdrew
    (tr : List OmEvent)
    (tid : Nat)
    (id : OrderId)
    (removed : Option Order) : Prop :=
  ∃ env, .op tid (.map (.activeRemove id)) env removed ∈ tr

section Looks

variable {om : OrderManager} {C : OmCond}
variable {db : Database} {chain : Chain} {seenIds : List OrderId}
variable {tr : List OmEvent} {s : State}
variable {shs : List (Shadow Root Phase)}
variable {tid : Nat} {g g' : Phase} {op : Op} {r : op.Resp}
variable {id : OrderId}

theorem Withdrew.append
    {removed : Option Order}
    (h : Withdrew tr tid id removed)
    (tr' : List OmEvent) :
    Withdrew (tr ++ tr') tid id removed := by
  rcases h with ⟨env, hMem⟩
  exact ⟨env, List.mem_append_left _ hMem⟩

/- A cancel goes on cancelling, or has taken its look. -/
theorem OrderManager.Move.withdraws
    (tid : Nat)
    (env : Outcome)
    (hMove : om.Move g op r g')
    (hCancels : ∃ holding, g = .cancelling id holding) :
    (∃ holding, g' = .cancelling id holding) ∨
      ∃ removed,
        (.op tid op env r : OmEvent) =
            .op tid (.map (.activeRemove id)) env removed ∧
          g' = .withdrawing id removed := by
  rcases hCancels with ⟨holding, rfl⟩
  cases hMove with
  | idle hNeutral hOpen => exact .inl ⟨_, rfl⟩
  | announce hOp hMay => exact hMay.elim
  | close hId hMay => exact hMay.elim
  | cancelLock => exact .inl ⟨_, rfl⟩
  | withdraw => exact .inr ⟨_, rfl, rfl⟩

/- Before its look a cancel is nothing but cancelling. -/
theorem cancelling_or_withdrew
    (hRun :
      OmShadowRun om C (State.boot db chain seenIds) tr s shs)
    (hAt : shs[tid]? = some ⟨.cancelOrder id, some g⟩) :
    (∃ holding, g = .cancelling id holding) ∨
      ∃ removed, Withdrew tr tid id removed := by
  refine hRun.local_invariant
    (fun tr tid root g => ∀ id, root = .cancelOrder id →
      (∃ holding, g = .cancelling id holding) ∨
        ∃ removed, Withdrew tr tid id removed)
    ?_ ?_ ?_ hAt id rfl
  · rintro tr tid root _ id rfl
    exact .inl ⟨false, rfl⟩
  · rintro tr _ _ _ tid root g op env r g' _ _ _ _ hLooked hMove id rfl
    rcases hLooked id rfl with hCancels | ⟨removed, hOld⟩
    · have hCases := OrderManager.Move.withdraws tid env hMove hCancels
      rcases hCases with hStill | ⟨removed, hEvent, _⟩
      · exact .inl hStill
      · right
        refine ⟨removed, env, ?_⟩
        rw [hEvent]
        exact List.mem_append_right _ List.mem_cons_self
    · exact .inr ⟨removed, hOld.append _⟩
  · rintro tr _ _ tid root g e _ _ hLooked _ id hRoot
    rcases hLooked id hRoot with hCancels | ⟨removed, hOld⟩
    · exact .inl hCancels
    · exact .inr ⟨removed, hOld.append _⟩

/- A move that ends in a withdrawal began in it, or is the look. -/
theorem OrderManager.Move.withdrawing
    {removed : Option Order}
    (tid : Nat)
    (env : Outcome)
    (hMove : om.Move g op r g')
    (hNext : g' = .withdrawing id removed) :
    g = .withdrawing id removed ∨
      (.op tid op env r : OmEvent) =
        .op tid (.map (.activeRemove id)) env removed := by
  cases hMove with
  | idle hNeutral hOpen => exact .inl hNext
  | announce hOp hMay => exact .inl hNext
  | withdraw =>
      cases hNext
      exact .inr rfl
  | withdrawClose hId hStatus => exact .inl hNext
  | @load gate o active b => cases b <;> cases hNext
  | @latch gate o active b => cases b <;> cases hNext
  | @emit gate o active stage rec hId hMay => cases gate <;> cases hNext
  | @check o active d b => cases b <;> cases hNext
  | status => split at hNext <;> cases hNext
  | @take gate o active d b =>
      cases b with
      | true => cases hNext
      | false =>
          cases gate <;> cases hAllow : d.isAllow <;>
            simp [Phase.settled, hAllow] at hNext
  | @issue gate o active d reason n =>
      cases gate <;> cases hAllow : d.isAllow <;>
        simp [Phase.settled, hAllow] at hNext
  | store hId hStatus => split at hNext <;> cases hNext
  | push hId => split at hNext <;> cases hNext
  | close hId hMay => split at hNext <;> cases hNext
  | _ => cases hNext

/- What a cancel is withdrawing, it has found in the map. -/
theorem withdrew_of_withdrawing
    {root : Root} {removed : Option Order}
    (hRun :
      OmShadowRun om C (State.boot db chain seenIds) tr s shs)
    (hAt : shs[tid]? = some ⟨root, some (.withdrawing id removed)⟩) :
    Withdrew tr tid id removed := by
  refine hRun.local_invariant
    (fun tr tid _ g => ∀ id removed, g = .withdrawing id removed →
      Withdrew tr tid id removed)
    ?_ ?_ ?_ hAt id removed rfl
  · intro tr tid root _ id removed hStart
    cases root <;> cases hStart
  · rintro tr _ _ _ tid root g op env r g' _ _ _ _ hWithdrew hMove id
      removed rfl
    have hCases := OrderManager.Move.withdrawing tid env hMove rfl
    rcases hCases with hBefore | hEvent
    · exact (hWithdrew id removed hBefore).append _
    · refine ⟨env, ?_⟩
      rw [hEvent]
      exact List.mem_append_right _ List.mem_cons_self
  · intro tr _ _ tid root g e _ _ hWithdrew _ id removed hPhase
    exact (hWithdrew id removed hPhase).append _

end Looks

------------------------------------------------------------
-- Passes That Are Over
------------------------------------------------------------

section Over

variable {om : OrderManager} {C : OmCond} {s₀ : State}
variable {tr : List OmEvent} {s s' : State} {c : OmConfig}
variable {shs shs' : List (Shadow Root Phase)}
variable {tid : Nat} {g g' : Phase} {op : Op} {r : op.Resp}
variable {id : OrderId}

/- The passes of the order are over. -/
def PassesOver
    (id : OrderId)
    (shs : List (Shadow Root Phase)) : Prop :=
  ∀ (tid : Nat) (o : Order) (g : Phase),
    shs[tid]? = some ⟨.processOrder o, some g⟩ → o.id = id → g.mayReturn

/- Nobody has the order, and nobody will. -/
structure Retired
    (id : OrderId)
    (s : State)
    (shs : List (Shadow Root Phase)) : Prop where
  seen : id ∈ s.seenIds
  unheld : id ∉ holders s shs
  passesOver : PassesOver id shs

theorem Retired.step
    {e : OmEvent}
    (hRetired : Retired id s shs)
    (hStep : om.lifecycle.ShadowStep om.machine s shs e s' shs') :
    Retired id s' shs' := by
  rcases not_holder_step hStep hRetired.seen hRetired.unheld with
    ⟨hSeen, hUnheld⟩
  refine ⟨hSeen, hUnheld, ?_⟩
  intro tid o g hAt hId
  cases hStep with
  | @op _ _ tid' root g₁ g₂ op env r hPhase hMove hExec =>
      rcases Machine.getElem?_set_append hAt with
        ⟨rfl, hEq⟩ | ⟨_, hOld⟩ | ⟨_, hNew⟩
      · cases hEq
        have hOver := hRetired.passesOver tid o g₁ hPhase hId
        exact OrderManager.Move.mayReturn hOver hMove
      · exact hRetired.passesOver tid o g hOld hId
      · rcases List.mem_map.mp hNew with ⟨root', hRoot, hEq⟩
        cases hEq
        exact absurd hRoot processOrder_not_mem_opRoots
  | @ext _ _ e hExt =>
      rcases Protocol.getElem?_survive_append hAt with
        hOld | ⟨_, hNew⟩
      · exact hRetired.passesOver tid o g hOld hId
      · rcases List.mem_map.mp hNew with ⟨root', hRoot, hEq⟩
        cases hEq
        cases e with
        | recv o' =>
            cases List.mem_singleton.mp hRoot
            refine absurd ?_ hRetired.unheld
            apply List.mem_append_left
            rw [(exec_recv hExt).1, ← hId]
            exact List.mem_cons_self
        | submitOrder o' | cancelOrder id' =>
            cases List.mem_singleton.mp hRoot
        | setStatus st | land tx | closeChannel | restart =>
            cases hRoot

/- A status is recorded of an order somebody has, or of a cancelled one. -/
theorem OrderManager.Move.records
    {st : OrderStatus}
    (hMove : om.Move g op r g')
    (hRecords : op.records = some (id, st)) :
    g.carries = some id ∨
      (∃ o, o.id = id ∧
        (g = .refused o ∨ ∃ stage, g = .exiting o stage)) ∨
      st = .cancelled := by
  cases hMove with
  | idle hNeutral hOpen =>
      rw [Op.records_of_neutral hNeutral] at hRecords
      cases hRecords
  | announce hOp hMay =>
      rw [Op.records_of_announces hOp] at hRecords
      cases hRecords
      cases g with
      | executing o active live => exact .inl (congrArg some hMay.1.symm)
      | exiting o stage =>
          exact .inr (.inl ⟨o, hMay.1.symm, .inr ⟨stage, rfl⟩⟩)
      | withdrawing id' removed =>
          cases removed with
          | none => exact hMay.elim
          | some o => exact .inr (.inr hMay.2)
      | _ => exact hMay.elim
  | store hId hStatus =>
      cases hRecords
      exact .inl (congrArg some hId.symm)
  | @close g o o' r hId hMay =>
      cases hRecords
      cases g with
      | reading gate v =>
          cases gate with
          | submission => exact hMay.elim
          | execution =>
              rcases hMay with ⟨rfl, _⟩
              exact .inl (congrArg some hId.symm)
      | refused v =>
          rcases hMay with ⟨rfl, _⟩
          exact .inr (.inl ⟨_, hId.symm, .inl rfl⟩)
      | executing v active live =>
          rcases hMay with ⟨rfl, _⟩
          exact .inl (congrArg some hId.symm)
      | _ => exact hMay.elim
  | withdrawClose hId hStatus =>
      cases hRecords
      exact .inr (.inr hStatus)
  | _ => cases hRecords

end Over

------------------------------------------------------------
-- Cancellation Holds
------------------------------------------------------------

section First

variable {om : OrderManager} {C : OmCond} {s₀ s : State}
variable {tr : List OmEvent} {shs : List (Shadow Root Phase)}
variable {id : OrderId} {tx : Transaction}

/- A task that has acted is among those started. -/
theorem started_of_op
    {tid : Nat} {op : Op} {env : Outcome} {r : op.Resp}
    (hRun : OmShadowRun om C s₀ tr s shs)
    (hMem : .op tid op env r ∈ tr) :
    tid < (om.machine.rootsIn tr).length := by
  rw [← hRun.roots_eq, List.length_map]
  exact hRun.tid_lt hMem

theorem passId_append
    {tid : Nat}
    (tr' : List OmEvent)
    (hLt : tid < (om.machine.rootsIn tr).length) :
    passId (om.machine.rootsIn (tr ++ tr')) tid =
      passId (om.machine.rootsIn tr) tid := by
  unfold passId
  rw [Machine.rootsIn_append_left _ tr' hLt]

/- What was submitted for an order stays submitted for it. -/
theorem SubmittedFor.append
    (hRun : OmShadowRun om C s₀ tr s shs)
    (tr' : List OmEvent)
    (h : SubmittedFor om tr id tx) :
    SubmittedFor om (tr ++ tr') id tx := by
  rcases h with ⟨tid, op, env, r, hMem, hSubmits, hPass⟩
  refine ⟨tid, op, env, r, List.mem_append_left _ hMem, hSubmits, ?_⟩
  rw [passId_append tr' (started_of_op hRun hMem)]
  exact hPass

/- The first submission for an order. -/
theorem exists_first_submission
    (hRun : OmShadowRun om C s₀ tr s shs)
    (hSome : ∃ tx, SubmittedFor om tr id tx) :
    ∃ pre post tid op env r tx,
      tr = pre ++ .op tid op env r :: post ∧
        op.submits = some tx ∧
          passId (om.machine.rootsIn pre) tid = some id ∧
            ∀ tx, ¬SubmittedFor om pre id tx := by
  induction hRun with
  | nil =>
      rcases hSome with ⟨tx, tid, op, env, r, hMem, _⟩
      cases hMem
  | @snoc tr s s' shs shs' e hRun hCond hStep ih =>
      by_cases hEarlier : ∃ tx, SubmittedFor om tr id tx
      · rcases ih hEarlier with
          ⟨pre, post, tid, op, env, r, tx, hSplit, hFirst⟩
        refine ⟨pre, post ++ [e], tid, op, env, r, tx, ?_, hFirst⟩
        rw [hSplit, List.append_assoc, List.cons_append]
      · have hNone : ∀ tx, ¬SubmittedFor om tr id tx :=
          not_exists.mp hEarlier
        rcases hSome with ⟨tx, tid, op, env, r, hMem, hSubmits, hPass⟩
        rcases List.mem_append.mp hMem with hOld | hNew
        · rw [passId_append [e] (started_of_op hRun hOld)] at hPass
          exact absurd ⟨tid, op, env, r, hOld, hSubmits, hPass⟩
            (hNone tx)
        · cases List.mem_singleton.mp hNew
          cases hStep with
          | op hPhase hMove hExec =>
              have hStarted : tid < (om.machine.rootsIn tr).length := by
                rw [← hRun.roots_eq, List.length_map]
                exact (List.getElem?_eq_some_iff.mp hPhase).1
              rw [passId_append _ hStarted] at hPass
              exact ⟨tr, [], tid, op, env, r, tx, rfl, hSubmits,
                hPass, hNone⟩

/- The first submission is later than a trace without one. -/
theorem later_of_first
    {pre post pre' post' : List OmEvent}
    {tid : Nat} {op : Op} {env : Outcome} {r : op.Resp}
    (hSplit : pre ++ post = pre' ++ .op tid op env r :: post')
    (hSubmits : op.submits = some tx)
    (hPass : passId (om.machine.rootsIn pre') tid = some id)
    (hNone : ∀ tx, ¬SubmittedFor om pre id tx) :
    ∃ mid, pre' = pre ++ mid := by
  rcases List.append_eq_append_iff.mp hSplit with
    ⟨mid, hLater, _⟩ | ⟨mid, hEarlier, hRest⟩
  · exact ⟨mid, hLater⟩
  · cases mid with
    | nil => exact ⟨[], by simpa using hEarlier.symm⟩
    | cons e mid =>
        rcases List.cons.inj hRest with ⟨hHead, _⟩
        subst hHead
        have hMem : .op tid op env r ∈ pre := by
          rw [hEarlier]
          exact List.mem_append_right _ List.mem_cons_self
        refine absurd ⟨tid, op, env, r, hMem, hSubmits, ?_⟩ (hNone tx)
        have hLt : tid < (om.machine.rootsIn pre').length := by
          unfold passId at hPass
          split at hPass
          · rename_i hRoot
            exact (List.getElem?_eq_some_iff.mp hRoot).1
          · cases hPass
        rw [hEarlier, passId_append _ hLt]
        exact hPass

end First

section Holds

variable {om : OrderManager}
variable {db : Database} {chain : Chain} {seenIds : List OrderId}
variable {tr : List OmEvent} {c : OmConfig}
variable {shs : List (Shadow Root Phase)}
variable {id : OrderId}

/- A cancel that has returned has taken its look. -/
theorem withdrew_of_returned
    {C : OmCond} {s₀ : State} {tid : Nat} {r : Ret}
    (hInit : s₀ = State.boot db chain seenIds)
    (hRun : Machine.Run om.machine C s₀ tr c)
    (hTask :
      c.tasks[tid]? = some ⟨.cancelOrder id, some (.done r)⟩) :
    (om.machine.rootsIn tr)[tid]? = some (.cancelOrder id) ∧
      ∃ removed, Withdrew tr tid id removed := by
  subst hInit
  rcases Protocol.trackedRun_of_run om.follows hRun with
    ⟨shs, hTracked⟩
  rcases hTracked.shadow_of_task hTask with
    ⟨⟨root, phase⟩, hAt, hRoot, hTracks⟩
  have hCancel : root = .cancelOrder id := hRoot.symm
  subst hCancel
  cases phase with
  | none => exact hTracks.elim
  | some g =>
      have hOver : g.mayReturn := hTracks
      refine ⟨root_of_shadow hTracked.shadowRun
        (List.append_nil tr).symm hAt, ?_⟩
      rcases cancelling_or_withdrew hTracked.shadowRun hAt with
        ⟨holding, rfl⟩ | hLooked
      · exact hOver.elim
      · exact hLooked

/- A pass that a quiet cancel has found is over from then on. -/
theorem over_of_look
    {pre post : List OmEvent} {tid tid' : Nat} {env : Outcome}
    {removed : Option Order} {o : Order}
    (hRun :
      OmTrackedRun om (QuietCancels om (State.boot db chain seenIds))
        (State.boot db chain seenIds) tr c shs)
    (hSplit :
      tr = pre ++ .op tid (.map (.activeRemove id)) env removed :: post)
    (hCancel : (om.machine.rootsIn pre)[tid]? = some (.cancelOrder id))
    (hPass : (om.machine.rootsIn pre)[tid']? = some (.processOrder o))
    (hId : o.id = id) :
    ∀ root g, shs[tid']? = some ⟨root, some g⟩ → g.mayReturn := by
  have hSince :
      tid' < shs.length ∧
        ∀ root g, shs[tid']? = some ⟨root, some g⟩ → g.mayReturn := by
    refine hRun.since
      (Q := fun _ shs => tid' < shs.length ∧
        ∀ root g, shs[tid']? = some ⟨root, some g⟩ → g.mayReturn)
      ?_ ?_ hSplit
    · intro c₁ shs₁ s₂ shs₂ hPre hCond hStep
      have hAlone := hCond.alone tid id env removed rfl hCancel
      have hLt : tid' < shs₁.length := by
        have hStarted := (List.getElem?_eq_some_iff.mp hPass).1
        rwa [← hPre.shadowRun.roots_eq, List.length_map] at hStarted
      refine hStep.trapped (fun _ _ _ _ hOver hMove =>
        OrderManager.Move.mayReturn hOver hMove) hLt ?_
      intro root g hAt
      have hRoot :=
        root_of_shadow hPre.shadowRun (List.append_nil pre).symm hAt
      rw [hPass] at hRoot
      cases hRoot
      exact over_of_not_underWay hPre hAlone hAt hId
    · intro _ _ _ _ _ _ _ _ hStep hBefore
      exact hStep.trapped (fun _ _ _ _ hOver hMove =>
        OrderManager.Move.mayReturn hOver hMove) hBefore.1 hBefore.2
  exact hSince.2

/- An order that is out of the map for good is retired. -/
theorem retired_of_look
    {pre post : List OmEvent} {tid : Nat} {env : Outcome} {v : Order}
    (hRun :
      OmTrackedRun om (QuietCancels om (State.boot db chain seenIds))
        (State.boot db chain seenIds) tr c shs)
    (hSplit :
      tr =
        pre ++ .op tid (.map (.activeRemove id)) env (some v) :: post)
    (hCancel :
      (om.machine.rootsIn pre)[tid]? = some (.cancelOrder id)) :
    v.id = id ∧ Retired id c.state shs := by
  have hSince : v.id = id ∧ Retired id c.state shs := by
    refine hRun.since
      (Q := fun s shs => v.id = id ∧ Retired id s shs) ?_ ?_ hSplit
    · intro c₁ shs₁ s₂ shs₂ hPre hCond hStep
      have hAlone := hCond.alone tid id env (some v) rfl hCancel
      have hOver : PassesOver id shs₁ := fun tid' o g hAt hId =>
        over_of_not_underWay hPre hAlone hAt hId
      have hFound : some v = findById id c₁.state.maps.active := by
        cases hStep with
        | op hPhase hMove hExec => exact (exec_activeRemove hExec).1
      have hMem : v ∈ c₁.state.maps.active :=
        List.mem_of_find?_eq_some hFound.symm
      have hId : v.id = id := by
        have hTest := List.find?_some hFound.symm
        exact of_decide_eq_true hTest
      have hTended := tended_of_shadowRun hPre.shadowRun
      have hUnheld : id ∉ holders c₁.state shs₁ := by
        intro hHeld
        rw [← hId] at hHeld
        rcases Protocol.mem_held.mp (hTended.tended v hMem hHeld) with
          ⟨tid', root, g, hAt, hTends⟩
        have hHistory := history_of_shadowRun hPre.shadowRun hAt
        rcases pass_of_tends hHistory hTends with ⟨o, rfl, hSame⟩
        have hPassOver := hOver tid' o g hAt (hSame.trans hId)
        cases g with
        | pausing => cases hTends
        | finished => cases hTends
        | _ => exact hPassOver.elim
      have hSeen : id ∈ c₁.state.seenIds := by
        rw [← hId]
        exact hTended.seen v hMem
      have hRetired : Retired id c₁.state shs₁ :=
        ⟨hSeen, hUnheld, hOver⟩
      exact ⟨hId, hRetired.step hStep⟩
    · intro _ _ _ _ _ _ _ _ hStep hBefore
      exact ⟨hBefore.1, hBefore.2.step hStep⟩
  exact hSince

/- A pass that a quiet cancel has found does not submit any more. -/
theorem submits_of_look
    {before mid post : List OmEvent} {tid tid' : Nat} {env : Outcome}
    {removed : Option Order} {o : Order} {op : Op} {env' : Outcome}
    {r : op.Resp}
    (hRun :
      OmTrackedRun om (QuietCancels om (State.boot db chain seenIds))
        (State.boot db chain seenIds) tr c shs)
    (hSplit :
      tr =
        before ++ .op tid (.map (.activeRemove id)) env removed ::
          (mid ++ .op tid' op env' r :: post))
    (hCancel :
      (om.machine.rootsIn before)[tid]? = some (.cancelOrder id))
    (hPass :
      (om.machine.rootsIn before)[tid']? = some (.processOrder o))
    (hId : o.id = id) :
    op.submits = none := by
  have hLater :
      tr =
        (before ++ .op tid (.map (.activeRemove id)) env removed ::
          mid) ++ .op tid' op env' r :: post := by
    rw [hSplit]
    simp
  rcases hRun.at_event hLater with
    ⟨c₁, shs₁, _, _, hPre, _, _, hStep⟩
  by_contra hSome
  rcases Option.ne_none_iff_exists'.mp hSome with ⟨tx, hSubmits⟩
  cases hStep with
  | op hPhase hMove hExec =>
      rcases OrderManager.Move.submits hMove hSubmits with
        ⟨v, active, rfl, _⟩
      exact over_of_look hPre rfl hCancel hPass hId _ _ hPhase

/- No submission follows a quiet cancel that has returned. -/
theorem effective_of_quietCancels
    {pre post : List OmEvent} {c' : OmConfig} {tid : Nat} {r : Ret}
    {tx : Transaction}
    (hRun :
      OmTrackedRun om (QuietCancels om (State.boot db chain seenIds))
        (State.boot db chain seenIds) tr c shs)
    (hSplit : tr = pre ++ post)
    (hReturned :
      Machine.Run om.machine Machine.anyStep
        (State.boot db chain seenIds) pre c')
    (hTask :
      c'.tasks[tid]? = some ⟨.cancelOrder id, some (.done r)⟩)
    (hNone : ∀ tx, ¬SubmittedFor om pre id tx) :
    ¬SubmittedFor om tr id tx := by
  intro hSome
  rcases withdrew_of_returned rfl hReturned hTask with
    ⟨hCancel, removed, env, hLook⟩
  rcases List.append_of_mem hLook with ⟨before, after, rfl⟩
  -- The first submission comes after the cancel has returned.
  rcases exists_first_submission hRun.shadowRun ⟨tx, hSome⟩ with
    ⟨pre', post', tid', op, env', r', tx', hTrade, hSubmits, hPass,
      hFirst⟩
  rcases later_of_first (hSplit.symm.trans hTrade) hSubmits hPass hNone
    with ⟨mid, rfl⟩
  rcases letThrough_of_submits hRun.shadowRun hTrade hSubmits with
    ⟨o, active, pre₀, env₀, post₀, s₀, shs₀, hLoad, hPre₀, hCond,
      hThrough⟩
  have hRoot :
      (om.machine.rootsIn
        (before ++ .op tid (.map (.activeRemove id)) env removed ::
            after ++ mid))[tid']? = some (.processOrder o) := by
    rw [hLoad]
    exact om.machine.root_append hThrough.pass _
  have hId : o.id = id := by
    simpa only [passId, hRoot, Option.some.injEq] using hPass
  have hLookSplit :
      tr =
        before ++ .op tid (.map (.activeRemove id)) env removed ::
          (after ++ mid ++ .op tid' op env' r' :: post') := by
    rw [hTrade]
    simp
  have hCancelled :
      (om.machine.rootsIn before)[tid]? = some (.cancelOrder id) := by
    refine hRun.shadowRun.root_before hLookSplit ?_
    rw [hSplit]
    exact om.machine.root_append hCancel post
  have hOrdered :
      before ++ .op tid (.map (.activeRemove id)) env removed ::
          (after ++ mid) =
        pre₀ ++ .op tid' (.engine .loadAutoPaused) env₀ false ::
          post₀ := by
    rw [← hLoad]
    simp
  rcases Protocol.split_cases hOrdered with
    ⟨between, hBefore⟩ | ⟨_, hSame⟩ | ⟨between, hAfter⟩
  · -- The gate has asked after the look, and has let it through.
    have hLooked : LookedFor om pre₀ o.id := by
      rw [hId, hBefore]
      exact ⟨tid, env, removed,
        List.mem_append_right _ List.mem_cons_self,
        om.machine.root_append hCancelled _⟩
    have hNothing : ∀ tx, ¬SubmittedFor om pre₀ o.id tx := by
      intro tx hEarly
      refine hFirst tx ?_
      rw [hLoad, ← hId]
      exact hEarly.append hPre₀ _
    rcases hCond.refused tid' env₀ false o rfl hThrough.pass hLooked
      hNothing with hLatched | hBroken
    · rw [hThrough.latch] at hLatched
      cases hLatched
    · exact hBroken active hThrough.read hThrough.cleared
  · cases hSame
  · -- The pass was under way at the look.
    have hUnderWay :
        (om.machine.rootsIn before)[tid']? =
          some (.processOrder o) := by
      rw [hAfter]
      exact om.machine.root_append hThrough.pass _
    have hNot :=
      submits_of_look hRun hLookSplit hCancelled hUnderWay hId
    rw [hNot] at hSubmits
    cases hSubmits

/- What tells of a cancel is a cancel that has taken the order out. -/
theorem withdrew_of_cancelled
    {C : OmCond} {tid : Nat} {ev : OrderEvent}
    {env : Outcome} {s : State} {shs' : List (Shadow Root Phase)}
    (hRun :
      OmTrackedRun om C (State.boot db chain seenIds) tr c shs)
    (hStep :
      om.lifecycle.ShadowStep om.machine c.state shs
        (.op tid (.chan (.eventSend ev)) env ()) s shs')
    (hCancelled : ev.status = .cancelled) :
    ∃ (v : Order) (id : OrderId), v.id = ev.orderId ∧
      Withdrew tr tid id (some v) ∧
        (om.machine.rootsIn tr)[tid]? = some (.cancelOrder id) := by
  cases hStep with
  | @op _ _ _ root g _ _ _ _ hPhase hMove hExec =>
      cases hMove with
      | idle hNeutral hOpen => cases hNeutral
      | announce hOp hMay =>
          cases hOp
          rw [hCancelled] at hMay
          cases g with
          | executing o active live => cases hMay.2
          | exiting o stage => rcases hMay.2 with hSt | hSt <;> cases hSt
          | withdrawing id removed =>
              cases removed with
              | none => exact hMay.elim
              | some v =>
                  refine ⟨v, id, hMay.1.symm,
                    withdrew_of_withdrawing hRun.shadowRun hPhase, ?_⟩
                  have hRoot : root = .cancelOrder id :=
                    history_of_shadowRun hRun.shadowRun hPhase
                  rw [← hRoot]
                  exact root_of_shadow hRun.shadowRun
                    (List.append_nil tr).symm hPhase
          | _ => exact hMay.elim

/- A cancelled order keeps its status. -/
theorem final_of_quietCancels
    {pre post : List OmEvent} {tid : Nat} {ev : OrderEvent}
    {env : Outcome} {tid' : Nat} {op : Op} {env' : Outcome}
    {r : op.Resp} {st : OrderStatus}
    (hRun :
      OmTrackedRun om (QuietCancels om (State.boot db chain seenIds))
        (State.boot db chain seenIds) tr c shs)
    (hSplit : tr = pre ++ .op tid (.chan (.eventSend ev)) env () :: post)
    (hCancelled : ev.status = .cancelled)
    (hMem : .op tid' op env' r ∈ post)
    (hRecords : op.records = some (ev.orderId, st)) :
    st = .cancelled := by
  rcases hRun.at_event hSplit with
    ⟨c₁, shs₁, _, _, hPre, _, _, hStep⟩
  have hLooked := withdrew_of_cancelled hPre hStep hCancelled
  rcases hLooked with ⟨v, id, hId, ⟨env₀, hLook⟩, hCancel⟩
  rcases List.append_of_mem hLook with ⟨before, after, rfl⟩
  rcases List.append_of_mem hMem with ⟨between, rest, rfl⟩
  have hLater :
      tr =
        (before ++ .op tid (.map (.activeRemove id)) env₀ (some v) ::
            (after ++ .op tid (.chan (.eventSend ev)) env () ::
              between)) ++
          .op tid' op env' r :: rest := by
    rw [hSplit]
    simp
  have hCancel₁ :
      (om.machine.rootsIn before)[tid]? = some (.cancelOrder id) :=
    hPre.shadowRun.root_before rfl hCancel
  rcases hRun.at_event hLater with
    ⟨c₂, shs₂, _, _, hPre₂, _, _, hStep₂⟩
  rcases retired_of_look hPre₂ rfl hCancel₁ with ⟨hSame, hRetired⟩
  have hOrder : ev.orderId = id := hId.symm.trans hSame
  rw [hOrder] at hRecords
  cases hStep₂ with
  | op hPhase hMove hExec =>
      rcases OrderManager.Move.records hMove hRecords with
        hCarries | ⟨w, hW, hLast⟩ | hDone
      · refine absurd ?_ hRetired.unheld
        apply List.mem_append_right
        exact Protocol.mem_held.mpr ⟨_, _, _, hPhase, hCarries⟩
      · have hHistory := history_of_shadowRun hPre₂.shadowRun hPhase
        rcases hLast with rfl | ⟨stage, rfl⟩
        · rcases hHistory with ⟨o, rfl, rfl⟩
          exact (hRetired.passesOver _ _ _ hPhase hW).elim
        · rcases hHistory with ⟨o, rfl, rfl⟩
          exact (hRetired.passesOver _ _ _ hPhase hW).elim
      · exact hDone

end Holds

/-
  In every run whose cancels are quiet, whatever the
  interleaving, cancellation is effective and final.
-/
theorem cancellationHolds_of_quietCancels
    (om : OrderManager)
    (db : Database)
    (chain : Chain)
    (seenIds : List OrderId)
    {tr : List OmEvent}
    {c : OmConfig}
    (hRun :
      Machine.Run om.machine
        (QuietCancels om (State.boot db chain seenIds))
        (State.boot db chain seenIds) tr c) :
    CancellationHolds om (State.boot db chain seenIds) tr := by
  rcases Protocol.trackedRun_of_run om.follows hRun with
    ⟨shs, hTracked⟩
  constructor
  · intro pre post c' tid id hSplit hReturned hTask hNone tx
    exact effective_of_quietCancels hTracked hSplit hReturned hTask
      hNone
  · intro pre post tid ev env hSplit hCancelled tid' op env' r st hMem
      hRecords
    exact final_of_quietCancels hTracked hSplit hCancelled hMem hRecords

/- No pass is started. -/
def passless (om : OrderManager) (tr : List OmEvent) : Bool :=
  (om.machine.rootsIn tr).all fun root =>
    match root with
    | .processOrder _ => false
    | _ => true

theorem not_pass_of_passless
    {pre post : List OmEvent} {o : Order}
    (hPassless : passless om (pre ++ post) = true) :
    .processOrder o ∉ om.machine.rootsIn pre := by
  intro hMem
  have hLater : .processOrder o ∈ om.machine.rootsIn (pre ++ post) := by
    rw [Machine.rootsIn_append]
    exact List.mem_append_left _ hMem
  have hNoPass := List.all_eq_true.mp hPassless _ hLater
  cases hNoPass

/- A cancel finds its order in the channel, where it stays. -/
theorem exists_cancellationHolds :
    ∃ (tr : List OmEvent) (c : OmConfig),
      hasCancelled c 1 "a" = true ∧
        c.state.chan.queue = [sampleOrder "a" 1000] ∧
          CancellationHolds sampleManager (sampleState .enabled) tr := by
  have hPlay :=
    Machine.exists_run_of_play sampleManager.machine
      (sampleState .enabled) queuedCancelSchedule
      (fun tr c =>
        passless sampleManager tr && hasCancelled c 1 "a" &&
          decide (c.state.chan.queue = [sampleOrder "a" 1000]))
      (by decide +kernel)
  rcases hPlay with ⟨tr, c, hRun, hShown⟩
  simp only [Bool.and_eq_true, decide_eq_true_eq] at hShown
  rcases hShown with ⟨⟨hPassless, hDone⟩, hQueue⟩
  refine ⟨tr, c, hDone, hQueue,
    cancellationHolds_of_quietCancels sampleManager _ _ _
      (hRun.meets ?_)⟩
  intro pre post e c' hSplit _
  rw [hSplit] at hPassless
  constructor
  · rintro tid id env removed _ _ ⟨tid', o, ⟨c₁, p, hPre, hTask, _⟩, _⟩
    have hMem : .processOrder o ∈ sampleManager.machine.rootsIn pre := by
      rw [← hPre.roots_eq]
      exact List.mem_map_of_mem (f := Task.root)
        (List.mem_of_getElem? hTask)
    exact not_pass_of_passless hPassless hMem
  · intro tid env b o _ hTask _ _
    exact absurd (List.mem_of_getElem? hTask)
      (not_pass_of_passless hPassless)

end Pumpy
