import Pumpy.Engine.Effects
import Pumpy.Engine.Execution
import Pumpy.Interleaving.Calls

/-
  What a submission leaves behind that returns an error, with
  any other tasks running at the same time.

  `submit_order` takes nothing back: the row that it has stored
  and the entry that it has pushed stay when a later step fails.

  Key definitions include:
    * `SameBooks`
    * `NoTrace`
    * `NothingAdded`

  The main results are `calls_of_failed_submitOrder` and
  `noTrace_iff`.
-/

------------------------------------------------------------
-- The Books
------------------------------------------------------------

namespace Pumpy

open Interleaving

/-
  The orders table, the pending orders, the order channel and
  the gauges are the same in both states.
-/
structure SameBooks (s s' : State) : Prop where
  orders : s'.db.orders = s.db.orders
  pending : s'.maps.pending = s.maps.pending
  receiver : s'.chan.receiverAlive = s.chan.receiverAlive
  queue : s'.chan.queue = s.chan.queue
  gauges : s'.metrics.gauges = s.metrics.gauges

theorem SameBooks.refl (s : State) : SameBooks s s :=
  ⟨rfl, rfl, rfl, rfl, rfl⟩

namespace Op

/- The operations of a submission that are not about the books. -/
def apart : Op → Bool
  | engine _ => true
  | sys _ => true
  | map .activeValues => true
  | db .getWalletStatus => true
  | metric (.count _) => true
  | _ => false

theorem apart_of_raises
    {op : Op}
    (hRaises : op.raises = true) :
    op.apart = true := by
  rcases op with op | op | op | op | op | op | op <;> cases op <;>
    first
    | rfl
    | cases hRaises

theorem apart_of_decides
    {op : Op}
    (hDecides : op.decides = true) :
    op.apart = true := by
  cases op with
  | engine op => rfl
  | _ => cases hDecides

end Op

section Steps

variable {env : Outcome} {s s' : State}

theorem sameBooks_of_apart
    {op : Op} {r : op.Resp}
    (hApart : op.apart = true)
    (hExec : State.exec op env s = some (r, s')) :
    SameBooks s s' := by
  cases op with
  | engine op =>
      rw [(exec_engine hExec).2]
      exact ⟨rfl, rfl, rfl, rfl, rfl⟩
  | sys op =>
      rcases exec_part hExec with ⟨_, rfl⟩
      exact ⟨rfl, rfl, rfl, rfl, rfl⟩
  | map op =>
      cases op with
      | activeValues =>
          rw [(exec_activeValues hExec).2.2]
          exact .refl s
      | _ => cases hApart
  | db op =>
      cases op with
      | getWalletStatus =>
          cases env <;> simp [State.exec, DbOp.exec] at hExec
          rcases hExec with ⟨_, rfl⟩
          exact .refl s
      | _ => cases hApart
  | metric op =>
      cases op with
      | count counter =>
          cases env <;> simp [State.exec] at hExec
          subst hExec
          exact ⟨rfl, rfl, rfl, rfl, rfl⟩
      | _ => cases hApart
  | chan op => cases hApart
  | chain op => cases hApart

end Steps

------------------------------------------------------------
-- A Submission that Fails
------------------------------------------------------------

/- One of the calls was a push that found room. -/
def HasPushed (h : List OmCall) : Prop :=
  ∃ max o, ⟨.map (.pendingPush max o), true⟩ ∈ h

/-
  The calls of a submission that fails: besides what is not
  about the books it stores, it pushes, it counts once it has
  pushed, and it sends in vain.
-/
inductive FailedCall (h : List OmCall) : OmCall → Prop
  | apart {call : OmCall} (hApart : call.1.apart = true) :
      FailedCall h call
  | store (o : Order) (r : Except DbError Unit) :
      FailedCall h ⟨.db (.insertOrder o), r⟩
  | push (max : Nat) (o : Order) (b : Bool) :
      FailedCall h ⟨.map (.pendingPush max o), b⟩
  | inc (g : Gauge) (hPushed : HasPushed h) :
      FailedCall h ⟨.metric (.inc g), ()⟩
  | send (o : Order) :
      FailedCall h ⟨.chan (.orderSend o), false⟩

/- More calls change nothing about a call that is one of these. -/
theorem FailedCall.mono
    {h h' : List OmCall} {call : OmCall}
    (hSubset : h ⊆ h')
    (hFailed : FailedCall h call) :
    FailedCall h' call := by
  cases hFailed with
  | apart hApart => exact .apart hApart
  | store o r => exact .store o r
  | push max o b => exact .push max o b
  | inc g hPushed =>
      rcases hPushed with ⟨max, o, hMem⟩
      exact .inc g ⟨max, o, hSubset hMem⟩
  | send o => exact .send o

/-
  The calls of an enqueue that has returned, once it has read
  the clock, and what it returns.
-/
inductive EnqueueEnds (max : Nat) (o : Order) :
    List OmCall → Except OrderError OrderId → Prop
  | unstored (e : DbError) :
      EnqueueEnds max o [⟨.db (.insertOrder o), .error e⟩]
        (.error (.databaseError e))
  | full :
      EnqueueEnds max o
        [⟨.db (.insertOrder o), .ok ()⟩,
          ⟨.map (.pendingPush max o), false⟩]
        (.error .queueFull)
  | unsent :
      EnqueueEnds max o
        [⟨.db (.insertOrder o), .ok ()⟩,
          ⟨.map (.pendingPush max o), true⟩,
          ⟨.metric (.count .ordersSubmitted), ()⟩,
          ⟨.metric (.inc .pendingOrders), ()⟩,
          ⟨.chan (.orderSend o), false⟩]
        (.error .channelError)
  | sent :
      EnqueueEnds max o
        [⟨.db (.insertOrder o), .ok ()⟩,
          ⟨.map (.pendingPush max o), true⟩,
          ⟨.metric (.count .ordersSubmitted), ()⟩,
          ⟨.metric (.inc .pendingOrders), ()⟩,
          ⟨.chan (.orderSend o), true⟩]
        (.ok o.id)

theorem after_enqueue
    {om : OrderManager} {o : Order} {h : List OmCall}
    {r : Except OrderError OrderId}
    (hAfter : (om.enqueue o).After h (.done r)) :
    ∃ createdAt updatedAt o' h',
      h = ⟨.sys .utcNow, createdAt⟩ :: ⟨.sys .utcNow, updatedAt⟩ :: h' ∧
        EnqueueEnds om.config.maxPendingOrders o' h' r := by
  rcases hAfter.act_done_inv with ⟨createdAt, h₁, rfl, hUpdated⟩
  rcases hUpdated.act_done_inv with ⟨updatedAt, h₂, rfl, hStore⟩
  refine
    ⟨createdAt, updatedAt,
      { o with
        status := .pending
        createdAt := createdAt
        updatedAt := updatedAt },
      h₂, rfl, ?_⟩
  rcases hStore.act_done_inv with ⟨stored, h₃, rfl, hPush⟩
  cases stored with
  | error e =>
      rcases hPush.done_inv with ⟨rfl, hEq⟩
      cases hEq
      exact .unstored e
  | ok u =>
      rcases hPush.act_done_inv with ⟨pushed, h₄, rfl, hPushed⟩
      cases pushed with
      | false =>
          rcases hPushed.done_inv with ⟨rfl, hEq⟩
          cases hEq
          exact .full
      | true =>
          rcases hPushed.act_done_inv with ⟨_, h₅, rfl, hInc⟩
          rcases hInc.act_done_inv with ⟨_, h₆, rfl, hSend⟩
          rcases hSend.act_done_inv with ⟨sent, h₇, rfl, hEnd⟩
          cases sent with
          | true =>
              rcases hEnd.done_inv with ⟨rfl, hEq⟩
              cases hEq
              exact .sent
          | false =>
              rcases hEnd.done_inv with ⟨rfl, hEq⟩
              cases hEq
              exact .unsent

theorem calls_of_failed_enqueue
    {om : OrderManager} {o : Order} {h : List OmCall}
    {e : OrderError}
    (hAfter : (om.enqueue o).After h (.done (.error e))) :
    ∀ call ∈ h, FailedCall h call := by
  rcases after_enqueue hAfter with
    ⟨createdAt, updatedAt, o', h', rfl, hEnds⟩
  cases hEnds with
  | unstored dbError =>
      simp only [List.forall_mem_cons, List.not_mem_nil,
        IsEmpty.forall_iff, implies_true, and_true]
      exact ⟨.apart rfl, .apart rfl, .store _ _⟩
  | full =>
      simp only [List.forall_mem_cons, List.not_mem_nil,
        IsEmpty.forall_iff, implies_true, and_true]
      exact ⟨.apart rfl, .apart rfl, .store _ _, .push _ _ _⟩
  | unsent =>
      simp only [List.forall_mem_cons, List.not_mem_nil,
        IsEmpty.forall_iff, implies_true, and_true]
      refine ⟨.apart rfl, .apart rfl, .store _ _,
        .push _ _ _, .apart rfl, .inc _ ?_, .send _⟩
      exact ⟨om.config.maxPendingOrders, _,
        .tail _ (.tail _ (.tail _ (.head _)))⟩

theorem apart_selfHealingResume :
    (OrderManager.selfHealingResume).Always (·.apart = true) := by
  refine Prog.always_act rfl fun autoPaused => ?_
  cases autoPaused with
  | false => exact Prog.always_done _
  | true =>
      refine Prog.always_act rfl fun dbStatus => ?_
      dsimp only [Prog.bind]
      split
      · iterate 3
          refine Prog.always_act rfl fun _ => ?_
        exact Prog.always_done _
      · exact Prog.always_done _

/-
  A submission that has returned was refused by its gate, or has
  gone on to the queue with what it returns.
-/
theorem after_submitOrder
    {om : OrderManager} {o : Order} {h : List OmCall}
    {r : Except OrderError OrderId}
    (hAfter : (om.submitOrder o).After h (.done r)) :
    ∃ h₁ h₂,
      h = h₁ ++ h₂ ∧
        (∀ call ∈ h₁, call.1.apart = true) ∧
          ((h₂ = [] ∧ ∃ reason, r = .error (.executionError reason)) ∨
            ∃ o', (om.enqueue o').After h₂ (.done r)) := by
  rcases hAfter.act_done_inv with ⟨id, h₁, rfl, hRead⟩
  rcases hRead.act_done_inv with ⟨active, h₂, rfl, hDecide⟩
  dsimp only [Prog.bind] at hDecide
  rcases Prog.after_bind_done hDecide with
    ⟨h₃, h₄, decision, rfl, hEvaluated, hHeal⟩
  rcases Prog.after_bind_done hHeal with
    ⟨h₅, h₆, u, rfl, hHealed, hRaise⟩
  rcases Prog.after_bind_done hRaise with
    ⟨h₇, h₈, v, rfl, hRaised, hRest⟩
  refine ⟨⟨_, id⟩ :: ⟨_, active⟩ :: (h₃ ++ h₅ ++ h₇), h₈,
    by simp, ?_, ?_⟩
  · intro call hCall
    simp only [List.mem_cons, List.mem_append] at hCall
    rcases hCall with rfl | rfl | (hGate | hResume) | hPause
    · rfl
    · rfl
    · exact Op.apart_of_decides
        ((decides_evaluate.after hEvaluated).1 call hGate)
    · exact (apart_selfHealingResume.after hHealed).1 call hResume
    · exact Op.apart_of_raises
        (((raises_raiseDbPause _ _).after hRaised).1 call hPause)
  · cases decision with
    | allow => exact .inr ⟨_, hRest⟩
    | reject reason =>
        rcases hRest.done_inv with ⟨rfl, hEq⟩
        cases hEq
        exact .inl ⟨rfl, reason, rfl⟩
    | halt reason =>
        rcases hRest.done_inv with ⟨rfl, hEq⟩
        cases hEq
        exact .inl ⟨rfl, reason, rfl⟩

/- What a submission that returns an error has done. -/
theorem calls_of_failed_submitOrder
    {om : OrderManager} {o : Order} {h : List OmCall}
    {e : OrderError}
    (hAfter : (om.submitOrder o).After h (.done (.error e))) :
    ∀ call ∈ h, FailedCall h call := by
  rcases after_submitOrder hAfter with
    ⟨h₁, h₂, rfl, hApart, hQueue⟩
  intro call hCall
  rcases List.mem_append.mp hCall with hGate | hLast
  · exact .apart (hApart call hGate)
  · rcases hQueue with ⟨rfl, _⟩ | ⟨o', hEnqueue⟩
    · cases hLast
    · exact (calls_of_failed_enqueue hEnqueue call hLast).mono
        (List.subset_append_right h₁ h₂)

/- The calls of a task whose submission has returned. -/
theorem after_of_submitted
    {om : OrderManager} {C : OmCond} {s₀ : State}
    {tr : List OmEvent} {c : OmConfig} {tid : Nat} {o : Order}
    {r : Except OrderError OrderId}
    (hRun : Machine.Run om.machine C s₀ tr c)
    (hTask :
      c.tasks[tid]? =
        some ⟨.submitOrder o, some (.done (.submitted r))⟩) :
    (om.submitOrder o).After (Machine.calls tr tid) (.done r) := by
  rcases Prog.after_map_done (hRun.after_calls hTask) with
    ⟨r', hEq, hSubmitted⟩
  cases hEq
  exact hSubmitted

------------------------------------------------------------
-- The Trace of a Task
------------------------------------------------------------

section Trace

variable (om : OrderManager) (s₀ : State)
variable (tr : List OmEvent) (tid : Nat)

/-
  Whenever the task has taken a step, the books were afterwards
  what they were before it.
-/
def NoTrace : Prop :=
  ∀ pre op env r post c c',
    tr = pre ++ .op tid op env r :: post →
    Machine.Run om.machine Machine.anyStep s₀ pre c →
    Machine.Step om.machine c (.op tid op env r) c' →
      SameBooks c.state c'.state

/-
  The operation adds nothing: a statement that stores an order
  does not take effect, or finds a row with its identifier; a
  push finds the queue full.
-/
def Op.addsNothing : Op → Outcome → State → Prop
  | .db (.insertOrder o), .stmt out, s =>
      out.applies = true → s.db.orders.any (·.id = o.id) = true
  | .map (.pendingPush max _), _, s => max ≤ s.maps.pending.length
  | _, _, _ => True

/- No step of the task adds anything. -/
def NothingAdded : Prop :=
  ∀ pre op env r post c,
    tr = pre ++ .op tid op env r :: post →
    Machine.Run om.machine Machine.anyStep s₀ pre c →
      op.addsNothing env c.state

end Trace

section Failed

variable {om : OrderManager} {s₀ : State} {tr : List OmEvent}
variable {c : OmConfig} {tid : Nat}

/- A step that leaves the books as they are has added nothing. -/
theorem addsNothing_of_sameBooks
    {op : Op} {env : Outcome} {r : op.Resp} {s s' : State}
    (hExec : State.exec op env s = some (r, s'))
    (hSame : SameBooks s s') :
    op.addsNothing env s := by
  cases op with
  | db op =>
      cases op with
      | insertOrder o =>
          rcases exec_insertOrder hExec with ⟨out, rfl, _, rfl⟩
          intro hApplies
          by_contra hNew
          have hOrders := hSame.orders
          simp only [hApplies, if_true, Database.insertOrder,
            if_neg hNew] at hOrders
          exact absurd hOrders (List.cons_ne_self _ _)
      | _ => trivial
  | map op =>
      cases op with
      | pendingPush max o =>
          rcases exec_pendingPush hExec with
            ⟨hFull, _⟩ | ⟨_, _, rfl⟩
          · exact hFull
          · have hPending := hSame.pending
            simp at hPending
      | _ => trivial
  | _ => trivial

/- A call of a failed submission that adds nothing leaves the books. -/
theorem sameBooks_of_failedCall
    {op : Op} {env : Outcome} {r : op.Resp} {s s' : State}
    {h : List OmCall}
    (hCall : FailedCall h ⟨op, r⟩)
    (hNone : ¬HasPushed h)
    (hAdds : op.addsNothing env s)
    (hExec : State.exec op env s = some (r, s')) :
    SameBooks s s' := by
  cases hCall with
  | apart hApart => exact sameBooks_of_apart hApart hExec
  | store o r =>
      rcases exec_insertOrder hExec with ⟨out, rfl, _, rfl⟩
      cases hApplies : out.applies with
      | false => exact ⟨by simp, rfl, rfl, rfl, rfl⟩
      | true =>
          have hThere := hAdds hApplies
          have hOrders : s.db.insertOrder o = s.db := by
            unfold Database.insertOrder
            rw [if_pos hThere]
          exact ⟨by simp [hOrders], rfl, rfl, rfl, rfl⟩
  | push max o b =>
      rcases exec_pendingPush hExec with ⟨_, _, rfl⟩ | ⟨hRoom, _⟩
      · exact .refl s'
      · exact absurd hAdds (Nat.not_le.mpr hRoom)
  | inc g hPushed => exact absurd hPushed hNone
  | send o =>
      rcases exec_orderSend hExec with ⟨_, _, rfl⟩ | ⟨_, hSent, _⟩
      · exact .refl s'
      · cases hSent

/- A task that adds nothing has pushed nothing. -/
theorem not_hasPushed
    (hRun : Machine.Run om.machine Machine.anyStep s₀ tr c)
    (hAdded : NothingAdded om s₀ tr tid) :
    ¬HasPushed (Machine.calls tr tid) := by
  rintro ⟨max, o, hMem⟩
  rcases Machine.mem_calls.mp hMem with ⟨env, hEvent⟩
  rcases List.mem_iff_append.mp hEvent with ⟨pre, post, hSplit⟩
  rcases hRun.step_at hSplit with ⟨c₀, c₁, hPre, _, hStep⟩
  have hFull := hAdded pre _ env _ post c₀ hSplit hPre
  cases hStep with
  | op hTask hExec =>
      rcases exec_pendingPush hExec with ⟨_, hFalse, _⟩ | ⟨hRoom, _⟩
      · cases hFalse
      · exact absurd hFull (Nat.not_le.mpr hRoom)

/- Without a trace, every step has added nothing. -/
theorem nothingAdded_of_noTrace
    (hRun : Machine.Run om.machine Machine.anyStep s₀ tr c)
    (hTrace : NoTrace om s₀ tr tid) :
    NothingAdded om s₀ tr tid := by
  intro pre op env r post c₀ hSplit hPre
  rcases hRun.step_at hSplit with ⟨c₁, c₂, hPre', _, hStep⟩
  have hSame := hTrace pre op env r post c₁ c₂ hSplit hPre' hStep
  rw [hPre.unique hPre']
  cases hStep with
  | op hTask hExec => exact addsNothing_of_sameBooks hExec hSame

/-
  A submission that fails leaves no trace exactly if it has
  added neither a row nor an entry: nothing that it has added is
  taken back.
-/
theorem noTrace_iff
    {o : Order} {e : OrderError}
    (hRun : Machine.Run om.machine Machine.anyStep s₀ tr c)
    (hFailed :
      c.tasks[tid]? =
        some ⟨.submitOrder o, some (.done (.submitted (.error e)))⟩) :
    NoTrace om s₀ tr tid ↔ NothingAdded om s₀ tr tid := by
  refine ⟨nothingAdded_of_noTrace hRun, ?_⟩
  intro hAdded pre op env r post c₀ c₁ hSplit hPre hStep
  have hSubmitted := after_of_submitted hRun hFailed
  have hMem : (⟨op, r⟩ : OmCall) ∈ Machine.calls tr tid := by
    refine Machine.mem_calls.mpr ⟨env, ?_⟩
    rw [hSplit]
    exact List.mem_append_right _ List.mem_cons_self
  have hCall := calls_of_failed_submitOrder hSubmitted _ hMem
  have hAdds := hAdded pre op env r post c₀ hSplit hPre
  cases hStep with
  | op hTask hExec =>
      exact sameBooks_of_failedCall hCall
        (not_hasPushed hRun hAdded) hAdds hExec

end Failed

------------------------------------------------------------
-- A Full Queue
------------------------------------------------------------

/- A manager with room for one order. -/
def narrowManager : OrderManager :=
  { sampleManager with
    config := { sampleManager.config with maxPendingOrders := 1 } }

/- The submission of `tid` has returned an error. -/
def hasFailed (c : OmConfig) (tid : Nat) : Bool :=
  match c.tasks[tid]? with
  | some ⟨.submitOrder _, some (.done (.submitted (.error _)))⟩ => true
  | _ => false

theorem exists_of_hasFailed
    {c : OmConfig} {tid : Nat}
    (hFailed : hasFailed c tid = true) :
    ∃ o e,
      c.tasks[tid]? =
        some ⟨.submitOrder o,
          some (.done (.submitted (.error e)))⟩ := by
  unfold hasFailed at hFailed
  split at hFailed
  · rename_i o e hTask
    exact ⟨o, e, hTask⟩
  · cases hFailed

/- The event is a step of `tid` that adds a row. -/
def addsRow (tid : Nat) (s : State) : OmEvent → Bool
  | .op tid' (.db (.insertOrder o)) (.stmt out) _ =>
      tid' = tid && out.applies && !s.db.orders.any (·.id = o.id)
  | _ => false

/- The event adds a row, so the task leaves a trace. -/
theorem not_noTrace_of_addsRow
    {om : OrderManager} {s₀ : State} {pre post : List OmEvent}
    {c c' : OmConfig} {tid : Nat} {e : OmEvent}
    (hPre : Machine.Run om.machine Machine.anyStep s₀ pre c)
    (hRun :
      Machine.Run om.machine Machine.anyStep s₀ (pre ++ e :: post) c')
    (hAdds : addsRow tid c.state e = true) :
    ¬NoTrace om s₀ (pre ++ e :: post) tid := by
  intro hTrace
  unfold addsRow at hAdds
  split at hAdds
  · rename_i tid' o out r
    simp only [Bool.and_eq_true, decide_eq_true_eq,
      Bool.not_eq_true'] at hAdds
    rcases hAdds with ⟨⟨rfl, hApplies⟩, hNew⟩
    have hAdded := nothingAdded_of_noTrace hRun hTrace
    have hThere : c.state.db.orders.any (·.id = o.id) = true :=
      hAdded pre _ _ r post c rfl hPre hApplies
    rw [hNew] at hThere
    cases hThere
  · cases hAdds

/-
  A first order waits; a second one is stored, and then there is
  no room for it.
-/
theorem queueFull_leaves_row :
    ∃ (tr : List OmEvent) (c : OmConfig) (o : Order) (e : OrderError),
      Machine.Run narrowManager.machine Machine.anyStep
          (sampleState .enabled) tr c ∧
        c.tasks[1]? =
            some ⟨.submitOrder o,
              some (.done (.submitted (.error e)))⟩ ∧
          ¬NoTrace narrowManager (sampleState .enabled) tr 1 := by
  have hPlay :=
    Machine.exists_runs_of_play narrowManager.machine
      (sampleState .enabled)
      ([.ext (.submitOrder (sampleOrder "" 1000))] ++
        acceptSteps 0 "a" [] ++
        [.ext (.submitOrder (sampleOrder "" 1000))] ++
        (acceptSteps 1 "b" []).take 9)
      (steps 1 [.stmt .done, .plain])
      (fun pre c tr c' =>
        hasFailed c' 1 &&
          ((tr.drop pre.length).head?.any (addsRow 1 c.state)))
      (by decide +kernel)
  rcases hPlay with ⟨pre, c, post, c', hPre, hRun, hShown⟩
  rw [Bool.and_eq_true, List.drop_left] at hShown
  rcases exists_of_hasFailed hShown.1 with ⟨o, e, hFailed⟩
  rcases (Option.any_eq_true _ _).mp hShown.2 with
    ⟨event, hHead, hAdds⟩
  rcases List.head?_eq_some_iff.mp hHead with ⟨rest, rfl⟩
  exact ⟨_, c', o, e, hRun, hFailed,
    not_noTrace_of_addsRow hPre hRun hAdds⟩

/- An order that the gate refuses leaves no trace. -/
theorem exists_noTrace :
    ∃ (tr : List OmEvent) (c : OmConfig),
      hasFailed c 0 = true ∧
        (NoTrace sampleManager (sampleState .enabled) tr 0 ↔
          NothingAdded sampleManager (sampleState .enabled) tr 0) := by
  have hPlay :=
    Machine.exists_run_of_play sampleManager.machine
      (sampleState .enabled)
      ([.ext (.submitOrder (sampleOrder "" 0))] ++
        steps 0
          [.fresh "a", .iteration [], .plain, .plain, .plain, .plain,
            .plain])
      (fun _ c => hasFailed c 0)
      (by decide +kernel)
  rcases hPlay with ⟨tr, c, hRun, hFailed⟩
  rcases exists_of_hasFailed hFailed with ⟨o, e, hTask⟩
  exact ⟨tr, c, hFailed, noTrace_iff hRun hTask⟩

end Pumpy
