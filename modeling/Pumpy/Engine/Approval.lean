import Pumpy.Engine.History

/-
  Trades and the decision engine: a transaction is submitted
  only inside a pass whose evaluation has allowed the order,
  and an order refused at the execution gate is never
  processed again.

  Key definitions include:
    * `ApprovalDiscipline`
    * `LetThrough`

  The main result is `approvalDiscipline_of_run`.
-/

------------------------------------------------------------
-- Approval
------------------------------------------------------------

namespace Pumpy

open Interleaving

/-
  What the decision engine is for.  `approved` is about every
  submission of a trade, `refused` about every pass that was
  not allowed.
-/
structure ApprovalDiscipline
    (om : OrderManager)
    (tr : List OmEvent) : Prop where
  approved :
    ∀ pre post tid op env r tx,
      tr = pre ++ .op tid op env r :: post →
        op.submits = some tx →
          ∃ o : Order,
            (om.machine.rootsIn tr)[tid]? = some (.processOrder o) ∧
            Approved pre tid { o with status := .validating } ∧
            om.Trades o tx ∧
            om.demoMode = false ∧
            0 < o.amount ∧
            (solOf o.amount).gt om.config.maxPositionSizeSol
              = false ∧
            o.slippageBps ≤ om.config.maxSlippageBps
  refused :
    ∀ pre post tid rec env o,
      tr = pre ++ .op tid (.engine (.emit rec)) env () :: post →
        (om.machine.rootsIn tr)[tid]? = some (.processOrder o) →
          rec.decision.isAllow = false →
            (∀ op env r,
              .op tid op env r ∈ tr → op.submits = none) ∧
            ∀ o', .ext (.recv o') ∈ post → o'.id ≠ o.id

------------------------------------------------------------
-- Silence
------------------------------------------------------------

/- The task has submitted nothing. -/
def Silent (tr : List OmEvent) (tid : Nat) : Prop :=
  ∀ op env r, .op tid op env r ∈ tr → op.submits = none

/- The task's evaluation has refused its order. -/
def Refused (tr : List OmEvent) (tid : Nat) : Prop :=
  ∃ rec env,
    .op tid (.engine (.emit rec)) env () ∈ tr ∧
      rec.decision.isAllow = false

/-
  The execution gate consults the engine on behalf of a pass,
  and nothing there keeps its order from trading.
-/
structure LetThrough
    (om : OrderManager)
    (tr : List OmEvent)
    (s : State)
    (tid : Nat)
    (o : Order)
    (active : List Order) : Prop where
  pass : (om.machine.rootsIn tr)[tid]? = some (.processOrder o)
  read : ActiveRead tr tid active
  cleared : om.Cleared .execution o active
  latch : s.latch.autoPaused = false

namespace Phase

/- The phases before a pass acts on its decision. -/
def undecided : Phase → Prop
  | submitting _ => True
  | entering _ => True
  | reading _ _ => True
  | deciding _ _ _ _ => True
  | _ => False

/- The phases a trade may still follow. -/
def mayTrade : Phase → Prop
  | raising gate _ _ d => gate = .execution ∧ d.isAllow = true
  | issuing gate _ _ d => gate = .execution ∧ d.isAllow = true
  | executing _ _ _ => True
  | g => g.undecided

end Phase

section Silence

variable {om : OrderManager} {tr : List OmEvent} {tid : Nat}
variable {g g' : Phase} {op : Op} {env : Outcome} {r : op.Resp}

/- Only an execution with nothing live submits, and only its order. -/
theorem OrderManager.Move.submits
    {tx : Transaction}
    (hMove : om.Move g op r g')
    (hSubmits : op.submits = some tx) :
    ∃ o active, g = .executing o active none ∧ om.Trades o tx := by
  cases hMove with
  | idle hNeutral hOpen =>
      rw [(Op.inert_of_neutral hNeutral).submits] at hSubmits
      cases hSubmits
  | announce hOp hMay =>
      rw [(Op.inert_of_announces hOp).submits] at hSubmits
      cases hSubmits
  | bundle hTrades =>
      cases hSubmits
      exact ⟨_, _, rfl, hTrades⟩
  | direct hTrades =>
      cases hSubmits
      exact ⟨_, _, rfl, hTrades⟩
  | _ => cases hSubmits

/- A decision is returned while the order is being decided. -/
theorem OrderManager.Move.emits
    {rec : AuditRecord} {u : Unit}
    (hMove : om.Move g (.engine (.emit rec)) u g') :
    ∃ gate o active stage, g = .deciding gate o active stage ∧
      g' = .decided gate o active rec.decision := by
  cases hMove with
  | idle hNeutral hOpen => cases hNeutral
  | announce hOp hMay => cases hOp
  | emit hId hMay => exact ⟨_, _, _, _, rfl, rfl⟩

theorem not_undecided_settled
    {gate : Gate} {o : Order} {active : List Order} {d : Decision} :
    ¬(Phase.settled gate o active d).undecided := by
  cases gate <;> cases hAllow : d.isAllow <;>
    simp [Phase.settled, hAllow, Phase.undecided]

theorem mayTrade_settled
    {gate : Gate} {o : Order} {active : List Order} {d : Decision}
    (hMay : (Phase.settled gate o active d).mayTrade) :
    gate = .execution ∧ d.isAllow = true := by
  cases gate <;> cases hAllow : d.isAllow <;>
    simp_all [Phase.settled, Phase.mayTrade, Phase.undecided]

/- Nothing is submitted up to the decision. -/
theorem OrderManager.Move.undecided
    (hMove : om.Move g op r g')
    (hUndecided : g'.undecided) :
    g.undecided ∧ op.submits = none := by
  cases hMove with
  | idle hNeutral hOpen =>
      exact ⟨hUndecided, (Op.inert_of_neutral hNeutral).submits⟩
  | announce hOp hMay =>
      exact ⟨hUndecided, (Op.inert_of_announces hOp).submits⟩
  | draw | enter | read | load | reject | latch | flag =>
      exact ⟨trivial, rfl⟩
  | clear hCleared => exact ⟨trivial, rfl⟩
  | @emit gate o active stage rec hId hMay => exact ⟨trivial, rfl⟩
  | check => split at hUndecided <;> exact hUndecided.elim
  | status => split at hUndecided <;> exact hUndecided.elim
  | @take gate o active d b =>
      cases b with
      | false => exact absurd hUndecided not_undecided_settled
      | true => exact hUndecided.elim
  | issue => exact absurd hUndecided not_undecided_settled
  | store hId hStatus => split at hUndecided <;> exact hUndecided.elim
  | push hId => split at hUndecided <;> exact hUndecided.elim
  | close hId hMay => split at hUndecided <;> exact hUndecided.elim
  | _ => exact hUndecided.elim

/- A trade follows only phases it may follow. -/
theorem OrderManager.Move.mayTrade
    (hMove : om.Move g op r g')
    (hMay : g'.mayTrade) :
    g.mayTrade := by
  cases hMove with
  | idle hNeutral hOpen => exact hMay
  | announce hOp hAnn => exact hMay
  | draw | enter | read | load | reject | latch | flag => trivial
  | clear hCleared => trivial
  | emit hId hEmit => trivial
  | check =>
      split at hMay
      · exact hMay.elim
      · cases hMay.1
  | status =>
      split at hMay
      · exact hMay.elim
      · cases hMay.1
  | resetFlag => cases hMay.1
  | @take gate o active d b =>
      cases b with
      | false => exact mayTrade_settled hMay
      | true => exact hMay
  | issue => exact mayTrade_settled hMay
  | store hId hStatus => split at hMay <;> exact hMay.elim
  | push hId => split at hMay <;> exact hMay.elim
  | close hId hClose => split at hMay <;> exact hMay.elim
  | bundle | direct | poll | deadline => trivial
  | requeue hId => trivial
  | resetCount | resetLatch | send | exitLock | exitRemove
  | exitUnlock | cancelLock | withdraw | withdrawClose | cancelUnlock
  | pause =>
      exact hMay.elim

end Silence

------------------------------------------------------------
-- Discipline
------------------------------------------------------------

section Discipline

variable {om : OrderManager} {C : OmCond}
variable {db : Database} {chain : Chain} {seenIds : List OrderId}
variable {tr : List OmEvent} {s : State}
variable {shs : List (Shadow Root Phase)}
variable {tid : Nat} {root : Root} {g : Phase}

/- A task that has not decided has submitted nothing. -/
theorem silent_of_undecided
    (hRun :
      OmShadowRun om C (State.boot db chain seenIds) tr s shs)
    (hAt : shs[tid]? = some ⟨root, some g⟩)
    (hUndecided : g.undecided) :
    Silent tr tid := by
  refine hRun.local_invariant
    (fun tr tid _ g => g.undecided → Silent tr tid)
    ?_ ?_ ?_ hAt hUndecided
  · intro tr tid root hNone _ op env r hMem
    exact absurd hMem (hNone op env r)
  · intro tr _ _ _ tid root g op env r g' _ _ _ _ hSilent hMove hUndecided'
    rcases OrderManager.Move.undecided hMove hUndecided' with
      ⟨hBefore, hNothing⟩
    intro op' env' r' hMem
    rcases List.mem_append.mp hMem with hOld | hNew
    · exact hSilent hBefore op' env' r' hOld
    · cases List.mem_singleton.mp hNew
      exact hNothing
  · intro tr _ _ tid root g e _ _ hSilent hNe hUndecided' op env r hMem
    rcases List.mem_append.mp hMem with hOld | hNew
    · exact hSilent hUndecided' op env r hOld
    · exact absurd (List.mem_singleton.mp hNew).symm (hNe op env r)

/- A refused task trades no more. -/
theorem not_mayTrade_of_refused
    (hRun :
      OmShadowRun om C (State.boot db chain seenIds) tr s shs)
    (hAt : shs[tid]? = some ⟨root, some g⟩)
    (hRefused : Refused tr tid) :
    ¬g.mayTrade := by
  refine hRun.local_invariant
    (fun tr tid _ g => Refused tr tid → ¬g.mayTrade)
    ?_ ?_ ?_ hAt hRefused
  · rintro tr tid root hNone ⟨rec, env, hMem, _⟩
    exact absurd hMem (hNone (.engine (.emit rec)) env ())
  · rintro tr _ _ _ tid root g op env r g' _ _ _ _ hNot hMove
      ⟨rec, env', hMem, hRefuse⟩ hMay
    rcases List.mem_append.mp hMem with hOld | hNew
    · exact hNot ⟨rec, env', hOld, hRefuse⟩
        (OrderManager.Move.mayTrade hMove hMay)
    · cases List.mem_singleton.mp hNew
      rcases OrderManager.Move.emits hMove with
        ⟨gate, o, active, stage, _, rfl⟩
      cases gate with
      | submission => exact hMay
      | execution =>
          have hAllow : rec.decision.isAllow = true := hMay.2
          rw [hRefuse] at hAllow
          cases hAllow
  · rintro tr _ _ tid root g e _ _ hNot hNe ⟨rec, env, hMem, hRefuse⟩
    rcases List.mem_append.mp hMem with hOld | hNew
    · exact hNot ⟨rec, env, hOld, hRefuse⟩
    · exact absurd (List.mem_singleton.mp hNew).symm
        (hNe (.engine (.emit rec)) env ())

/- Every submission is an approved one. -/
theorem approved_of_shadowRun
    {pre post : List OmEvent} {op : Op} {env : Outcome}
    {r : op.Resp} {tx : Transaction}
    (hRun :
      OmShadowRun om C (State.boot db chain seenIds) tr s shs)
    (hSplit : tr = pre ++ .op tid op env r :: post)
    (hSubmits : op.submits = some tx) :
    ∃ o : Order,
      (om.machine.rootsIn tr)[tid]? = some (.processOrder o) ∧
      Approved pre tid { o with status := .validating } ∧
      om.Trades o tx ∧
      ∃ active, om.Cleared .execution { o with status := .validating }
        active := by
  rcases hRun.at_event hSplit with ⟨s₁, shs₁, s₂, shs₂, hPre, _, hStep⟩
  cases hStep with
  | op hPhase hMove hExec =>
      rcases OrderManager.Move.submits hMove hSubmits with
        ⟨v, active, rfl, hTrades⟩
      rcases history_of_shadowRun hPre hPhase with
        ⟨⟨o, rfl, rfl⟩, hApproved, _, hCleared⟩
      exact ⟨o, root_of_shadow hPre hSplit hPhase, hApproved,
        hTrades, active, hCleared⟩

/- The gate has let the pass of a submission through. -/
theorem letThrough_of_submits
    {pre post : List OmEvent} {op : Op} {env : Outcome}
    {r : op.Resp} {tx : Transaction}
    (hRun :
      OmShadowRun om C (State.boot db chain seenIds) tr s shs)
    (hSplit : tr = pre ++ .op tid op env r :: post)
    (hSubmits : op.submits = some tx) :
    ∃ (o : Order) (active : List Order) (pre₀ : List OmEvent)
      (env₀ : Outcome) (post₀ : List OmEvent) (s₀ : State)
      (shs₀ : List (Shadow Root Phase)),
      pre =
          pre₀ ++ .op tid (.engine .loadAutoPaused) env₀ false ::
            post₀ ∧
        OmShadowRun om C (State.boot db chain seenIds) pre₀ s₀ shs₀ ∧
        C pre₀ s₀ (.op tid (.engine .loadAutoPaused) env₀ false) ∧
        LetThrough om pre₀ s₀ tid o active := by
  rcases hRun.at_event hSplit with ⟨_, _, _, _, hPre, _, hStep⟩
  cases hStep with
  | op hPhase hMove hExec =>
      rcases OrderManager.Move.submits hMove hSubmits with
        ⟨v, active, rfl, _⟩
      rcases history_of_shadowRun hPre hPhase with
        ⟨⟨o, rfl, rfl⟩, hAllowed⟩
      rcases foundOpen_of_goesOn hPre hPhase rfl with
        ⟨pre₀, env₀, post₀, hLoad, hRead⟩
      rcases hPre.at_event hLoad with
        ⟨s₀, shs₀, _, _, hPre₀, hCond, hStep₀⟩
      have hPass :
          (om.machine.rootsIn pre₀)[tid]? = some (.processOrder o) :=
        hPre.root_before hLoad
          (root_of_shadow hPre (List.append_nil pre).symm hPhase)
      have hOpen : s₀.latch.autoPaused = false := by
        cases hStep₀ with
        | op _ _ hExec₀ => exact (exec_engine hExec₀).1.symm
      exact ⟨o, active, pre₀, env₀, post₀, s₀, shs₀, hLoad, hPre₀,
        hCond, hPass, hRead, cleared_of_withStatus hAllowed.cleared,
        hOpen⟩

/- A refusal releases the order of its pass. -/
theorem released_of_refused
    {pre post : List OmEvent} {rec : AuditRecord} {env : Outcome}
    {o : Order} {s₁ s₂ : State} {shs₁ shs₂ : List (Shadow Root Phase)}
    (hRun :
      OmShadowRun om C (State.boot db chain seenIds) pre s₁ shs₁)
    (hStep :
      om.lifecycle.ShadowStep om.machine s₁ shs₁
        (.op tid (.engine (.emit rec)) env ()) s₂ shs₂)
    (hSplit : tr = pre ++ post)
    (hRoot : (om.machine.rootsIn tr)[tid]? = some (.processOrder o))
    (hRefuse : rec.decision.isAllow = false) :
    o.id ∈ s₂.seenIds ∧ o.id ∉ holders s₂ shs₂ := by
  have hOwned := owned_of_shadowRun hRun
  cases hStep with
  | op hPhase hMove hExec =>
      have hSame := root_of_shadow hRun hSplit hPhase
      rw [hRoot] at hSame
      cases hSame
      rcases OrderManager.Move.emits hMove with
        ⟨gate, v, active, stage, rfl, rfl⟩
      have hHistory := history_of_shadowRun hRun hPhase
      cases gate with
      | submission =>
          rcases hHistory with ⟨⟨o', hEq, _⟩, _⟩
          cases hEq
      | execution =>
          rcases hHistory with ⟨⟨o', hEq, rfl⟩, _⟩
          cases hEq
          refine ⟨?_, hOwned.released hPhase hExec rfl ?_ rfl⟩
          · rw [(exec_seenIds hExec).2]
            apply hOwned.seen
            apply List.mem_append_right
            exact Protocol.mem_held.mpr ⟨tid, _, _, hPhase, rfl⟩
          · simp [Phase.decided, Phase.carries, hRefuse]

/- A refused pass submits nothing, before or after. -/
theorem silent_of_refused
    {pre post : List OmEvent} {rec : AuditRecord} {env : Outcome}
    (hRun :
      OmShadowRun om C (State.boot db chain seenIds) tr s shs)
    (hSplit :
      tr = pre ++ .op tid (.engine (.emit rec)) env () :: post)
    (hRefuse : rec.decision.isAllow = false) :
    Silent tr tid := by
  intro op env' r hMem
  rw [hSplit] at hMem
  rcases List.mem_append.mp hMem with hBefore | hFrom
  · rcases hRun.at_event hSplit with ⟨_, _, _, _, hPre, _, hStep⟩
    cases hStep with
    | op hPhase hMove hExec =>
        rcases OrderManager.Move.emits hMove with
          ⟨gate, v, active, stage, rfl, _⟩
        exact silent_of_undecided hPre hPhase trivial op env' r hBefore
  · rcases List.mem_cons.mp hFrom with hEq | hAfter
    · cases hEq
      rfl
    · rcases List.append_of_mem hAfter with ⟨mid, post', rfl⟩
      rw [← List.cons_append, ← List.append_assoc] at hSplit
      rcases hRun.at_event hSplit with ⟨_, _, _, _, hPre, _, hStep⟩
      cases hStep with
      | op hPhase hMove hExec =>
          by_contra hSome
          rcases Option.ne_none_iff_exists'.mp hSome with
            ⟨tx, hSubmits⟩
          rcases OrderManager.Move.submits hMove hSubmits with
            ⟨v, active, rfl, _⟩
          refine not_mayTrade_of_refused hPre hPhase ?_ trivial
          exact ⟨rec, env, by simp, hRefuse⟩

/- The order of a refused pass never comes off the channel again. -/
theorem gone_of_refused
    {pre post : List OmEvent} {rec : AuditRecord} {env : Outcome}
    {o o' : Order}
    (hRun :
      OmShadowRun om C (State.boot db chain seenIds) tr s shs)
    (hSplit :
      tr = pre ++ .op tid (.engine (.emit rec)) env () :: post)
    (hRoot : (om.machine.rootsIn tr)[tid]? = some (.processOrder o))
    (hRefuse : rec.decision.isAllow = false)
    (hRecv : .ext (.recv o') ∈ post) :
    o'.id ≠ o.id := by
  rcases List.append_of_mem hRecv with ⟨mid, post', rfl⟩
  have hLater :
      tr =
        (pre ++ .op tid (.engine (.emit rec)) env () :: mid) ++
          .ext (.recv o') :: post' := by
    simp [hSplit]
  rcases hRun.at_event hLater with ⟨s₁, shs₁, _, _, hPre, _, hStep⟩
  have hGone : o.id ∈ s₁.seenIds ∧ o.id ∉ holders s₁ shs₁ := by
    refine hPre.since
      (Q := fun s shs => o.id ∈ s.seenIds ∧ o.id ∉ holders s shs)
      ?_ ?_ rfl
    · intro _ _ _ _ hRun' _ hStep'
      exact released_of_refused hRun' hStep' hSplit hRoot hRefuse
    · intro _ _ _ _ _ _ _ _ hStep' hNot
      exact not_holder_step hStep' hNot.1 hNot.2
  intro hId
  cases hStep with
  | ext hExt =>
      refine hGone.2 (List.mem_append_left _ ?_)
      rw [(exec_recv hExt).1, ← hId]
      exact List.mem_cons_self

/-
  No trade without approval: in every run, whatever the
  interleaving, every submission is made inside a pass whose
  evaluation allowed its order, and a refused pass submits
  nothing and is the last one for its order.
-/
theorem approvalDiscipline_of_run
    (om : OrderManager)
    (db : Database)
    (chain : Chain)
    (seenIds : List OrderId)
    {tr : List OmEvent}
    {c : OmConfig}
    (hRun :
      Machine.Run om.machine Machine.anyStep
        (State.boot db chain seenIds) tr c) :
    ApprovalDiscipline om tr := by
  rcases Protocol.shadowRun_of_run om.follows hRun with
    ⟨shs, hShadow⟩
  constructor
  · intro pre post tid op env r tx hSplit hSubmits
    rcases approved_of_shadowRun hShadow hSplit hSubmits with
      ⟨o, hRoot, hApproved, hTrades, active, hCleared⟩
    refine ⟨o, hRoot, hApproved, hTrades, hCleared.live, ?_,
      hCleared.position, hCleared.slippage⟩
    exact UInt64.pos_iff_ne_zero.mpr hCleared.amount
  · intro pre post tid rec env o hSplit hRoot hRefuse
    exact ⟨silent_of_refused hShadow hSplit hRefuse,
      fun o' hRecv =>
        gone_of_refused hShadow hSplit hRoot hRefuse hRecv⟩

/- A run that ends with a trade, and is disciplined. -/
theorem exists_disciplined_trade :
    ∃ (tr : List OmEvent) (c : OmConfig),
      c.state.chain.accepted ≠ [] ∧
        ApprovalDiscipline sampleManager tr := by
  have hPlay :=
    Machine.exists_run_of_play sampleManager.machine
      (sampleState .enabled)
      ([.ext (.submitOrder (sampleOrder "" 1000))] ++
        acceptSteps 0 "a" [] ++
        [.ext (.recv (sampleOrder "a" 1000))] ++
        gateSteps 1
          [{ sampleOrder "a" 1000 with status := .validating }] ++
        steps 1
          [.time 0, .plain, .unit (.ok ()), .deadline false,
            .blockhash (.ok 7), .deadline false,
            .submit true (.ok "signature")])
      (fun _ c => c.state.chain.accepted.isEmpty = false)
      (by decide +kernel)
  rcases hPlay with ⟨tr, c, hRun, hAccepted⟩
  refine ⟨tr, c, ?_, approvalDiscipline_of_run _ _ _ _ hRun⟩
  intro hNil
  simp [hNil] at hAccepted

end Discipline

end Pumpy
