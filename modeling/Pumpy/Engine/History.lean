import Pumpy.Engine.Ownership

/-
  What a task has behind it: the operations it must have
  executed, and the rules its order must have met, to be in
  the phase it is in.

  Key definitions include:
    * `Approved`
    * `History`

  The main result is `history_of_shadowRun`.
-/

------------------------------------------------------------
-- Milestones
------------------------------------------------------------

namespace Pumpy

open Interleaving

/- The task has put the order into the active map. -/
def Inserted (tr : List OmEvent) (tid : Nat) (o : Order) : Prop :=
  ∃ env, [.op tid (.map (.activeInsert o)) env ()].Sublist tr

/- It has since found the latch open. -/
def Consulted (tr : List OmEvent) (tid : Nat) (o : Order) : Prop :=
  ∃ env₁ env₂,
    [.op tid (.map (.activeInsert o)) env₁ (),
      .op tid (.engine .loadAutoPaused) env₂ false].Sublist tr

/- It has since returned `Allow` for the order. -/
def Approved (tr : List OmEvent) (tid : Nat) (o : Order) : Prop :=
  ∃ env₁ env₂ env₃ rec,
    rec.orderId = o.id ∧ rec.decision = .allow ∧
    [.op tid (.map (.activeInsert o)) env₁ (),
      .op tid (.engine .loadAutoPaused) env₂ false,
      .op tid (.engine (.emit rec)) env₃ ()].Sublist tr

------------------------------------------------------------
-- The History of a Pass
------------------------------------------------------------

/- The pass works on the order it was started with. -/
def PassOf (root : Root) (v : Order) : Prop :=
  ∃ o, root = .processOrder o ∧ v = { o with status := .validating }

/- The task has drawn the identifier. -/
def Drawn (tr : List OmEvent) (tid : Nat) (id : OrderId) : Prop :=
  ∃ env, .op tid (.sys .newUuid) env id ∈ tr

/- The task has read the active map. -/
def ActiveRead
    (tr : List OmEvent)
    (tid : Nat)
    (active : List Order) : Prop :=
  ∃ env, .op tid (.map .activeValues) env active ∈ tr

/- The submission works on its order, under the identifier it drew. -/
def SubmissionOf
    (tr : List OmEvent)
    (tid : Nat)
    (root : Root)
    (v : Order) : Prop :=
  ∃ o, root = .submitOrder o ∧ v = { o with id := v.id } ∧
    Drawn tr tid v.id

/- What an evaluation at the execution gate has behind it. -/
def EvaluatedTo
    (om : OrderManager)
    (tr : List OmEvent)
    (tid : Nat)
    (v : Order)
    (active : List Order) : EvalStage → Prop
  | .start => Inserted tr tid v
  | .passing => Consulted tr tid v ∧ om.Cleared .execution v active
  | .opened => Consulted tr tid v
  | _ => True

/- What an allowed order has behind it. -/
structure AllowedOn
    (om : OrderManager)
    (tr : List OmEvent)
    (tid : Nat)
    (v : Order)
    (active : List Order) : Prop where
  approved : Approved tr tid v
  read : ActiveRead tr tid active
  cleared : om.Cleared .execution v active

/- What a task in a phase has behind it. -/
def History
    (om : OrderManager)
    (tr : List OmEvent)
    (tid : Nat)
    (root : Root) : Phase → Prop
  | .submitting o => root = .submitOrder o
  | .entering o => root = .processOrder o
  | .reading .submission v => SubmissionOf tr tid root v
  | .reading .execution v => PassOf root v ∧ Inserted tr tid v
  | .deciding .submission v active _ =>
      SubmissionOf tr tid root v ∧ ActiveRead tr tid active
  | .deciding .execution v active stage =>
      PassOf root v ∧ ActiveRead tr tid active ∧
        EvaluatedTo om tr tid v active stage
  | .healing v _ _ _ => SubmissionOf tr tid root v
  | .raising .submission v _ _ => SubmissionOf tr tid root v
  | .raising .execution v active d =>
      PassOf root v ∧ (d.isAllow = true → AllowedOn om tr tid v active)
  | .issuing .submission v _ _ => SubmissionOf tr tid root v
  | .issuing .execution v active d =>
      PassOf root v ∧ (d.isAllow = true → AllowedOn om tr tid v active)
  | .accepting v => SubmissionOf tr tid root v
  | .executing v active _ =>
      PassOf root v ∧ AllowedOn om tr tid v active
  | .refused v => PassOf root v
  | .exiting v _ => PassOf root v
  | .cancelling id _ => root = .cancelOrder id
  | .withdrawing id _ => root = .cancelOrder id
  | .pausing => ∃ reason n, root = .pauseWallet reason n
  | .finished => True

section History

variable {om : OrderManager} {tr : List OmEvent} {tid : Nat}
variable {root : Root} {g g' : Phase} {v : Order}
variable {active : List Order}

theorem Inserted.append
    (h : Inserted tr tid v)
    (tr' : List OmEvent) :
    Inserted (tr ++ tr') tid v := by
  rcases h with ⟨env, hSub⟩
  exact ⟨env, hSub.trans (List.sublist_append_left _ _)⟩

theorem Consulted.append
    (h : Consulted tr tid v)
    (tr' : List OmEvent) :
    Consulted (tr ++ tr') tid v := by
  rcases h with ⟨env₁, env₂, hSub⟩
  exact ⟨env₁, env₂, hSub.trans (List.sublist_append_left _ _)⟩

theorem Approved.append
    (h : Approved tr tid v)
    (tr' : List OmEvent) :
    Approved (tr ++ tr') tid v := by
  rcases h with ⟨env₁, env₂, env₃, rec, hId, hAllow, hSub⟩
  exact ⟨env₁, env₂, env₃, rec, hId, hAllow,
    hSub.trans (List.sublist_append_left _ _)⟩

/- One of some events was there before, or is the last one. -/
theorem exists_mem_snoc
    {f : Outcome → OmEvent}
    {e : OmEvent}
    (hSome : ∃ env, f env ∈ tr ++ [e]) :
    (∃ env, f env ∈ tr) ∨ ∃ env, e = f env := by
  rcases hSome with ⟨env, hMem⟩
  rcases List.mem_append.mp hMem with hOld | hNew
  · exact .inl ⟨env, hOld⟩
  · exact .inr ⟨env, (List.mem_singleton.mp hNew).symm⟩

theorem Drawn.append
    {id : OrderId}
    (h : Drawn tr tid id)
    (tr' : List OmEvent) :
    Drawn (tr ++ tr') tid id := by
  rcases h with ⟨env, hMem⟩
  exact ⟨env, List.mem_append_left _ hMem⟩

theorem ActiveRead.append
    (h : ActiveRead tr tid active)
    (tr' : List OmEvent) :
    ActiveRead (tr ++ tr') tid active := by
  rcases h with ⟨env, hMem⟩
  exact ⟨env, List.mem_append_left _ hMem⟩

theorem ActiveRead.of_append_singleton
    {e : OmEvent}
    (h : ActiveRead (tr ++ [e]) tid active) :
    ActiveRead tr tid active ∨
      ∃ env, e = .op tid (.map .activeValues) env active :=
  exists_mem_snoc h

theorem SubmissionOf.append
    (h : SubmissionOf tr tid root v)
    (tr' : List OmEvent) :
    SubmissionOf (tr ++ tr') tid root v := by
  rcases h with ⟨o, hRoot, hOrder, hDrawn⟩
  exact ⟨o, hRoot, hOrder, hDrawn.append tr'⟩

theorem AllowedOn.append
    (h : AllowedOn om tr tid v active)
    (tr' : List OmEvent) :
    AllowedOn om (tr ++ tr') tid v active :=
  ⟨h.approved.append tr', h.read.append tr', h.cleared⟩

theorem EvaluatedTo.append
    {stage : EvalStage}
    (h : EvaluatedTo om tr tid v active stage)
    (tr' : List OmEvent) :
    EvaluatedTo om (tr ++ tr') tid v active stage := by
  cases stage with
  | start => exact Inserted.append h tr'
  | opened => exact Consulted.append h tr'
  | passing => exact ⟨h.1.append tr', h.2⟩
  | counted | latched | halting => trivial

/- What is behind a task stays behind it. -/
theorem History.append
    (h : History om tr tid root g)
    (tr' : List OmEvent) :
    History om (tr ++ tr') tid root g := by
  cases g with
  | reading gate o =>
      cases gate with
      | submission => exact SubmissionOf.append h tr'
      | execution => exact ⟨h.1, h.2.append tr'⟩
  | deciding gate o act stage =>
      cases gate with
      | submission => exact ⟨h.1.append tr', h.2.append tr'⟩
      | execution =>
          exact ⟨h.1, h.2.1.append tr', h.2.2.append tr'⟩
  | healing o act d stage => exact SubmissionOf.append h tr'
  | raising gate o act d =>
      cases gate with
      | submission => exact SubmissionOf.append h tr'
      | execution => exact ⟨h.1, fun hAllow => (h.2 hAllow).append tr'⟩
  | issuing gate o act d =>
      cases gate with
      | submission => exact SubmissionOf.append h tr'
      | execution => exact ⟨h.1, fun hAllow => (h.2 hAllow).append tr'⟩
  | accepting o => exact SubmissionOf.append h tr'
  | executing o act live => exact ⟨h.1, h.2.append tr'⟩
  | _ => exact h

/- The phase after the flag is taken has the same behind it. -/
theorem History.settled
    {gate : Gate} {d : Decision}
    (h : History om tr tid root (.raising gate v active d)) :
    History om tr tid root (.settled gate v active d) := by
  cases gate with
  | submission =>
      cases hAllow : d.isAllow <;> simp only [Phase.settled, hAllow]
      · trivial
      · exact h
  | execution =>
      cases hAllow : d.isAllow <;> simp only [Phase.settled, hAllow]
      · exact h.1
      · exact ⟨h.1, h.2 hAllow⟩

/- Taking the flag adds nothing. -/
theorem History.issuing_iff
    {gate : Gate} {d : Decision} :
    History om tr tid root (.issuing gate v active d) ↔
      History om tr tid root (.raising gate v active d) := by
  cases gate <;> exact Iff.rfl

/- Only a pass may close an order, and only its own. -/
theorem History.passOf_of_mayClose
    {st : OrderStatus}
    (h : History om tr tid root g)
    (hMay : g.mayClose v st) :
    PassOf root v := by
  cases g with
  | reading gate o =>
      cases gate with
      | submission => exact hMay.elim
      | execution =>
          rcases hMay with ⟨rfl, _⟩
          exact h.1
  | refused o =>
      rcases hMay with ⟨rfl, _⟩
      exact h
  | executing o act live =>
      rcases hMay with ⟨rfl, _⟩
      exact h.1
  | _ => exact hMay.elim

/- A finished evaluation has its decision behind it. -/
theorem History.decided
    {gate : Gate} {stage : EvalStage} {rec : AuditRecord}
    {env : Outcome}
    (h : History om tr tid root (.deciding gate v active stage))
    (hId : rec.orderId = v.id)
    (hMay : om.MayReturn stage rec.decision) :
    History om (tr ++ [.op tid (.engine (.emit rec)) env ()]) tid root
      (.decided gate v active rec.decision) := by
  cases gate with
  | submission => exact h.1.append _
  | execution =>
      rcases h with ⟨hPass, hRead, hEvaluated⟩
      refine ⟨hPass, fun hAllow => ?_⟩
      have hDecision : rec.decision = .allow := by
        cases hD : rec.decision <;> simp [hD, Decision.isAllow] at hAllow
        rfl
      rw [hDecision] at hMay
      cases stage with
      | passing =>
          rcases hEvaluated with ⟨⟨env₁, env₂, hSub⟩, hCleared⟩
          have hApproved :
              Approved
                (tr ++ [.op tid (.engine (.emit rec)) env ()]) tid v :=
            ⟨env₁, env₂, env, rec, hId, hDecision,
              hSub.append (.refl [_])⟩
          exact ⟨hApproved, hRead.append _, hCleared⟩
      | start | opened | counted | latched | halting =>
          exact hMay.elim

/- Every move adds to what is behind its task. -/
theorem History.move
    {op : Op} {env : Outcome} {r : op.Resp}
    (h : History om tr tid root g)
    (hMove : om.Move g op r g') :
    History om (tr ++ [.op tid op env r]) tid root g' := by
  cases hMove with
  | idle hNeutral hOpen => exact h.append _
  | announce hOp hMay => exact h.append _
  | draw => exact ⟨_, h, rfl, env, by simp⟩
  | enter =>
      exact ⟨⟨_, h, rfl⟩, env, List.sublist_append_right _ _⟩
  | @read gate o active =>
      have hRead :
          ActiveRead (tr ++ [.op tid (.map .activeValues) env active])
            tid active :=
        ⟨env, by simp⟩
      cases gate with
      | submission => exact ⟨SubmissionOf.append h _, hRead⟩
      | execution => exact ⟨h.1, hRead, h.2.append _⟩
  | @load gate o active b =>
      cases gate with
      | submission => exact ⟨h.1.append _, h.2.append _⟩
      | execution =>
          rcases h with ⟨hPass, hRead, hStart⟩
          refine ⟨hPass, hRead.append _, ?_⟩
          cases b with
          | true => trivial
          | false =>
              rcases hStart with ⟨env₁, hSub⟩
              exact ⟨env₁, env, hSub.append (.refl [_])⟩
  | @reject gate o active n =>
      cases gate with
      | submission => exact ⟨h.1.append _, h.2.append _⟩
      | execution => exact ⟨h.1, h.2.1.append _, trivial⟩
  | @latch gate o active b =>
      cases gate with
      | submission => exact ⟨h.1.append _, h.2.append _⟩
      | execution =>
          refine ⟨h.1, h.2.1.append _, ?_⟩
          cases b <;> trivial
  | @flag gate o active =>
      cases gate with
      | submission => exact ⟨h.1.append _, h.2.append _⟩
      | execution => exact ⟨h.1, h.2.1.append _, trivial⟩
  | @clear gate o active hCleared =>
      cases gate with
      | submission => exact ⟨h.1.append _, h.2.append _⟩
      | execution =>
          exact ⟨h.1, h.2.1.append _, Consulted.append h.2.2 _, hCleared⟩
  | emit hId hMay => exact h.decided hId hMay
  | @check o active d b =>
      cases b <;> exact SubmissionOf.append h _
  | @status o active d st =>
      split <;> exact SubmissionOf.append h _
  | resetCount => exact SubmissionOf.append h _
  | resetLatch => exact SubmissionOf.append h _
  | resetFlag => exact SubmissionOf.append h _
  | @take gate o active d b =>
      cases b with
      | false => exact h.settled.append _
      | true => exact (History.issuing_iff.mpr h).append _
  | issue => exact (History.issuing_iff.mp h).settled.append _
  | @store o o' r hId hStatus =>
      split
      · exact SubmissionOf.append h _
      · trivial
  | @push o o' max b hId =>
      cases b with
      | false => trivial
      | true => exact SubmissionOf.append h _
  | send hId => trivial
  | @close g o o' r hId hMay =>
      split
      · exact h.passOf_of_mayClose hMay
      · trivial
  | bundle hTrades => exact ⟨h.1, h.2.append _⟩
  | direct hTrades => exact ⟨h.1, h.2.append _⟩
  | poll => exact ⟨h.1, h.2.append _⟩
  | deadline => exact ⟨h.1, h.2.append _⟩
  | requeue hId => exact h.1
  | exitLock => exact h
  | exitRemove hId => exact h
  | exitUnlock => trivial
  | cancelLock => exact h
  | withdraw => exact h
  | withdrawClose hId hStatus => exact h
  | cancelUnlock => trivial
  | pause => exact h

end History

------------------------------------------------------------
-- Runs
------------------------------------------------------------

section Runs

variable {om : OrderManager} {C : OmCond}
variable {db : Database} {chain : Chain} {seenIds : List OrderId}
variable {tr : List OmEvent} {s : State}
variable {shs : List (Shadow Root Phase)}
variable {tid : Nat} {root : Root} {g : Phase}

/- Every task of a run has its history behind it. -/
theorem history_of_shadowRun
    (hRun :
      OmShadowRun om C (State.boot db chain seenIds) tr s shs)
    (hAt : shs[tid]? = some ⟨root, some g⟩) :
    History om tr tid root g := by
  refine hRun.local_invariant (History om) ?_ ?_ ?_ hAt
  · intro tr tid root _
    cases root with
    | submitOrder o => exact rfl
    | processOrder o => exact rfl
    | cancelOrder id => exact rfl
    | pauseWallet reason n => exact ⟨reason, n, rfl⟩
  · intro _ _ _ _ tid root g op env r g' _ _ _ _ hHistory hMove
    exact hHistory.move hMove
  · intro tr _ _ tid root g e _ _ hHistory _
    exact hHistory.append _

/- A task's number names its root along the whole trace. -/
theorem root_of_shadow
    {C : OmCond} {s₀ : State} {pre post : List OmEvent}
    {phase : Option Phase}
    (hRun : OmShadowRun om C s₀ pre s shs)
    (hSplit : tr = pre ++ post)
    (hAt : shs[tid]? = some ⟨root, phase⟩) :
    (om.machine.rootsIn tr)[tid]? = some root := by
  rw [hSplit]
  exact hRun.root_at post hAt

end Runs

------------------------------------------------------------
-- Admission
------------------------------------------------------------

/- The phases of a pass that has found the latch open. -/
def Phase.goesOn : Phase → List Order → Prop
  | deciding .execution _ active .opened, active' => active' = active
  | deciding .execution _ active .passing, active' => active' = active
  | raising .execution _ active d, active' =>
      active' = active ∧ d.isAllow = true
  | issuing .execution _ active d, active' =>
      active' = active ∧ d.isAllow = true
  | executing _ active _, active' => active' = active
  | _, _ => False

/- The task has found the latch open, having read the map. -/
def FoundOpen
    (tr : List OmEvent)
    (tid : Nat)
    (active : List Order) : Prop :=
  ∃ pre env post,
    tr = pre ++ .op tid (.engine .loadAutoPaused) env false :: post ∧
      ActiveRead pre tid active

section Admission

variable {om : OrderManager} {C : OmCond}
variable {db : Database} {chain : Chain} {seenIds : List OrderId}
variable {tr : List OmEvent} {s : State}
variable {shs : List (Shadow Root Phase)}
variable {tid : Nat} {root : Root} {g g' : Phase}

theorem FoundOpen.append
    {active : List Order}
    (h : FoundOpen tr tid active)
    (tr' : List OmEvent) :
    FoundOpen (tr ++ tr') tid active := by
  rcases h with ⟨pre, env, post, rfl, hRead⟩
  exact ⟨pre, env, post ++ tr', by simp, hRead⟩

/- Settled is what has been allowed. -/
theorem goesOn_of_settled
    {gate : Gate} {o : Order} {active active' : List Order}
    {d : Decision}
    (hOn : (Phase.settled gate o active d).goesOn active') :
    (Phase.raising gate o active d).goesOn active' := by
  cases gate with
  | submission =>
      cases hAllow : d.isAllow <;> simp only [Phase.settled, hAllow] at hOn
        <;> exact hOn.elim
  | execution =>
      cases hAllow : d.isAllow with
      | true =>
          simp only [Phase.settled, hAllow] at hOn
          exact ⟨hOn, hAllow⟩
      | false =>
          simp only [Phase.settled, hAllow] at hOn
          exact hOn.elim

/- A pass goes on from where it was, or finds the latch open. -/
theorem OrderManager.Move.goesOn
    {op : Op} {r : op.Resp} {active : List Order}
    (tid : Nat)
    (env : Outcome)
    (hMove : om.Move g op r g')
    (hOn : g'.goesOn active) :
    g.goesOn active ∨
      ∃ v, g = .deciding .execution v active .start ∧
        (.op tid op env r : OmEvent) =
          .op tid (.engine .loadAutoPaused) env false := by
  cases hMove with
  | idle hNeutral hOpen => exact .inl hOn
  | announce hOp hMay => exact .inl hOn
  | @load gate o active' b =>
      cases gate with
      | submission => cases b <;> exact hOn.elim
      | execution =>
          cases b with
          | true => exact hOn.elim
          | false =>
              have hSame : active = active' := hOn
              subst hSame
              exact .inr ⟨o, rfl, rfl⟩
  | @read gate o active' => cases gate <;> exact hOn.elim
  | @reject gate o active' n => cases gate <;> exact hOn.elim
  | @latch gate o active' b => cases gate <;> cases b <;> exact hOn.elim
  | @flag gate o active' => cases gate <;> exact hOn.elim
  | @clear gate o active' hCleared =>
      cases gate with
      | submission => exact hOn.elim
      | execution => exact .inl hOn
  | @emit gate o active' stage rec hId hMay =>
      cases gate with
      | submission => exact hOn.elim
      | execution =>
          have hAllow : rec.decision.isAllow = true := hOn.2
          cases hD : rec.decision with
          | allow =>
              rw [hD] at hMay
              cases stage with
              | passing => exact .inl hOn.1
              | start | opened | counted | latched | halting =>
                  exact hMay.elim
          | reject reason | halt reason =>
              rw [hD] at hAllow
              cases hAllow
  | check => split at hOn <;> exact hOn.elim
  | status => split at hOn <;> exact hOn.elim
  | @take gate o active' d b =>
      cases b with
      | true => cases gate <;> exact .inl hOn
      | false => exact .inl (goesOn_of_settled hOn)
  | @issue gate o active' d reason n =>
      have hRaised := goesOn_of_settled hOn
      cases gate <;> exact .inl hRaised
  | store hId hStatus => split at hOn <;> exact hOn.elim
  | push hId => split at hOn <;> exact hOn.elim
  | close hId hMay => split at hOn <;> exact hOn.elim
  | bundle | direct | poll | deadline => exact .inl hOn
  | _ => exact hOn.elim

/- A pass that goes on has found the latch open. -/
theorem foundOpen_of_goesOn
    {active : List Order}
    (hRun :
      OmShadowRun om C (State.boot db chain seenIds) tr s shs)
    (hAt : shs[tid]? = some ⟨root, some g⟩)
    (hOn : g.goesOn active) :
    FoundOpen tr tid active := by
  refine hRun.local_invariant
    (fun tr tid _ g => ∀ active, g.goesOn active →
      FoundOpen tr tid active)
    ?_ ?_ ?_ hAt active hOn
  · intro tr tid root _ active hOn
    cases root <;> exact hOn.elim
  · intro tr s s' shs tid root g op env r g' hRun _ hAt _ hFound hMove
      active hOn
    have hCases := OrderManager.Move.goesOn tid env hMove hOn
    rcases hCases with hBefore | ⟨v, rfl, hEvent⟩
    · exact (hFound active hBefore).append _
    · have hRead : ActiveRead tr tid active :=
        (history_of_shadowRun hRun hAt).2.1
      exact ⟨tr, env, [], by rw [hEvent], hRead⟩
  · intro tr _ _ tid root g e _ _ hFound _ active hOn
    exact (hFound active hOn).append _

/- The status of its order does not matter to the rules. -/
theorem cleared_of_withStatus
    {o : Order} {active : List Order} {st : OrderStatus}
    (h : om.Cleared .execution { o with status := st } active) :
    om.Cleared .execution o active :=
  ⟨h.live, h.amount, h.slippage, h.position, h.exposure, h.dailyLoss⟩

end Admission

------------------------------------------------------------
-- Origins
------------------------------------------------------------

/- A submission has drawn the identifier and sent its order. -/
def Origin
    (om : OrderManager)
    (tr : List OmEvent)
    (id : OrderId) : Prop :=
  ∃ tid o v env b,
    (om.machine.rootsIn tr)[tid]? = some (.submitOrder o) ∧
      Drawn tr tid id ∧
        .op tid (.chan (.orderSend v)) env b ∈ tr ∧ v.id = id

section Origins

variable {om : OrderManager} {C : OmCond}
variable {db : Database} {chain : Chain} {seenIds : List OrderId}
variable {tr : List OmEvent} {s : State}
variable {shs : List (Shadow Root Phase)}

theorem Origin.append
    {id : OrderId}
    (h : Origin om tr id)
    (tr' : List OmEvent) :
    Origin om (tr ++ tr') id := by
  rcases h with ⟨tid, o, v, env, b, hRoot, hDrawn, hSent, hId⟩
  exact ⟨tid, o, v, env, b, om.machine.root_append hRoot tr',
    hDrawn.append tr', List.mem_append_left _ hSent, hId⟩

/- An order is sent by its submission, or back by its pass. -/
theorem OrderManager.Move.sends
    {g g' : Phase} {op : Op} {r : op.Resp} {v : Order}
    (hMove : om.Move g op r g')
    (hSends : op.sends = some v) :
    op = .chan (.orderSend v) ∧
      ((∃ o, g = .accepting o ∧ v.id = o.id) ∨
        ∃ o active, g = .executing o active none ∧ v.id = o.id) := by
  cases hMove with
  | idle hNeutral hOpen =>
      rw [(Op.inert_of_neutral hNeutral).sends] at hSends
      cases hSends
  | announce hOp hMay =>
      rw [(Op.inert_of_announces hOp).sends] at hSends
      cases hSends
  | send hId =>
      cases hSends
      exact ⟨rfl, .inl ⟨_, rfl, hId⟩⟩
  | requeue hId =>
      cases hSends
      exact ⟨rfl, .inr ⟨_, _, rfl, hId⟩⟩
  | _ => cases hSends

/- Operations start pause writes only. -/
theorem processOrder_not_mem_opRoots
    {op : Op} {o : Order} :
    .processOrder o ∉ om.machine.opRoots op := by
  rcases op with op | op | op | op | op | op | op
  case sys => cases op <;> simp [OrderManager.machine, Op.roots]
  all_goals simp [OrderManager.machine, Op.roots]

/- Nothing comes into the channel from outside. -/
theorem mem_queue_of_ext
    {e : Ext} {s' : State} {v : Order}
    (hExt : Ext.exec e s = some s')
    (hMem : v ∈ s'.chan.queue) :
    v ∈ s.chan.queue := by
  cases e with
  | recv o =>
      rw [(exec_recv hExt).1]
      exact List.mem_cons_of_mem _ hMem
  | submitOrder o | cancelOrder id | setStatus st =>
      cases hExt
      exact hMem
  | land tx =>
      simp only [Ext.exec] at hExt
      grind
  | closeChannel | restart =>
      cases hExt
      cases hMem

/- A pass is started for an order that is in the channel. -/
theorem mem_queue_of_pass
    {e : Ext} {s' : State} {o : Order}
    (hExt : Ext.exec e s = some s')
    (hPass : .processOrder o ∈ om.machine.roots (.ext e)) :
    o ∈ s.chan.queue := by
  cases e with
  | recv o' =>
      have hEq : o = o' := by
        simpa [Machine.roots, OrderManager.machine, Ext.roots]
          using hPass
      rw [hEq, (exec_recv hExt).1]
      exact List.mem_cons_self
  | submitOrder o' | cancelOrder id | setStatus st | land tx
  | closeChannel | restart =>
      simp [Machine.roots, OrderManager.machine, Ext.roots] at hPass

/- What is sent is the order drawn, or the one of the pass. -/
theorem origin_of_sends
    {tid : Nat} {root : Root} {g g' : Phase} {op : Op}
    {env : Outcome} {r : op.Resp} {v : Order}
    (hRun :
      OmShadowRun om C (State.boot db chain seenIds) tr s shs)
    (hPasses :
      ∀ o, .processOrder o ∈ om.machine.rootsIn tr →
        Origin om tr o.id)
    (hPhase : shs[tid]? = some ⟨root, some g⟩)
    (hMove : om.Move g op r g')
    (hSends : op.sends = some v) :
    Origin om (tr ++ [.op tid op env r]) v.id := by
  have hHistory := history_of_shadowRun hRun hPhase
  rcases OrderManager.Move.sends hMove hSends with
    ⟨rfl, ⟨o, rfl, hId⟩ | ⟨o, active, rfl, hId⟩⟩
  · rcases hHistory with ⟨o₀, rfl, _, hDrawn⟩
    refine ⟨tid, o₀, v, env, r, ?_, ?_, by simp, rfl⟩
    · exact root_of_shadow hRun rfl hPhase
    · rw [hId]
      exact hDrawn.append _
  · rcases hHistory with ⟨⟨o₀, rfl, rfl⟩, _⟩
    rw [hId]
    have hRoot :
        (om.machine.rootsIn tr)[tid]? = some (.processOrder o₀) :=
      root_of_shadow hRun (List.append_nil tr).symm hPhase
    exact (hPasses o₀ (List.mem_of_getElem? hRoot)).append _

/- Orders in the channel and in passes come from a submission. -/
theorem origin_of_shadowRun
    (hRun :
      OmShadowRun om C (State.boot db chain seenIds) tr s shs) :
    (∀ v ∈ s.chan.queue, Origin om tr v.id) ∧
      ∀ o, .processOrder o ∈ om.machine.rootsIn tr →
        Origin om tr o.id := by
  induction hRun with
  | nil =>
      constructor
      · intro v hMem
        cases hMem
      · intro o hMem
        cases hMem
  | @snoc tr s s' shs shs' e hRun hCond hStep ih =>
      rcases ih with ⟨ihQueue, ihPass⟩
      cases hStep with
      | @op _ _ tid root g g' op env r hPhase hMove hExec =>
          constructor
          · intro v hMem
            rw [(exec_chan hExec).2] at hMem
            have hCases : v ∈ s.chan.queue ∨ op.sends = some v := by
              split at hMem
              · rcases List.mem_append.mp hMem with hOld | hNew
                · exact .inl hOld
                · exact .inr (by simpa using hNew)
              · exact .inl hMem
            rcases hCases with hOld | hSends
            · exact (ihQueue v hOld).append _
            · exact origin_of_sends hRun ihPass hPhase hMove hSends
          · intro o hMem
            rw [Machine.rootsIn_append, Machine.rootsIn_singleton]
              at hMem
            rcases List.mem_append.mp hMem with hOld | hNew
            · exact (ihPass o hOld).append _
            · exact absurd hNew processOrder_not_mem_opRoots
      | @ext _ _ e hExt =>
          constructor
          · intro v hMem
            exact (ihQueue v (mem_queue_of_ext hExt hMem)).append _
          · intro o hMem
            rw [Machine.rootsIn_append, Machine.rootsIn_singleton]
              at hMem
            rcases List.mem_append.mp hMem with hOld | hNew
            · exact (ihPass o hOld).append _
            · exact (ihQueue o (mem_queue_of_pass hExt hNew)).append _

/- Only a draw is a draw. -/
theorem Drawn.of_append_singleton
    {e : OmEvent} {tid : Nat} {id : OrderId}
    (h : Drawn (tr ++ [e]) tid id) :
    Drawn tr tid id ∨ ∃ env, e = .op tid (.sys .newUuid) env id :=
  exists_mem_snoc h

/- What has been drawn is in use. -/
theorem seen_of_drawn
    {tid : Nat} {id : OrderId}
    (hRun :
      OmShadowRun om C (State.boot db chain seenIds) tr s shs)
    (hDrawn : Drawn tr tid id) :
    id ∈ s.seenIds := by
  induction hRun with
  | nil =>
      rcases hDrawn with ⟨env, hMem⟩
      cases hMem
  | @snoc tr s s' shs shs' e hRun hCond hStep ih =>
      rcases hDrawn.of_append_singleton with hOld | ⟨env, rfl⟩
      · cases hStep with
        | op hPhase hMove hExec =>
            rw [(exec_seenIds hExec).2]
            exact List.mem_append_right _ (ih hOld)
        | ext hExt => exact seenIds_ext hExt id (ih hOld)
      · cases hStep with
        | op hPhase hMove hExec =>
            have hDraw :
                State.exec (.sys .newUuid) env s = some (id, s') :=
              hExec
            rw [(exec_seenIds hDraw).2]
            exact List.mem_cons_self

/- No identifier is drawn twice. -/
theorem drawn_unique
    {tid tid' : Nat} {id : OrderId}
    (hRun :
      OmShadowRun om C (State.boot db chain seenIds) tr s shs)
    (hDrawn : Drawn tr tid id)
    (hDrawn' : Drawn tr tid' id) :
    tid = tid' := by
  induction hRun with
  | nil =>
      rcases hDrawn with ⟨env, hMem⟩
      cases hMem
  | @snoc tr s s' shs shs' e hRun hCond hStep ih =>
      have hNotOld :
          ∀ t env, e = .op t (.sys .newUuid) env id →
            ∀ t', ¬Drawn tr t' id := by
        rintro t env rfl t' hOld
        cases hStep with
        | op hPhase hMove hExec =>
            have hDraw :
                State.exec (.sys .newUuid) env s = some (id, s') :=
              hExec
            exact (exec_seenIds hDraw).1 id rfl
              (seen_of_drawn hRun hOld)
      rcases hDrawn.of_append_singleton with hOld | ⟨env, hEq⟩
      · rcases hDrawn'.of_append_singleton with hOld' | ⟨env', hEq'⟩
        · exact ih hOld hOld'
        · exact absurd hOld (hNotOld _ _ hEq' _)
      · rcases hDrawn'.of_append_singleton with hOld' | ⟨env', hEq'⟩
        · exact absurd hOld' (hNotOld _ _ hEq _)
        · rw [hEq] at hEq'
          cases hEq'
          rfl

end Origins

end Pumpy
