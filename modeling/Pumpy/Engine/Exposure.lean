import Mathlib.Algebra.BigOperators.Group.List.Basic
import Pumpy.Engine.Cancellation

/-
  The portfolio cap.  The execution gate compares the cap with
  what it reads in the active map, after it has put its own
  order there.  The cap therefore bounds what is executing, as
  long as no entry of a pass that is under way gets lost: to a
  cancel, or to an earlier pass of the same order.

  Key definitions include:
    * `exposedOrders`
    * `CapHolds`
    * `EntriesKept`
    * `Present`

  The main results are `not_capHolds` and
  `capHolds_of_entriesKept`.
-/

------------------------------------------------------------
-- The Cap
------------------------------------------------------------

namespace Pumpy

open Interleaving

/- The amount is within a limit in SOL, in exact arithmetic. -/
def WithinSol (limit : F64) (lamports : Nat) : Prop :=
  match limit with
  | .nan => False
  | .inf neg => neg = false
  | .fin q => (lamports : ℚ) / 1000000000 ≤ q

instance (limit : F64) (lamports : Nat) :
    Decidable (WithinSol limit lamports) :=
  match limit with
  | .nan => inferInstanceAs (Decidable False)
  | .inf neg => inferInstanceAs (Decidable (neg = false))
  | .fin q =>
      inferInstanceAs (Decidable ((lamports : ℚ) / 1000000000 ≤ q))

def lamports (orders : List Order) : Nat :=
  (orders.map fun o => o.amount.toNat).sum

/- The task has returned `Allow`. -/
def allowed (tr : List OmEvent) (tid : Nat) : Bool :=
  tr.any fun e =>
    match e with
    | .op tid' (.engine (.emit rec)) _ _ =>
        tid' = tid && rec.decision.isAllow
    | _ => false

/- The order of a pass that has not returned. -/
def unreturned (c : OmConfig) (tid : Nat) : Option Order :=
  match c.tasks[tid]? with
  | some ⟨.processOrder _, some (.done _)⟩ => none
  | some ⟨.processOrder o, some _⟩ => some o
  | _ => none

/-
  The orders that have been allowed at the execution gate and
  whose pass has not returned.
-/
def exposedOrders (tr : List OmEvent) (c : OmConfig) : List Order :=
  (List.range c.tasks.length).filterMap fun tid =>
    if allowed tr tid then unreturned c tid else none

/- What is exposed is within the cap. -/
def CapHolds
    (om : OrderManager)
    (tr : List OmEvent)
    (c : OmConfig) : Prop :=
  exposedOrders tr c ≠ [] →
    WithinSol om.config.maxPortfolioExposureSol
      (lamports (exposedOrders tr c))

/- A manager that takes a single order up to its cap. -/
def capManager : OrderManager :=
  { sampleManager with
    config :=
      { sampleManager.config with maxPositionSizeSol := .fin 100 } }

/-
  The order of a running pass is cancelled, and a second order
  of the same size is let through.
-/
def cancelledExposureSchedule : List (Machine.Choice Outcome Ext) :=
  [.ext (.submitOrder (sampleOrder "" 60000000000))] ++
    acceptSteps 0 "a" [] ++
    [.ext (.submitOrder (sampleOrder "" 60000000000))] ++
    acceptSteps 1 "b" [] ++
    [.ext (.recv (sampleOrder "a" 60000000000))] ++
    gateSteps 2
      [{ sampleOrder "a" 60000000000 with status := .validating }] ++
    [.ext (.cancelOrder "a")] ++
    steps 3
      [.plain, .plain, .plain, .plain, .plain, .time 0, .stmt .done,
        .plain, .plain, .plain, .plain] ++
    [.ext (.recv (sampleOrder "b" 60000000000))] ++
    gateSteps 4
      [{ sampleOrder "b" 60000000000 with status := .validating }]

/- More is exposed than the cap allows. -/
theorem not_capHolds :
    ¬∀ (om : OrderManager) (db : Database) (chain : Chain)
      (seenIds : List OrderId) (tr : List OmEvent) (c : OmConfig),
      Machine.Run om.machine Machine.anyStep
          (State.boot db chain seenIds) tr c →
        CapHolds om tr c := by
  intro hAll
  have hPlay :=
    Machine.exists_run_of_play capManager.machine
      (sampleState .enabled) cancelledExposureSchedule
      (fun tr c => lamports (exposedOrders tr c) = 120000000000)
      (by decide +kernel)
  rcases hPlay with ⟨tr, c, hRun, hTotal⟩
  have hLamports : lamports (exposedOrders tr c) = 120000000000 :=
    of_decide_eq_true hTotal
  have hSome : exposedOrders tr c ≠ [] := by
    intro hNil
    rw [hNil] at hLamports
    cases hLamports
  have hHolds := hAll capManager _ _ _ tr c hRun hSome
  rw [hLamports] at hHolds
  have hWithin : ((120000000000 : Nat) : ℚ) / 1000000000 ≤ 100 := hHolds
  norm_num at hWithin

------------------------------------------------------------
-- Kept Entries
------------------------------------------------------------

/-
  No cancel takes out the entry of an order with a pass under
  way, no pass puts its order into the map while another pass
  of it is under way, and the gate's rounded comparison lets
  nothing through that the exact one would not.
-/
structure EntriesKept
    (om : OrderManager)
    (s₀ : State)
    (tr : List OmEvent)
    (_ : State)
    (e : OmEvent) : Prop where
  cancels :
    ∀ tid id env v,
      e = .op tid (.map (.activeRemove id)) env (some v) →
        (om.machine.rootsIn tr)[tid]? = some (.cancelOrder id) →
          ¬PassUnderWay om s₀ tr id
  passes :
    ∀ tid o env u tid' o',
      e = .op tid (.map (.activeInsert o)) env u →
        UnderWay om s₀ tr tid' o' → tid' ≠ tid → o'.id ≠ o.id
  rounding :
    ∀ tid o env active,
      e = .op tid (.map .activeValues) env active →
        (om.machine.rootsIn tr)[tid]? = some (.processOrder o) →
          ((exposureWithout active o).add (solOf o.amount)).gt
              om.config.maxPortfolioExposureSol = false →
            WithinSol om.config.maxPortfolioExposureSol
              (lamports active)

------------------------------------------------------------
-- Present Entries
------------------------------------------------------------

section Moves

variable {om : OrderManager} {g g' : Phase} {op : Op} {r : op.Resp}

/- What a move does to the entry of its pass. -/
theorem OrderManager.Move.entry
    (hMove : om.Move g op r g') :
    (g'.entry = none ∧ op.inserts = none) ∨
      (g'.entry = g.entry ∧ op.inserts = none ∧ op.removes = none) ∨
        ∃ v, op.inserts = some v ∧ op.removes = none ∧
          g.entry = none ∧ g'.entry = some v := by
  cases hMove with
  | idle hNeutral hOpen =>
      have hInert := Op.inert_of_neutral hNeutral
      exact .inr (.inl ⟨rfl, hInert.inserts, hInert.removes⟩)
  | announce hOp hMay =>
      have hInert := Op.inert_of_announces hOp
      exact .inr (.inl ⟨rfl, hInert.inserts, hInert.removes⟩)
  | enter => exact .inr (.inr ⟨_, rfl, rfl, rfl, rfl⟩)
  | @take gate o active d b =>
      refine .inr (.inl ⟨?_, rfl, rfl⟩)
      cases b with
      | true => cases gate <;> rfl
      | false => exact entry_of_settled
  | @issue gate o active d reason n =>
      refine .inr (.inl ⟨?_, rfl, rfl⟩)
      rw [entry_of_settled]
      cases gate <;> rfl
  | @emit gate o active stage rec hId hMay =>
      cases gate with
      | submission => exact .inl ⟨rfl, rfl⟩
      | execution => exact .inr (.inl ⟨rfl, rfl, rfl⟩)
  | @close g o o' r hId hMay =>
      cases r with
      | error e => exact .inl ⟨rfl, rfl⟩
      | ok u =>
          refine .inr (.inl ⟨?_, rfl, rfl⟩)
          cases g with
          | reading gate v =>
              cases gate with
              | submission => exact hMay.elim
              | execution =>
                  rcases hMay with ⟨rfl, _⟩
                  rfl
          | refused v =>
              rcases hMay with ⟨rfl, _⟩
              rfl
          | executing v active live =>
              rcases hMay with ⟨rfl, _⟩
              rfl
          | _ => exact hMay.elim
  | @read gate o active =>
      cases gate <;> exact .inr (.inl ⟨rfl, rfl, rfl⟩)
  | @load gate o active b =>
      cases gate <;> exact .inr (.inl ⟨rfl, rfl, rfl⟩)
  | @reject gate o active n =>
      cases gate <;> exact .inr (.inl ⟨rfl, rfl, rfl⟩)
  | @latch gate o active b =>
      cases gate <;> exact .inr (.inl ⟨rfl, rfl, rfl⟩)
  | @flag gate o active =>
      cases gate <;> exact .inr (.inl ⟨rfl, rfl, rfl⟩)
  | @clear gate o active hCleared =>
      cases gate <;> exact .inr (.inl ⟨rfl, rfl, rfl⟩)
  | bundle | direct | poll | deadline =>
      exact .inr (.inl ⟨rfl, rfl, rfl⟩)
  | requeue hId => exact .inr (.inl ⟨rfl, rfl, rfl⟩)
  | exitLock => exact .inr (.inl ⟨rfl, rfl, rfl⟩)
  | check => split <;> exact .inl ⟨rfl, rfl⟩
  | status => split <;> exact .inl ⟨rfl, rfl⟩
  | store hId hStatus => split <;> exact .inl ⟨rfl, rfl⟩
  | push hId => split <;> exact .inl ⟨rfl, rfl⟩
  | _ => exact .inl ⟨rfl, rfl⟩

/- Who takes an entry out of the map. -/
theorem OrderManager.Move.removes
    {id : OrderId}
    (hMove : om.Move g op r g')
    (hRemoves : op.removes = some id) :
    g.tends = some id ∨
      (g = .cancelling id true ∧ op = .map (.activeRemove id)) := by
  cases hMove with
  | idle hNeutral hOpen =>
      rw [(Op.inert_of_neutral hNeutral).removes] at hRemoves
      cases hRemoves
  | announce hOp hMay =>
      rw [(Op.inert_of_announces hOp).removes] at hRemoves
      cases hRemoves
  | exitRemove hId =>
      cases hRemoves
      exact .inl (congrArg some hId.symm)
  | withdraw =>
      cases hRemoves
      exact .inr ⟨rfl, rfl⟩
  | _ => cases hRemoves

end Moves

/-
  Every entry a pass will take out is in the map, no two
  passes tend one order, and the lock has its holder.
-/
structure Present
    (s : State)
    (shs : List (Shadow Root Phase)) : Prop where
  present : ∀ v ∈ Protocol.held Phase.entry shs, v ∈ s.maps.active
  distinct : (Protocol.held Phase.tends shs).Nodup
  locked : LockHeld s shs

section Steps

variable {om : OrderManager}
variable {db : Database} {chain : Chain} {seenIds : List OrderId}
variable {tr : List OmEvent} {c : OmConfig} {s s' : State}
variable {shs : List (Shadow Root Phase)}
variable {tid : Nat} {root : Root} {g g' : Phase}
variable {op : Op} {env : Outcome} {r : op.Resp}

/- The pass that tends an entry is under way. -/
theorem underWay_of_tends
    {C : OmCond} {id : OrderId}
    (hRun : OmTrackedRun om C (State.boot db chain seenIds) tr c shs)
    (hAt : shs[tid]? = some ⟨root, some g⟩)
    (hTends : g.tends = some id) :
    ∃ o, o.id = id ∧ UnderWay om (State.boot db chain seenIds) tr tid o := by
  have hHistory := history_of_shadowRun hRun.shadowRun hAt
  rcases pass_of_tends hHistory hTends with ⟨o, rfl, hId⟩
  refine ⟨o, hId, underWay_of_shadow hRun hAt ?_⟩
  intro hOver
  cases g with
  | pausing => cases hTends
  | finished => cases hTends
  | _ => exact hOver

/- No other pass loses its entry to an operation. -/
theorem present_other
    {v : Order} {tid' : Nat} {root' : Root} {g₁ : Phase}
    (hPresent : Present c.state shs)
    (hRun :
      OmTrackedRun om (EntriesKept om (State.boot db chain seenIds))
        (State.boot db chain seenIds) tr c shs)
    (hCond :
      EntriesKept om (State.boot db chain seenIds) tr c.state
        (.op tid op env r))
    (hPhase : shs[tid]? = some ⟨root, some g⟩)
    (hMove : om.Move g op r g')
    (hExec : State.exec op env c.state = some (r, s'))
    (hNe : tid' ≠ tid)
    (hAt : shs[tid']? = some ⟨root', some g₁⟩)
    (hEntry : g₁.entry = some v) :
    v ∈ s'.maps.active := by
  have hTends : g₁.tends = some v.id := congrArg _ hEntry
  have hMem : v ∈ c.state.maps.active :=
    hPresent.present v
      (Protocol.mem_held.mpr ⟨tid', root', g₁, hAt, hEntry⟩)
  rcases underWay_of_tends hRun hAt hTends with ⟨o', hId, hUnderWay⟩
  refine exec_keeps_active hExec ?_ ?_ hMem
  · intro o hInserts hSame
    have hOp : op = .map (.activeInsert o) := by
      cases op with
      | map op =>
          cases op with
          | activeInsert o' =>
              cases hInserts
              rfl
          | _ => cases hInserts
      | _ => cases hInserts
    subst hOp
    refine hCond.passes tid o env r tid' o' rfl hUnderWay hNe ?_
    rw [hId, hSame]
  · intro hRemoves
    rcases OrderManager.Move.removes hMove hRemoves with
      hOwn | ⟨rfl, rfl⟩
    · exact hNe (Protocol.holder_unique hPresent.distinct hAt hPhase
        hTends hOwn)
    · have hRoot : root = .cancelOrder v.id :=
        history_of_shadowRun hRun.shadowRun hPhase
      have hCancel :
          (om.machine.rootsIn tr)[tid]? = some (.cancelOrder v.id) := by
        rw [← hRoot]
        exact root_of_shadow hRun.shadowRun (List.append_nil tr).symm
          hPhase
      have hFound := (exec_activeRemove hExec).1
      cases hRemoved : findById v.id c.state.maps.active with
      | none =>
          have hNone := List.find?_eq_none.mp hRemoved v hMem
          simp at hNone
      | some w =>
          rw [hRemoved] at hFound
          subst hFound
          exact hCond.cancels tid v.id env w rfl hCancel
            ⟨tid', o', hUnderWay, hId⟩

theorem Present.afterOp
    (hPresent : Present c.state shs)
    (hRun :
      OmTrackedRun om (EntriesKept om (State.boot db chain seenIds))
        (State.boot db chain seenIds) tr c shs)
    (hCond :
      EntriesKept om (State.boot db chain seenIds) tr c.state
        (.op tid op env r))
    (hPhase : shs[tid]? = some ⟨root, some g⟩)
    (hMove : om.Move g op r g')
    (hExec : State.exec op env c.state = some (r, s')) :
    Present s' (shadowsAfter om shs tid root g' op) := by
  constructor
  · intro v hMem
    rcases mem_held_shadowsAfter rfl hMem with
      hOwn | ⟨tid', root', g₁, hNe, hAt, hEntry⟩
    · rcases OrderManager.Move.entry hMove with
        ⟨hNone, _⟩ | ⟨hSame, hInserts, hRemoves⟩ |
          ⟨w, hInserts, _, _, hNew⟩
      · rw [hNone] at hOwn
        cases hOwn
      · rw [exec_active hInserts hRemoves hExec]
        rw [hSame] at hOwn
        exact hPresent.present v
          (Protocol.mem_held.mpr ⟨tid, root, g, hPhase, hOwn⟩)
      · rw [hNew] at hOwn
        cases hOwn
        cases op with
        | map op =>
            cases op with
            | activeInsert o =>
                cases hInserts
                rw [(exec_activeInsert hExec).2]
                exact List.mem_cons_self
            | _ => cases hInserts
        | _ => cases hInserts
    · exact present_other hPresent hRun hCond hPhase hMove hExec hNe
        hAt hEntry
  · rcases exists_held_op (f := Phase.tends) om op g' rfl hPhase with
      ⟨rest, hOld, hNew⟩
    have hBefore := hOld.nodup_iff.mp hPresent.distinct
    refine hNew.nodup_iff.mpr ?_
    rcases OrderManager.Move.entry hMove with
      ⟨hNone, _⟩ | ⟨hSame, _, _⟩ | ⟨w, hInserts, _, hFirst, hEntered⟩
    · have hTends : g'.tends = none := by
        unfold Phase.tends
        rw [hNone]
        rfl
      rw [hTends]
      exact (List.nodup_append.mp hBefore).2.1
    · have hTends : g'.tends = g.tends :=
        congrArg (Option.map Order.id) hSame
      rw [hTends]
      exact hBefore
    · have hTends : g.tends = none := congrArg _ hFirst
      have hTends' : g'.tends = some w.id := congrArg _ hEntered
      rw [hTends] at hOld hBefore
      rw [hTends']
      refine List.nodup_cons.mpr ⟨fun hMem => ?_, hBefore⟩
      have hHeld : w.id ∈ Protocol.held Phase.tends shs :=
        hOld.mem_iff.mpr hMem
      rcases Protocol.mem_held.mp hHeld with
        ⟨tid', root', g₁, hAt, hTends₁⟩
      rcases underWay_of_tends hRun hAt hTends₁ with
        ⟨o', hId, hUnderWay⟩
      have hNe : tid' ≠ tid := by
        rintro rfl
        rw [hPhase] at hAt
        cases hAt
        rw [hTends] at hTends₁
        cases hTends₁
      cases op with
      | map op =>
          cases op with
          | activeInsert o =>
              cases hInserts
              exact hCond.passes tid w env r tid' o' rfl hUnderWay hNe
                hId
          | _ => cases hInserts
      | _ => cases hInserts
  · exact hPresent.locked.afterOp hPhase hMove hExec

theorem Present.afterExt
    {e : Ext}
    (hPresent : Present s shs)
    (hExt : Ext.exec e s = some s') :
    Present s' (shadowsAfterExt om shs e) := by
  by_cases hRestart : e = .restart
  · subst hRestart
    refine ⟨fun v hMem => ?_, ?_, hPresent.locked.afterExt hExt⟩
    · rw [held_restart] at hMem
      cases hMem
    · rw [held_restart]
      exact List.nodup_nil
  · have hMaps := active_ext hRestart hExt
    refine ⟨fun v hMem => ?_, ?_, hPresent.locked.afterExt hExt⟩
    · rw [held_ext hRestart fun root => by cases root <;> rfl] at hMem
      rw [hMaps]
      exact hPresent.present v hMem
    · rw [held_ext hRestart fun root => by cases root <;> rfl]
      exact hPresent.distinct

/- As long as entries are kept, they are all present. -/
theorem present_of_trackedRun
    (hRun :
      OmTrackedRun om (EntriesKept om (State.boot db chain seenIds))
        (State.boot db chain seenIds) tr c shs) :
    Present c.state shs := by
  induction hRun with
  | nil =>
      refine ⟨fun v hMem => ?_, List.nodup_nil, rfl⟩
      cases hMem
  | snoc hRun hCond hStep hShadow hTracks ih =>
      cases hShadow with
      | op hPhase hMove hExec =>
          exact ih.afterOp hRun hCond hPhase hMove hExec
      | ext hExt => exact ih.afterExt hExt

end Steps

------------------------------------------------------------
-- Reads
------------------------------------------------------------

/- The phases before a task has read the active map. -/
def Phase.early : Phase → Prop
  | submitting _ => True
  | entering _ => True
  | reading _ _ => True
  | _ => False

section Reads

variable {om : OrderManager} {C : OmCond}
variable {db : Database} {chain : Chain} {seenIds : List OrderId}
variable {tr : List OmEvent} {s : State}
variable {shs : List (Shadow Root Phase)}
variable {tid : Nat} {root : Root} {g g' : Phase}
variable {op : Op} {r : op.Resp}

/- The map is read at the end of the early phases. -/
theorem OrderManager.Move.early
    (hMove : om.Move g op r g') :
    (op ≠ .map .activeValues ∧ (g'.early → g.early)) ∨
      (op = .map .activeValues ∧ g.early ∧ ¬g'.early) := by
  cases hMove with
  | idle hNeutral hOpen =>
      refine .inl ⟨?_, id⟩
      rintro rfl
      cases hNeutral
  | announce hOp hMay =>
      refine .inl ⟨?_, id⟩
      rintro rfl
      cases hOp
  | draw => exact .inl ⟨by simp, fun _ => trivial⟩
  | enter => exact .inl ⟨by simp, fun _ => trivial⟩
  | read => exact .inr ⟨rfl, trivial, id⟩
  | @emit gate o active stage rec hId hMay =>
      refine .inl ⟨by simp, ?_⟩
      cases gate <;> exact False.elim
  | check =>
      refine .inl ⟨by simp, ?_⟩
      split <;> exact False.elim
  | status =>
      refine .inl ⟨by simp, ?_⟩
      split <;> exact False.elim
  | @take gate o active d b =>
      refine .inl ⟨by simp, ?_⟩
      cases b with
      | true => exact False.elim
      | false =>
          cases gate <;> cases hAllow : d.isAllow <;>
            simp [Phase.settled, Phase.early, hAllow]
  | @issue gate o active d reason n =>
      refine .inl ⟨by simp, ?_⟩
      cases gate <;> cases hAllow : d.isAllow <;>
        simp [Phase.settled, Phase.early, hAllow]
  | store hId hStatus =>
      refine .inl ⟨by simp, ?_⟩
      split <;> exact False.elim
  | push hId =>
      refine .inl ⟨by simp, ?_⟩
      split <;> exact False.elim
  | close hId hMay =>
      refine .inl ⟨by simp, ?_⟩
      split <;> exact False.elim
  | _ => exact .inl ⟨by simp, False.elim⟩

/- A task reads the map once, at the end of its early phases. -/
theorem read_once
    (hRun :
      OmShadowRun om C (State.boot db chain seenIds) tr s shs)
    (hAt : shs[tid]? = some ⟨root, some g⟩) :
    (g.early → ∀ active, ¬ActiveRead tr tid active) ∧
      ∀ active active', ActiveRead tr tid active →
        ActiveRead tr tid active' → active = active' := by
  refine hRun.local_invariant
    (fun tr tid _ g =>
      (g.early → ∀ active, ¬ActiveRead tr tid active) ∧
        ∀ active active', ActiveRead tr tid active →
          ActiveRead tr tid active' → active = active')
    ?_ ?_ ?_ hAt
  · intro tr tid root hNone
    have hUnread : ∀ active, ¬ActiveRead tr tid active := by
      rintro active ⟨env, hMem⟩
      exact hNone _ _ _ hMem
    exact ⟨fun _ => hUnread, fun active _ hRead =>
      absurd hRead (hUnread active)⟩
  · intro tr _ _ _ tid root g op env r g' _ _ _ _ hOnce hMove
    rcases hOnce with ⟨hEarly, hSame⟩
    rcases OrderManager.Move.early hMove with
      ⟨hOther, hBack⟩ | ⟨rfl, hBefore, hLate⟩
    · have hOld :
          ∀ active, ActiveRead (tr ++ [.op tid op env r]) tid active →
            ActiveRead tr tid active := by
        intro active hRead
        rcases hRead.of_append_singleton with hOld | ⟨env', hEq⟩
        · exact hOld
        · cases hEq
          exact absurd rfl hOther
      refine ⟨fun hEarly' active hRead => ?_,
        fun active active' hRead hRead' => ?_⟩
      · exact hEarly (hBack hEarly') active (hOld active hRead)
      · exact hSame active active' (hOld active hRead)
          (hOld active' hRead')
    · have hNew :
          ∀ active,
            ActiveRead (tr ++ [.op tid (.map .activeValues) env r]) tid
                active →
              active = r := by
        intro active hRead
        rcases hRead.of_append_singleton with hOld | ⟨env', hEq⟩
        · exact absurd hOld (hEarly hBefore active)
        · cases hEq
          rfl
      refine ⟨fun hEarly' => absurd hEarly' hLate,
        fun active active' hRead hRead' => ?_⟩
      rw [hNew active hRead, hNew active' hRead']
  · intro tr _ _ tid root g e _ _ hOnce hOther
    have hOld :
        ∀ active, ActiveRead (tr ++ [e]) tid active →
          ActiveRead tr tid active := by
      intro active hRead
      rcases hRead.of_append_singleton with hOld | ⟨env', hEq⟩
      · exact hOld
      · exact absurd hEq (hOther _ _ _)
    exact ⟨fun hEarly active hRead =>
        hOnce.1 hEarly active (hOld active hRead),
      fun active active' hRead hRead' =>
        hOnce.2 active active' (hOld active hRead) (hOld active' hRead')⟩

end Reads

------------------------------------------------------------
-- Exposed Passes
------------------------------------------------------------

section Exposed

variable {om : OrderManager} {C : OmCond} {s₀ : State}
variable {db : Database} {chain : Chain} {seenIds : List OrderId}
variable {tr : List OmEvent} {c : OmConfig} {s : State}
variable {shs : List (Shadow Root Phase)}
variable {tid : Nat} {root : Root} {g : Phase} {o : Order}

theorem task_of_unreturned
    (hUnreturned : unreturned c tid = some o) :
    ∃ p : OmProg Ret,
      c.tasks[tid]? = some ⟨.processOrder o, some p⟩ ∧
        ∀ r, p ≠ .done r := by
  unfold unreturned at hUnreturned
  split at hUnreturned
  · cases hUnreturned
  · rename_i o' p hNotDone hTask
    cases hUnreturned
    refine ⟨p, hTask, ?_⟩
    rintro r rfl
    exact hNotDone r rfl
  · cases hUnreturned

/- A pass that has not returned is not over. -/
theorem shadow_of_unreturned
    (hRun : OmTrackedRun om C (State.boot db chain seenIds) tr c shs)
    (hUnreturned : unreturned c tid = some o) :
    ∃ g, shs[tid]? = some ⟨.processOrder o, some g⟩ ∧ ¬g.mayReturn := by
  rcases task_of_unreturned hUnreturned with ⟨p, hTask, hNotDone⟩
  rcases hRun.shadow_of_task hTask with
    ⟨⟨root, phase⟩, hAt, hRoot, hTracks⟩
  have hPass : root = .processOrder o := hRoot.symm
  subst hPass
  cases phase with
  | none => exact hTracks.elim
  | some g =>
      refine ⟨g, hAt, fun hOver => ?_⟩
      cases g with
      | pausing =>
          rcases history_of_shadowRun hRun.shadowRun hAt with
            ⟨reason, n, hEq⟩
          cases hEq
      | finished =>
          have hWp :
              om.lifecycle.Wp p .finished fun _ g => Phase.mayReturn g :=
            hTracks
          rcases hWp.done_of_stuck Op.nonempty_resp
            (fun op r g' hMove => by
              cases OrderManager.Move.not_ended hMove) id with
            ⟨r, hDone, _⟩
          exact hNotDone r hDone
      | _ => exact hOver

/- What was allowed has passed the rules against what it read. -/
theorem cleared_of_allowed
    (hRun :
      OmShadowRun om C (State.boot db chain seenIds) tr s shs)
    (hRoot : (om.machine.rootsIn tr)[tid]? = some (.processOrder o))
    (hAllowed : allowed tr tid = true) :
    ∃ active, ActiveRead tr tid active ∧
      om.Cleared .execution o active := by
  rcases List.any_eq_true.mp hAllowed with ⟨e, hMem, hEvent⟩
  split at hEvent
  · rename_i tid' rec env u
    rcases List.append_of_mem hMem with ⟨pre, post, hSplit⟩
    rcases hRun.at_event hSplit with ⟨s₁, shs₁, _, _, hPre, _, hStep⟩
    rcases Bool.and_eq_true_iff.mp hEvent with ⟨hTid, hAllow⟩
    have hSame : tid' = tid := of_decide_eq_true hTid
    subst hSame
    cases hStep with
    | op hPhase hMove hExec =>
        have hOwn := root_of_shadow hPre hSplit hPhase
        rw [hRoot] at hOwn
        cases hOwn
        cases hMove with
        | idle hNeutral hOpen => cases hNeutral
        | announce hOp hMay => cases hOp
        | @emit gate v active stage _ hId hMay =>
            have hHistory := history_of_shadowRun hPre hPhase
            have hDecision : rec.decision = .allow := by
              cases hD : rec.decision with
              | allow => rfl
              | reject reason | halt reason =>
                  rw [hD] at hAllow
                  cases hAllow
            rw [hDecision] at hMay
            cases stage with
            | passing =>
                cases gate with
                | submission =>
                    rcases hHistory with ⟨⟨o', hEq, _⟩, _⟩
                    cases hEq
                | execution =>
                    rcases hHistory with
                      ⟨⟨o', hEq, rfl⟩, hRead, _, hCleared⟩
                    cases hEq
                    rw [hSplit]
                    exact ⟨active, hRead.append _,
                      cleared_of_withStatus hCleared⟩
            | start | opened | counted | latched | halting =>
                exact hMay.elim
  · cases hEvent

/- A pass that has read the map and is not over has its entry there. -/
theorem entry_of_unreturned
    (hHistory : History om tr tid (.processOrder o) g)
    (hLate : ¬g.early)
    (hOpen : ¬g.mayReturn) :
    (∃ v, g.entry = some v ∧ v = { o with status := .validating }) ∨
      ∃ v, g = .exiting v .removed := by
  have hOwn :
      ∀ v, PassOf (.processOrder o) v →
        v = { o with status := .validating } := by
    rintro v ⟨o', hEq, rfl⟩
    cases hEq
    rfl
  cases g with
  | submitting v => exact absurd trivial hLate
  | entering v => exact absurd trivial hLate
  | reading gate v => exact absurd trivial hLate
  | deciding gate v active stage =>
      cases gate with
      | submission =>
          rcases hHistory with ⟨⟨o', hEq, _⟩, _⟩
          cases hEq
      | execution => exact .inl ⟨v, rfl, hOwn v hHistory.1⟩
  | healing v active d stage =>
      rcases hHistory with ⟨o', hEq, _⟩
      cases hEq
  | raising gate v active d =>
      cases gate with
      | submission =>
          rcases hHistory with ⟨o', hEq, _⟩
          cases hEq
      | execution => exact .inl ⟨v, rfl, hOwn v hHistory.1⟩
  | issuing gate v active d =>
      cases gate with
      | submission =>
          rcases hHistory with ⟨o', hEq, _⟩
          cases hEq
      | execution => exact .inl ⟨v, rfl, hOwn v hHistory.1⟩
  | accepting v =>
      rcases hHistory with ⟨o', hEq, _⟩
      cases hEq
  | executing v active live => exact .inl ⟨v, rfl, hOwn v hHistory.1⟩
  | refused v => exact .inl ⟨v, rfl, hOwn v hHistory⟩
  | exiting v stage =>
      cases stage with
      | removed => exact .inr ⟨v, rfl⟩
      | arriving | holding => exact .inl ⟨v, rfl, hOwn v hHistory⟩
  | cancelling id holding => cases hHistory
  | withdrawing id removed => cases hHistory
  | pausing => exact absurd trivial hOpen
  | finished => exact absurd trivial hOpen

end Exposed

------------------------------------------------------------
-- The Cap Holds
------------------------------------------------------------

theorem WithinSol.mono
    {limit : F64} {m n : Nat}
    (hWithin : WithinSol limit n)
    (hLe : m ≤ n) :
    WithinSol limit m := by
  cases limit with
  | nan => exact hWithin
  | inf neg => exact hWithin
  | fin q =>
      have hBound : (n : ℚ) / 1000000000 ≤ q := hWithin
      have hCast : (m : ℚ) ≤ n := by exact_mod_cast hLe
      have hScaled : (m : ℚ) / 1000000000 ≤ (n : ℚ) / 1000000000 := by
        gcongr
      exact hScaled.trans hBound

/- Orders with entries of their own amount to no more than these. -/
theorem lamports_filterMap_le
    {f : Nat → Option Order}
    {tids : List Nat}
    {active : List Order}
    (key : Nat → Order → Prop)
    (hKey : ∀ i j v, key i v → key j v → i = j)
    (hNodup : tids.Nodup)
    (hFind :
      ∀ i ∈ tids, ∀ o, f i = some o →
        ∃ v ∈ active, key i v ∧ v.amount = o.amount) :
    lamports (tids.filterMap f) ≤ lamports active := by
  induction tids generalizing active with
  | nil => exact Nat.zero_le _
  | cons i tids ih =>
      rcases List.nodup_cons.mp hNodup with ⟨hNotIn, hRest⟩
      cases hF : f i with
      | none =>
          rw [List.filterMap_cons_none hF]
          exact ih hRest fun j hJ => hFind j (List.mem_cons_of_mem _ hJ)
      | some o =>
          rcases hFind i List.mem_cons_self o hF with
            ⟨v, hMem, hOwn, hAmount⟩
          have hErased :
              lamports (tids.filterMap f) ≤ lamports (active.erase v) := by
            refine ih hRest fun j hJ o' hF' => ?_
            rcases hFind j (List.mem_cons_of_mem _ hJ) o' hF' with
              ⟨w, hMem', hOwn', hAmount'⟩
            refine ⟨w, ?_, hOwn', hAmount'⟩
            have hNe : w ≠ v := by
              rintro rfl
              exact hNotIn (hKey i j w hOwn hOwn' ▸ hJ)
            exact (List.mem_erase_of_ne hNe).mpr hMem'
          have hSum :
              v.amount.toNat + lamports (active.erase v) =
                lamports active :=
            List.sum_map_erase (fun o => o.amount.toNat) hMem
          rw [List.filterMap_cons_some hF]
          simp only [lamports, List.map_cons, List.sum_cons] at *
          rw [← hAmount]
          omega

section Cap

variable {om : OrderManager}
variable {db : Database} {chain : Chain} {seenIds : List OrderId}
variable {tr : List OmEvent} {c : OmConfig}
variable {shs : List (Shadow Root Phase)}
variable {tid : Nat} {o : Order}

/- The task has been let through at the gate, and has not returned. -/
def Exposed
    (tr : List OmEvent)
    (c : OmConfig)
    (tid : Nat)
    (o : Order) : Prop :=
  allowed tr tid = true ∧ unreturned c tid = some o

theorem mem_exposedOrders
    (hMem : o ∈ exposedOrders tr c) :
    ∃ tid, Exposed tr c tid o := by
  rcases List.mem_filterMap.mp hMem with ⟨tid, _, hEq⟩
  split at hEq
  · rename_i hAllowed
    exact ⟨tid, hAllowed, hEq⟩
  · cases hEq

theorem Exposed.root
    {C : OmCond}
    (hRun : OmTrackedRun om C (State.boot db chain seenIds) tr c shs)
    (hExposed : Exposed tr c tid o) :
    (om.machine.rootsIn tr)[tid]? = some (.processOrder o) := by
  rcases shadow_of_unreturned hRun hExposed.2 with ⟨g, hAt, _⟩
  exact root_of_shadow hRun.shadowRun (List.append_nil tr).symm hAt

/- The read of an exposed pass, and the rules it has passed. -/
theorem Exposed.read
    {C : OmCond}
    (hRun : OmTrackedRun om C (State.boot db chain seenIds) tr c shs)
    (hExposed : Exposed tr c tid o) :
    ∃ active, ActiveRead tr tid active ∧
      om.Cleared .execution o active :=
  cleared_of_allowed hRun.shadowRun (hExposed.root hRun) hExposed.1

/-
  What an exposed pass has in the map at the moment the last of
  them reads it.
-/
def EntryAt
    (shs : List (Shadow Root Phase))
    (tid : Nat)
    (v : Order) : Prop :=
  ∃ root g, shs[tid]? = some ⟨root, some g⟩ ∧ g.entry = some v

theorem EntryAt.unique
    {s : State} {tid' : Nat} {v : Order}
    (hPresent : Present s shs)
    (h : EntryAt shs tid v)
    (h' : EntryAt shs tid' v) :
    tid = tid' := by
  rcases h with ⟨root, g, hAt, hEntry⟩
  rcases h' with ⟨root', g', hAt', hEntry'⟩
  have hTends : g.tends = some v.id := congrArg _ hEntry
  have hTends' : g'.tends = some v.id := congrArg _ hEntry'
  exact Protocol.holder_unique hPresent.distinct hAt hAt' hTends hTends'

/- While the map is not locked, nobody is between removal and unlock. -/
theorem not_removed_of_unlocked
    {s : State} {root : Root} {v : Order}
    (hPresent : Present s shs)
    (hUnlocked : s.maps.activeLocked = false)
    (hAt : shs[tid]? = some ⟨root, some (.exiting v .removed)⟩) :
    False := by
  have hLocked := hPresent.locked.of_locker hAt rfl
  rw [hUnlocked] at hLocked
  cases hLocked

/- A pass that has read before, and is exposed later, has its entry. -/
theorem Exposed.entryAt
    {C : OmCond} {pre post : List OmEvent} {c₁ : OmConfig}
    {shs₁ : List (Shadow Root Phase)} {active : List Order}
    (hRun : OmTrackedRun om C (State.boot db chain seenIds) tr c shs)
    (hPre :
      OmTrackedRun om C (State.boot db chain seenIds) pre c₁ shs₁)
    (hSplit : tr = pre ++ post)
    (hStays :
      tid < shs₁.length →
        (∀ root g, shs₁[tid]? = some ⟨root, some g⟩ → g.mayReturn) →
          tid < shs.length ∧
            ∀ root g, shs[tid]? = some ⟨root, some g⟩ → g.mayReturn)
    (hPresent : Present c₁.state shs₁)
    (hUnlocked : c₁.state.maps.activeLocked = false)
    (hExposed : Exposed tr c tid o)
    (hRead : ActiveRead pre tid active) :
    ∃ v, EntryAt shs₁ tid v ∧ v.amount = o.amount := by
  rcases shadow_of_unreturned hRun hExposed.2 with
    ⟨gEnd, hAtEnd, hOpenEnd⟩
  have hLive :
      ∃ root g, shs₁[tid]? = some ⟨root, some g⟩ ∧ ¬g.mayReturn := by
    by_contra hNone
    push Not at hNone
    have hLt : tid < shs₁.length := by
      rcases hRead with ⟨env, hMem⟩
      exact hPre.shadowRun.tid_lt hMem
    exact hOpenEnd ((hStays hLt hNone).2 _ _ hAtEnd)
  rcases hLive with ⟨root, g, hAt, hOpen⟩
  have hRoot : root = .processOrder o := by
    have hSame := root_of_shadow hPre.shadowRun hSplit hAt
    rw [hExposed.root hRun] at hSame
    exact (Option.some.inj hSame).symm
  subst hRoot
  have hLate : ¬g.early := fun hEarly =>
    (read_once hPre.shadowRun hAt).1 hEarly active hRead
  have hHistory := history_of_shadowRun hPre.shadowRun hAt
  rcases entry_of_unreturned hHistory hLate hOpen with
    ⟨v, hEntry, rfl⟩ | ⟨v, rfl⟩
  · exact ⟨_, ⟨_, g, hAt, hEntry⟩, rfl⟩
  · exact (not_removed_of_unlocked hPresent hUnlocked hAt).elim

/- The pass that reads the map is exposed with its own entry. -/
theorem Exposed.entryAt_read
    {C : OmCond} {pre post : List OmEvent} {c₁ : OmConfig}
    {shs₁ shs₂ : List (Shadow Root Phase)} {s₂ : State}
    {env : Outcome} {active : List Order}
    (hRun : OmTrackedRun om C (State.boot db chain seenIds) tr c shs)
    (hPre :
      OmTrackedRun om C (State.boot db chain seenIds) pre c₁ shs₁)
    (hSplit : tr = pre ++ .op tid (.map .activeValues) env active :: post)
    (hStep :
      om.lifecycle.ShadowStep om.machine c₁.state shs₁
        (.op tid (.map .activeValues) env active) s₂ shs₂)
    (hExposed : Exposed tr c tid o) :
    ∃ v, EntryAt shs₁ tid v ∧ v.amount = o.amount := by
  cases hStep with
  | op hPhase hMove hExec =>
      have hOwn := root_of_shadow hPre.shadowRun hSplit hPhase
      have hHistory := history_of_shadowRun hPre.shadowRun hPhase
      cases hMove with
      | idle hNeutral hOpen => cases hNeutral
      | announce hOp hMay => cases hOp
      | @read gate v active =>
          rw [hExposed.root hRun] at hOwn
          cases hOwn
          cases gate with
          | submission =>
              rcases hHistory with ⟨o₁, hEq, _⟩
              cases hEq
          | execution =>
              rcases hHistory with ⟨⟨o₁, hEq, rfl⟩, _⟩
              cases hEq
              exact ⟨_, ⟨_, _, hPhase, rfl⟩, rfl⟩

/- At the last read of the exposed, each of them has its entry in it. -/
theorem Exposed.entry_in_read
    {C : OmCond} {pre post : List OmEvent} {c₁ : OmConfig}
    {shs₁ shs₂ : List (Shadow Root Phase)} {s₂ : State} {tid' : Nat}
    {env : Outcome} {active : List Order}
    (hRun : OmTrackedRun om C (State.boot db chain seenIds) tr c shs)
    (hPre :
      OmTrackedRun om C (State.boot db chain seenIds) pre c₁ shs₁)
    (hSplit :
      tr = pre ++ .op tid' (.map .activeValues) env active :: post)
    (hStays :
      tid < shs₁.length →
        (∀ root g, shs₁[tid]? = some ⟨root, some g⟩ → g.mayReturn) →
          tid < shs.length ∧
            ∀ root g, shs[tid]? = some ⟨root, some g⟩ → g.mayReturn)
    (hStep :
      om.lifecycle.ShadowStep om.machine c₁.state shs₁
        (.op tid' (.map .activeValues) env active) s₂ shs₂)
    (hPresent : Present c₁.state shs₁)
    (hLast :
      ∀ env active, .op tid (.map .activeValues) env active ∉ post)
    (hExposed : Exposed tr c tid o) :
    ∃ v ∈ active, EntryAt shs₁ tid v ∧ v.amount = o.amount := by
  have hRead :
      c₁.state.maps.activeLocked = false ∧
        active.Perm c₁.state.maps.active := by
    cases hStep with
    | op hPhase hMove hExec =>
        exact ⟨(exec_activeValues hExec).1, (exec_activeValues hExec).2.1⟩
  rcases hRead with ⟨hUnlocked, hPerm⟩
  have hIn : ∃ v, EntryAt shs₁ tid v ∧ v.amount = o.amount := by
    rcases hExposed.read hRun with ⟨active₁, ⟨env₁, hRead₁⟩, _⟩
    rw [hSplit] at hRead₁
    rcases List.mem_append.mp hRead₁ with hBefore | hFrom
    · exact hExposed.entryAt hRun hPre hSplit hStays hPresent hUnlocked
        ⟨env₁, hBefore⟩
    · rcases List.mem_cons.mp hFrom with hSame | hAfter
      · cases hSame
        exact hExposed.entryAt_read hRun hPre hSplit hStep
      · exact absurd hAfter (hLast env₁ active₁)
  rcases hIn with ⟨v, ⟨root, g, hAt, hEntry⟩, hAmount⟩
  have hMem : v ∈ c₁.state.maps.active :=
    hPresent.present v
      (Protocol.mem_held.mpr ⟨tid, root, g, hAt, hEntry⟩)
  exact ⟨v, hPerm.mem_iff.mpr hMem, ⟨root, g, hAt, hEntry⟩, hAmount⟩

/-
  In every run that keeps its entries, whatever the
  interleaving, what is exposed stays within the cap.
-/
theorem capHolds_of_entriesKept
    (om : OrderManager)
    (db : Database)
    (chain : Chain)
    (seenIds : List OrderId)
    {tr : List OmEvent}
    {c : OmConfig}
    (hRun :
      Machine.Run om.machine
        (EntriesKept om (State.boot db chain seenIds))
        (State.boot db chain seenIds) tr c) :
    CapHolds om tr c := by
  rcases Protocol.trackedRun_of_run om.follows hRun with
    ⟨shs, hTracked⟩
  intro hSome
  -- The last read of the map by a pass that is exposed.
  rcases List.exists_mem_of_ne_nil _ hSome with ⟨o₀, hMem₀⟩
  rcases mem_exposedOrders hMem₀ with ⟨tid₀, hExposed₀⟩
  rcases hExposed₀.read hTracked with ⟨active₀, ⟨env₀, hRead₀⟩, _⟩
  rcases Protocol.exists_last
    (p := fun e : OmEvent =>
      ∃ tid o env active, Exposed tr c tid o ∧
        e = .op tid (.map .activeValues) env active)
    ⟨_, hRead₀, tid₀, o₀, env₀, active₀, hExposed₀, rfl⟩ with
    ⟨pre, _, post, hSplit, ⟨tid, o, env, active, hExposed, rfl⟩, hLast⟩
  rcases hTracked.at_event_trapped
    (fun _ _ _ _ hOver hMove => OrderManager.Move.mayReturn hOver hMove)
    hSplit with ⟨c₁, shs₁, s₂, shs₂, hPre, hCond, hStep, hStays⟩
  have hPresent := present_of_trackedRun hPre
  have hTotal : lamports (exposedOrders tr c) ≤ lamports active := by
    refine lamports_filterMap_le (EntryAt shs₁)
      (fun i j v h h' => h.unique hPresent h')
      List.nodup_range ?_
    intro i _ o' hEq
    split at hEq
    · rename_i hAllowed
      have hExposed' : Exposed tr c i o' := ⟨hAllowed, hEq⟩
      refine hExposed'.entry_in_read hTracked hPre hSplit (hStays i)
        hStep hPresent ?_
      intro env' active' hAfter
      exact hLast _ hAfter ⟨i, o', env', active', hExposed', rfl⟩
    · cases hEq
  have hRoot :
      (om.machine.rootsIn pre)[tid]? = some (.processOrder o) :=
    hTracked.shadowRun.root_before hSplit (hExposed.root hTracked)
  rcases hExposed.read hTracked with ⟨active', hRead', hCleared⟩
  have hSame : active' = active := by
    rcases shadow_of_unreturned hTracked hExposed.2 with
      ⟨gEnd, hAtEnd, _⟩
    have hRead : ActiveRead tr tid active := ⟨env, by simp [hSplit]⟩
    exact (read_once hTracked.shadowRun hAtEnd).2 active' active
      hRead' hRead
  subst hSame
  have hWithin := hCond.rounding tid o env active' rfl hRoot
    hCleared.exposure
  exact hWithin.mono hTotal

/-
  Nothing is removed, no order has two passes, and all that is
  read is within the cap.
-/
def keepsEntries (om : OrderManager) (tr : List OmEvent) : Bool :=
  tr.all fun e =>
    match e with
    | .op _ (.map (.activeRemove _)) _ _ => false
    | .op tid (.map (.activeInsert o)) _ _ =>
        (List.range (om.machine.rootsIn tr).length).all fun tid' =>
          match (om.machine.rootsIn tr)[tid']? with
          | some (.processOrder o') => tid' = tid || o'.id ≠ o.id
          | _ => true
    | .op _ (.map .activeValues) _ active =>
        WithinSol om.config.maxPortfolioExposureSol (lamports active)
    | _ => true

theorem entriesKept_of_keepsEntries
    {s₀ s : State} {pre post : List OmEvent} {e : OmEvent}
    (hKeeps : keepsEntries om tr = true)
    (hSplit : tr = pre ++ e :: post) :
    EntriesKept om s₀ pre s e := by
  have hEvent :=
    List.all_eq_true.mp hKeeps e (by rw [hSplit]; simp)
  constructor
  · rintro tid id env v rfl
    cases hEvent
  · rintro tid o env u tid' o' rfl ⟨c', p, hRun, hTask, _⟩ hNe
    have hRootPre :
        (om.machine.rootsIn pre)[tid']? = some (.processOrder o') := by
      rw [← hRun.roots_eq, List.getElem?_map, hTask]
      rfl
    have hRoot :
        (om.machine.rootsIn tr)[tid']? = some (.processOrder o') := by
      rw [hSplit]
      exact om.machine.root_append hRootPre _
    have hOther :=
      List.all_eq_true.mp hEvent tid'
        (List.mem_range.mpr (List.getElem?_eq_some_iff.mp hRoot).1)
    rw [hRoot] at hOther
    simpa [hNe] using hOther
  · rintro tid o env active rfl _ _
    exact of_decide_eq_true hEvent

/- Two passes at once that together stay within the cap. -/
def sharedCapSchedule : List (Machine.Choice Outcome Ext) :=
  [.ext (.submitOrder (sampleOrder "" 40000000000))] ++
    acceptSteps 0 "a" [] ++
    [.ext (.submitOrder (sampleOrder "" 60000000000))] ++
    acceptSteps 1 "b" [] ++
    [.ext (.recv (sampleOrder "a" 40000000000)),
      .ext (.recv (sampleOrder "b" 60000000000))] ++
    gateSteps 2
      [{ sampleOrder "a" 40000000000 with status := .validating }] ++
    gateSteps 3
      [{ sampleOrder "b" 60000000000 with status := .validating },
        { sampleOrder "a" 40000000000 with status := .validating }]

/- The whole cap is exposed, and no more. -/
theorem exists_capHolds :
    ∃ (tr : List OmEvent) (c : OmConfig),
      lamports (exposedOrders tr c) = 100000000000 ∧
        CapHolds capManager tr c := by
  have hPlay :=
    Machine.exists_run_of_play capManager.machine
      (sampleState .enabled) sharedCapSchedule
      (fun tr c =>
        keepsEntries capManager tr &&
          decide (lamports (exposedOrders tr c) = 100000000000))
      (by decide +kernel)
  rcases hPlay with ⟨tr, c, hRun, hShown⟩
  simp only [Bool.and_eq_true, decide_eq_true_eq] at hShown
  rcases hShown with ⟨hKeeps, hTotal⟩
  refine ⟨tr, c, hTotal,
    capHolds_of_entriesKept capManager _ _ _ (hRun.meets ?_)⟩
  intro pre post e c' hSplit _
  exact entriesKept_of_keepsEntries hKeeps hSplit

end Cap

end Pumpy
