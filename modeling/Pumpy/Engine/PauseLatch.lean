import Pumpy.Engine.Exposure

/-
  The auto-pause latch.  A submission that finds the latch set
  reads the registry row and, if it is enabled, takes it that
  an operator has resumed the wallet; but the row is also
  enabled while the pause write of this very latch is still on
  its way.  The pause lasts where such reads come late enough.

  Key definitions include:
    * `Resumed`
    * `PauseDurable`
    * `HealsLate`
    * `PauseOwed`

  The main results are `not_pauseDurable` and
  `pauseDurable_of_healsLate`.
-/

------------------------------------------------------------
-- Durable Pauses
------------------------------------------------------------

namespace Pumpy

open Interleaving

/-
  After `base`, a pause write was started, it reached the row,
  and then an operator enabled the wallet.
-/
def Resumed
    (om : OrderManager)
    (base tr : List OmEvent) : Prop :=
  ∃ a b c d tid reason n env u tid' o r,
    tr =
      a ++ .op tid (.sys (.spawnPauseWallet reason n)) env u ::
        (b ++ .op tid' (.db (.updateRegistryStatus .paused)) (.stmt o) r ::
          (c ++ .ext (.setStatus .enabled) :: d)) ∧
    tid' = (om.machine.rootsIn (base ++ a)).length ∧
    o.applies = true

/- A pause write has been started. -/
def Issued (tr : List OmEvent) : Prop :=
  ∃ tid reason n env u,
    .op tid (.sys (.spawnPauseWallet reason n)) env u ∈ tr

/- The task has an operation left to execute. -/
def Unfinished (c : OmConfig) (tid : Nat) : Prop :=
  ∃ root op k, c.tasks[tid]? = some ⟨root, some (.act op k)⟩

/-
  What follows a latch: a pause write is started, at the latest
  when the task that latched, or the one that has taken the
  flag from it, returns; whoever consults the engine is told to
  halt; and the latch is not lifted; both until an operator
  enables the wallet once the pause has been written.
-/
structure DurableAfter
    (om : OrderManager)
    (c : OmConfig)
    (tid : Nat)
    (base post : List OmEvent) : Prop where
  issued :
    Issued post ∨ Unfinished c tid ∨
      ∃ tid' env,
        .op tid' (.engine (.swapNeedsDbPause false)) env true ∈ post ∧
          Unfinished c tid'
  halts :
    ∀ mid rest tid' env b,
      post = mid ++ .op tid' (.engine .loadAutoPaused) env b :: rest →
        ¬Resumed om base mid →
          ∀ rec env' u, .op tid' (.engine (.emit rec)) env' u ∈ rest →
            ∃ reason, rec.decision = .halt reason
  kept :
    ∀ mid rest tid' env u,
      post =
          mid ++ .op tid' (.engine (.storeAutoPaused false)) env u ::
            rest →
        Resumed om base mid

/- Every latch of the run is durable. -/
def PauseDurable
    (om : OrderManager)
    (tr : List OmEvent)
    (c : OmConfig) : Prop :=
  ∀ pre post tid env,
    tr = pre ++ .op tid (.engine (.swapAutoPaused true)) env false :: post →
      DurableAfter om c tid
        (pre ++ [.op tid (.engine (.swapAutoPaused true)) env false])
        post

/- The process stays up. -/
def staysUp : OmCond :=
  fun _ _ e => e ≠ .ext .restart

------------------------------------------------------------
-- A Latch That Does Not Last
------------------------------------------------------------

/- The trace latches and lifts the latch, and nobody enables the wallet. -/
def liftsLatch (tr : List OmEvent) : Bool :=
  !tr.any enables &&
    (List.range tr.length).any fun i =>
      match tr.drop i with
      | .op _ (.engine (.swapAutoPaused true)) _ false :: post =>
          post.any fun e =>
            match e with
            | .op _ (.engine (.storeAutoPaused false)) _ _ => true
            | _ => false
      | _ => false

/- No process is restarted. -/
def restartless (tr : List OmEvent) : Bool :=
  tr.all fun e =>
    match e with
    | .ext .restart => false
    | _ => true

theorem not_pauseDurable_of_lifts
    {om : OrderManager} {tr : List OmEvent} {c : OmConfig}
    (hLifts : liftsLatch tr = true) :
    ¬PauseDurable om tr c := by
  intro hDurable
  rcases Bool.and_eq_true_iff.mp hLifts with ⟨hNone, hSome⟩
  rcases List.any_eq_true.mp hSome with ⟨i, _, hAt⟩
  split at hAt
  · rename_i tid env post hDrop
    rcases List.any_eq_true.mp hAt with ⟨e, hMem, hStore⟩
    have hSplit :
        tr =
          tr.take i ++
            .op tid (.engine (.swapAutoPaused true)) env false ::
              post := by
      rw [← hDrop, List.take_append_drop]
    split at hStore
    · rename_i tid' env' u
      rcases List.append_of_mem hMem with ⟨mid, rest, hPost⟩
      rcases (hDurable _ _ _ _ hSplit).kept mid rest tid' env' u hPost
        with ⟨a, b, c, d, _, _, _, _, _, _, _, _, hMid, _⟩
      have hEnabled : .ext (.setStatus .enabled) ∈ tr := by
        rw [hSplit, hPost, hMid]
        simp
      exact not_enabled_of_enables (by simpa using hNone) hEnabled
    · cases hStore
  · cases hAt

/- A manager that latches at the first reject. -/
def strictManager : OrderManager :=
  { sampleManager with decisionEngine := ⟨1, .dev⟩ }

/- An order for nothing is rejected, and latches. -/
def selfLiftingSchedule : List (Machine.Choice Outcome Ext) :=
  [.ext (.submitOrder (sampleOrder "" 0))] ++
    steps 0
      [.fresh "a", .iteration [], .plain, .plain, .plain, .plain,
        .plain, .plain, .query true, .plain, .plain, .plain, .plain]

/- The submission that latches lifts the latch itself. -/
theorem not_pauseDurable :
    ¬∀ (om : OrderManager) (db : Database) (chain : Chain)
      (seenIds : List OrderId) (tr : List OmEvent) (c : OmConfig),
      db.registryStatus = some .enabled →
        Machine.Run om.machine staysUp
            (State.boot db chain seenIds) tr c →
          PauseDurable om tr c := by
  intro hAll
  have hPlay :=
    Machine.exists_run_of_play strictManager.machine
      (sampleState .enabled) selfLiftingSchedule
      (fun tr _ => liftsLatch tr && restartless tr)
      (by decide +kernel)
  rcases hPlay with ⟨tr, c, hRun, hShown⟩
  rcases Bool.and_eq_true_iff.mp hShown with ⟨hLifts, hUp⟩
  have hStays :
      Machine.Run strictManager.machine staysUp
        (sampleState .enabled) tr c := by
    refine hRun.meets ?_
    rintro pre post e c' rfl _ rfl
    have hEvent :=
      List.all_eq_true.mp hUp (.ext .restart) (by simp)
    cases hEvent
  exact not_pauseDurable_of_lifts hLifts
    (hAll strictManager _ _ _ tr c rfl hStays)

------------------------------------------------------------
-- Late Healing
------------------------------------------------------------

/-
  The submission has read the row as enabled and has not come
  to the end of its reset.
-/
def Healing (tr : List OmEvent) (tid : Nat) : Prop :=
  (∃ env, .op tid (.db .getWalletStatus) env (some .enabled) ∈ tr) ∧
    ∀ env u, .op tid (.engine (.storeNeedsDbPause false)) env u ∉ tr

/-
  A submission reads the row as enabled only once every latch
  before has had its pause written and has been resumed, and no
  latch falls between such a read and the end of its reset.
-/
structure HealsLate
    (om : OrderManager)
    (tr : List OmEvent)
    (_ : State)
    (e : OmEvent) : Prop where
  up : e ≠ .ext .restart
  reads :
    ∀ tid env pre post tid' env',
      e = .op tid (.db .getWalletStatus) env (some .enabled) →
        tr =
            pre ++
              .op tid' (.engine (.swapAutoPaused true)) env' false ::
                post →
          Resumed om
            (pre ++
              [.op tid' (.engine (.swapAutoPaused true)) env' false])
            post
  latches :
    ∀ tid env tid',
      e = .op tid (.engine (.swapAutoPaused true)) env false →
        ¬Healing tr tid'

------------------------------------------------------------
-- Resets
------------------------------------------------------------

namespace Phase

/- The phases before the end of a reset. -/
def unreset : Phase → Prop
  | submitting _ => True
  | entering _ => True
  | reading _ _ => True
  | deciding _ _ _ _ => True
  | healing _ _ _ _ => True
  | _ => False

/- The phases of a reset. -/
def resetting : Phase → Prop
  | healing _ _ _ .resetCount => True
  | healing _ _ _ .resetLatch => True
  | healing _ _ _ .resetFlag => True
  | _ => False

theorem unreset_of_resetting
    {g : Phase}
    (hResets : g.resetting) :
    g.unreset := by
  cases g with
  | healing o active d stage => trivial
  | _ => exact hResets.elim

theorem not_unreset_settled
    {gate : Gate} {o : Order} {active : List Order} {d : Decision} :
    ¬(settled gate o active d).unreset := by
  cases gate <;> cases hAllow : d.isAllow <;>
    simp [settled, unreset, hAllow]

theorem not_resetting_settled
    {gate : Gate} {o : Order} {active : List Order} {d : Decision} :
    ¬(settled gate o active d).resetting :=
  fun hResets => not_unreset_settled (unreset_of_resetting hResets)

end Phase

section Resets

variable {om : OrderManager} {C : OmCond} {s₀ s : State}
variable {tr pre mid : List OmEvent}
variable {shs : List (Shadow Root Phase)}
variable {tid tid' : Nat} {g g' : Phase} {op : Op} {r : op.Resp}
variable {env : Outcome}

/- A task that is not past its reset has not cleared the flag. -/
theorem OrderManager.Move.unreset
    (hMove : om.Move g op r g')
    (hUnreset : g'.unreset) :
    g.unreset ∧ op ≠ .engine (.storeNeedsDbPause false) := by
  cases hMove with
  | idle hNeutral hOpen =>
      refine ⟨hUnreset, ?_⟩
      rintro rfl
      cases hNeutral
  | announce hOp hMay =>
      refine ⟨hUnreset, ?_⟩
      rintro rfl
      cases hOp
  | take =>
      split at hUnreset
      · exact hUnreset.elim
      · exact absurd hUnreset Phase.not_unreset_settled
  | issue => exact absurd hUnreset Phase.not_unreset_settled
  | store hId hStatus => split at hUnreset <;> exact hUnreset.elim
  | push hId => split at hUnreset <;> exact hUnreset.elim
  | close hId hMay => split at hUnreset <;> exact hUnreset.elim
  | draw | enter | read | load | reject | latch | flag | clear _
  | emit _ _ | check | status | resetCount | resetLatch =>
      exact ⟨trivial, fun hEq => by cases hEq⟩
  | _ => exact hUnreset.elim

/- A task comes to its reset by reading the row as enabled. -/
theorem OrderManager.Move.resetting
    (tid : Nat)
    (env : Outcome)
    (hMove : om.Move g op r g')
    (hResets : g'.resetting) :
    g.resetting ∨
      (.op tid op env r : OmEvent) =
        .op tid (.db .getWalletStatus) env (some .enabled) := by
  cases hMove with
  | idle hNeutral hOpen => exact .inl hResets
  | announce hOp hMay => exact .inl hResets
  | status =>
      split at hResets
      · rename_i hEnabled
        right
        rw [hEnabled]
      · exact hResets.elim
  | resetCount => exact .inl trivial
  | resetLatch => exact .inl trivial
  | @emit gate o active stage rec hId hMay =>
      cases gate <;> exact hResets.elim
  | check => split at hResets <;> exact hResets.elim
  | take =>
      split at hResets
      · exact hResets.elim
      · exact absurd hResets Phase.not_resetting_settled
  | issue => exact absurd hResets Phase.not_resetting_settled
  | store hId hStatus => split at hResets <;> exact hResets.elim
  | push hId => split at hResets <;> exact hResets.elim
  | close hId hMay => split at hResets <;> exact hResets.elim
  | _ => exact hResets.elim

/- A task in its reset is healing, by its trace. -/
theorem healing_of_resetting
    {root : Root}
    (hRun : OmShadowRun om C s₀ tr s shs)
    (hAt : shs[tid]? = some ⟨root, some g⟩)
    (hResets : g.resetting) :
    Healing tr tid := by
  have hBoth :
      (g.unreset →
        ∀ env u,
          .op tid (.engine (.storeNeedsDbPause false)) env u ∉ tr) ∧
        (g.resetting →
          ∃ env,
            .op tid (.db .getWalletStatus) env (some .enabled) ∈
              tr) := by
    refine hRun.local_invariant
      (fun tr tid _ g =>
        (g.unreset →
          ∀ env u,
            .op tid (.engine (.storeNeedsDbPause false)) env u ∉
              tr) ∧
          (g.resetting →
            ∃ env,
              .op tid (.db .getWalletStatus) env (some .enabled) ∈
                tr))
      ?_ ?_ ?_ hAt
    · intro tr tid root hNone
      refine ⟨fun _ env u => hNone _ env u, fun hResets => ?_⟩
      cases root <;> exact hResets.elim
    · intro tr s s' shs tid root g op env r g' _ _ _ _ hBefore hMove
      constructor
      · intro hUnreset env' u hMem
        have hThen := hMove.unreset hUnreset
        rcases List.mem_append.mp hMem with hOld | hNew
        · exact hBefore.1 hThen.1 env' u hOld
        · cases List.mem_singleton.mp hNew
          exact hThen.2 rfl
      · intro hResets
        have hCases := OrderManager.Move.resetting tid env hMove hResets
        rcases hCases with hStill | hEvent
        · rcases hBefore.2 hStill with ⟨env', hOld⟩
          exact ⟨env', List.mem_append_left _ hOld⟩
        · refine ⟨env, List.mem_append_right _ ?_⟩
          rw [hEvent]
          exact List.mem_cons_self
    · intro tr s shs tid root g e _ _ hBefore hNotOwn
      constructor
      · intro hUnreset env' u hMem
        rcases List.mem_append.mp hMem with hOld | hNew
        · exact hBefore.1 hUnreset env' u hOld
        · exact hNotOwn _ _ _ (List.mem_singleton.mp hNew).symm
      · intro hResets
        rcases hBefore.2 hResets with ⟨env', hOld⟩
        exact ⟨env', List.mem_append_left _ hOld⟩
  exact ⟨hBoth.2 hResets, hBoth.1 (Phase.unreset_of_resetting hResets)⟩

theorem Resumed.append
    {base : List OmEvent}
    (h : Resumed om base tr)
    (tr' : List OmEvent) :
    Resumed om base (tr ++ tr') := by
  rcases h with
    ⟨a, b, c, d, tid, reason, n, env, u, tid', o, r, hSplit, hRest⟩
  refine
    ⟨a, b, c, d ++ tr', tid, reason, n, env, u, tid', o, r, ?_, hRest⟩
  rw [hSplit]
  simp

theorem Issued.append
    (h : Issued tr)
    (tr' : List OmEvent) :
    Issued (tr ++ tr') := by
  rcases h with ⟨tid, reason, n, env, u, hMem⟩
  exact ⟨tid, reason, n, env, u, List.mem_append_left _ hMem⟩

theorem issued_of_resumed
    {base : List OmEvent}
    (h : Resumed om base tr) :
    Issued tr := by
  rcases h with
    ⟨a, b, c, d, tid, reason, n, env, u, tid', o, r, hSplit, _⟩
  refine ⟨tid, reason, n, env, u, ?_⟩
  rw [hSplit]
  simp

/- Who is healing after a latch has read a row enabled since. -/
theorem resumed_of_healing
    (hRun : OmShadowRun om (HealsLate om) s₀ tr s shs)
    (hSplit :
      tr =
        pre ++ .op tid (.engine (.swapAutoPaused true)) env false :: mid)
    (hHealing : Healing tr tid') :
    Resumed om
      (pre ++ [.op tid (.engine (.swapAutoPaused true)) env false])
      mid := by
  rcases hHealing with ⟨⟨env', hRead⟩, hNone⟩
  rw [hSplit] at hRead
  rcases List.mem_append.mp hRead with hBefore | hThen
  · rcases hRun.at_event hSplit with ⟨_, _, _, _, _, hCond, _⟩
    refine absurd ⟨⟨env', hBefore⟩, fun env'' u hMem => ?_⟩
      (hCond.latches tid env tid' rfl)
    apply hNone env'' u
    rw [hSplit]
    exact List.mem_append_left _ hMem
  · rcases List.mem_cons.mp hThen with hEq | hSince
    · cases hEq
    · rcases List.append_of_mem hSince with ⟨m₁, m₂, hMid⟩
      have hAtRead :
          tr =
            (pre ++
              .op tid (.engine (.swapAutoPaused true)) env false ::
                m₁) ++
              .op tid' (.db .getWalletStatus) env' (some .enabled) ::
                m₂ := by
        rw [hSplit, hMid, List.append_assoc, List.cons_append]
      rcases hRun.at_event hAtRead with ⟨_, _, _, _, _, hCond, _⟩
      have hResumed := hCond.reads tid' env' pre m₁ tid env rfl rfl
      rw [hMid]
      exact hResumed.append _

end Resets

------------------------------------------------------------
-- Latched Engines Halt
------------------------------------------------------------

namespace Phase

/- The phases after the engine has been found latched. -/
def pastHalt : Phase → Prop
  | submitting _ => False
  | entering _ => False
  | reading _ _ => False
  | deciding _ _ _ stage => stage = .halting
  | _ => True

theorem pastHalt_settled
    {gate : Gate} {o : Order} {active : List Order} {d : Decision} :
    (settled gate o active d).pastHalt := by
  cases gate <;> cases hAllow : d.isAllow <;>
    simp [settled, pastHalt, hAllow]

end Phase

section Halts

variable {om : OrderManager} {C : OmCond} {s₀ s s' : State}
variable {tr pre post : List OmEvent}
variable {shs : List (Shadow Root Phase)}
variable {tid : Nat} {g g' : Phase} {op : Op} {r : op.Resp}
variable {env : Outcome}

theorem OrderManager.Move.pastHalt
    (hMove : om.Move g op r g')
    (hPast : g.pastHalt) :
    g'.pastHalt := by
  cases hMove with
  | idle hNeutral hOpen => exact hPast
  | announce hOp hMay => exact hPast
  | draw | enter | read => exact hPast.elim
  | load | reject | latch | flag | clear _ => cases hPast
  | @emit gate o active stage rec hId hMay => cases gate <;> trivial
  | check => split <;> trivial
  | status => split <;> trivial
  | take =>
      split
      · trivial
      · exact Phase.pastHalt_settled
  | issue => exact Phase.pastHalt_settled
  | store hId hStatus => split <;> trivial
  | push hId => split <;> trivial
  | close hId hMay => split <;> trivial
  | _ => trivial

/- Whoever finds the latch set is told to halt. -/
theorem halts_of_loaded
    {mid rest : List OmEvent}
    {env' : Outcome} {rec : AuditRecord} {u : Unit}
    (hRun : OmShadowRun om C s₀ tr s shs)
    (hLoad :
      tr =
        pre ++ .op tid (.engine .loadAutoPaused) env true ::
          (mid ++ .op tid (.engine (.emit rec)) env' u :: rest)) :
    ∃ reason, rec.decision = .halt reason := by
  have hEmit :
      tr =
        (pre ++ .op tid (.engine .loadAutoPaused) env true :: mid) ++
          .op tid (.engine (.emit rec)) env' u :: rest := by
    rw [hLoad, List.append_assoc, List.cons_append]
  rcases hRun.at_event hEmit with ⟨s₁, shs₁, _, _, hPre, _, hStep⟩
  have hPast :
      tid < shs₁.length ∧
        ∀ root g, shs₁[tid]? = some ⟨root, some g⟩ → g.pastHalt := by
    refine hPre.since
      (Q := fun _ shs => tid < shs.length ∧
        ∀ root g, shs[tid]? = some ⟨root, some g⟩ → g.pastHalt)
      ?_ ?_ rfl
    · intro s₂ shs₂ s₃ shs₃ _ _ hLoads
      cases hLoads with
      | @op _ _ _ root g g' op env r hPhase hMove hExec =>
          have hAfter :
              (shadowsAfter om shs₂ tid root g'
                  (.engine .loadAutoPaused))[tid]? =
                some ⟨root, some g'⟩ :=
            shadowsAfter_self hPhase
          refine ⟨(List.getElem?_eq_some_iff.mp hAfter).1, ?_⟩
          intro root₁ g₁ hAt
          rw [shadowsAfter] at hAfter
          rw [hAfter] at hAt
          cases hAt
          cases hMove with
          | load => rfl
          | idle hNeutral hOpen => cases hNeutral
          | announce hOp hMay => cases hOp
    · intro _ s₂ shs₂ e s₃ shs₃ _ _ hNext hBefore
      exact hNext.trapped
        (fun _ _ _ _ hT hMove =>
          OrderManager.Move.pastHalt hMove hT)
        hBefore.1 hBefore.2
  cases hStep with
  | op hPhase hMove hExec =>
      have hNow := hPast.2 _ _ hPhase
      cases hMove with
      | idle hNeutral hOpen => cases hNeutral
      | announce hOp hMay => cases hOp
      | emit hId hMay =>
          cases hNow
          cases hDecision : rec.decision with
          | halt reason => exact ⟨reason, rfl⟩
          | allow =>
              rw [hDecision] at hMay
              exact hMay.elim
          | reject reason =>
              rw [hDecision] at hMay
              exact hMay.elim

/- The latch is lifted by a reset only. -/
theorem OrderManager.Move.autoPaused
    (hMove : om.Move g op r g')
    (hExec : State.exec op env s = some (r, s'))
    (hSet : s.latch.autoPaused = true) :
    s'.latch.autoPaused = true ∨
      op = .engine (.storeAutoPaused false) := by
  by_cases hWrites : op.writesLatch = false
  · rw [(exec_latch hWrites hExec).1]
    exact .inl hSet
  · cases hMove with
    | idle hNeutral hOpen =>
        exact absurd (Op.inert_of_neutral hNeutral).writesLatch hWrites
    | announce hOp hMay =>
        exact absurd (Op.inert_of_announces hOp).writesLatch hWrites
    | latch =>
        rw [(exec_engine hExec).2]
        exact .inl rfl
    | flag | resetFlag | take =>
        rw [(exec_engine hExec).2]
        exact .inl hSet
    | resetLatch => exact .inr rfl
    | _ => exact absurd rfl hWrites

/- Only a restart touches the latch from outside. -/
theorem latch_ext
    {e : Ext}
    (hNe : e ≠ .restart)
    (hExt : Ext.exec e s = some s') :
    s'.latch = s.latch := by
  cases e with
  | recv o => rw [(exec_recv hExt).2]
  | submitOrder o | cancelOrder id | setStatus st | closeChannel =>
      cases hExt
      rfl
  | land tx =>
      simp only [Ext.exec] at hExt
      grind
  | restart => exact absurd rfl hNe

/- The engine is latched until a task lifts the latch. -/
theorem latched_or_lifted
    (hUp : ∀ tr s e, C tr s e → e ≠ .ext .restart)
    (hRun : OmShadowRun om C s₀ tr s shs)
    (hSplit :
      tr =
        pre ++ .op tid (.engine (.swapAutoPaused true)) env false ::
          post) :
    s.latch.autoPaused = true ∨
      ∃ tid' env' u,
        .op tid' (.engine (.storeAutoPaused false)) env' u ∈ post := by
  refine hRun.after
    (Q := fun post s _ => s.latch.autoPaused = true ∨
      ∃ tid' env' u,
        .op tid' (.engine (.storeAutoPaused false)) env' u ∈ post)
    ?_ ?_ hSplit
  · intro s₁ shs₁ s₂ shs₂ _ _ hStep
    cases hStep with
    | op hPhase hMove hExec =>
        rw [(exec_engine hExec).2]
        exact .inl rfl
  · intro mid s₁ shs₁ e s₂ shs₂ _ hCond hStep hBefore
    rcases hBefore with hSet | ⟨tid', env', u, hMem⟩
    · cases hStep with
      | op hPhase hMove hExec =>
          rcases OrderManager.Move.autoPaused hMove hExec hSet with
            hStill | rfl
          · exact .inl hStill
          · exact .inr ⟨_, _, _,
              List.mem_append_right _ List.mem_cons_self⟩
      | ext hExt =>
          have hNe := fun hEq => hUp _ _ _ hCond (congrArg Event.ext hEq)
          rw [latch_ext hNe hExt]
          exact .inl hSet
    · exact .inr ⟨tid', env', u, List.mem_append_left _ hMem⟩

end Halts

------------------------------------------------------------
-- Pauses Owed
------------------------------------------------------------

namespace Phase

/- The phase of a task that has just set the latch. -/
def latching : Phase → Prop
  | deciding _ _ _ .latched => True
  | _ => False

/- The phases from raising the flag to asking for it. -/
def raised : Phase → Prop
  | deciding _ _ _ .halting => True
  | healing _ _ _ _ => True
  | raising _ _ _ _ => True
  | _ => False

/- The phase of a task that has taken the flag. -/
def issues : Phase → Prop
  | issuing _ _ _ _ => True
  | _ => False

end Phase

/- The task is in a phase of `T`. -/
def InPhase
    (shs : List (Shadow Root Phase))
    (tid : Nat)
    (T : Phase → Prop) : Prop :=
  ∃ root g, shs[tid]? = some ⟨root, some g⟩ ∧ T g

/-
  After the task `tid` has latched, a pause write has been
  started, or somebody is about to start it.
-/
def PauseOwed
    (tid : Nat)
    (post : List OmEvent)
    (s : State)
    (shs : List (Shadow Root Phase)) : Prop :=
  Issued post ∨
    InPhase shs tid Phase.latching ∨
      (s.latch.needsDbPause = true ∧ InPhase shs tid Phase.raised) ∨
        ∃ tid' env,
          .op tid' (.engine (.swapNeedsDbPause false)) env true ∈
              post ∧
            InPhase shs tid' Phase.issues

section Owed

variable {om : OrderManager} {s₀ s s' : State}
variable {tr pre post : List OmEvent} {c : OmConfig}
variable {shs : List (Shadow Root Phase)}
variable {tid tid' : Nat} {root : Root} {g g' : Phase}
variable {op : Op} {r : op.Resp} {env : Outcome}
variable {T : Phase → Prop}

theorem InPhase.self
    (hPhase : shs[tid]? = some ⟨root, some g⟩)
    (hIn : T g') :
    InPhase (shadowsAfter om shs tid root g' op) tid T :=
  ⟨root, g', shadowsAfter_self hPhase, hIn⟩

theorem InPhase.other
    (hNe : tid' ≠ tid)
    (hIn : InPhase shs tid' T) :
    InPhase (shadowsAfter om shs tid root g' op) tid' T := by
  rcases hIn with ⟨root', g₁, hAt, hT⟩
  exact ⟨root', g₁, shadowsAfter_other hNe hAt, hT⟩

theorem InPhase.ext
    {e : Ext}
    (hNe : e ≠ .restart)
    (hIn : InPhase shs tid T) :
    InPhase (shadowsAfterExt om shs e) tid T := by
  rcases hIn with ⟨root', g₁, hAt, hT⟩
  refine ⟨root', g₁, ?_, hT⟩
  have hLt : tid < shs.length := (List.getElem?_eq_some_iff.mp hAt).1
  rw [shadowsAfterExt_of_ne_restart om shs hNe,
    List.getElem?_append_left hLt]
  exact hAt

/- A task with a phase that is not its last has an operation left. -/
theorem unfinished_of_inPhase
    {C : OmCond}
    (hRun : OmTrackedRun om C s₀ tr c shs)
    (hOpen : ∀ g, T g → ¬g.mayReturn ∧ ¬g.mayCrash)
    (hIn : InPhase shs tid T) :
    Unfinished c tid := by
  rcases hIn with ⟨root, g, hAt, hT⟩
  rcases hRun.task_of_shadow hAt with ⟨⟨root', prog⟩, hTask, _, hTracks⟩
  rcases hOpen g hT with ⟨hNotOver, hNoCrash⟩
  cases prog with
  | none => exact hTracks.elim
  | some p =>
      cases p with
      | done r => exact absurd hTracks hNotOver
      | crash => exact absurd hTracks hNoCrash
      | act op k => exact ⟨root', op, k, hTask⟩

/- Who has latched raises the flag next. -/
theorem OrderManager.Move.latching
    (hMove : om.Move g op r g')
    (hLatching : g.latching) :
    g'.latching ∨
      (op = .engine (.storeNeedsDbPause true) ∧ g'.raised) := by
  cases hMove with
  | idle hNeutral hOpen => exact .inl hLatching
  | announce hOp hMay => exact .inl hLatching
  | flag => exact .inr ⟨rfl, trivial⟩
  | @emit gate o active stage rec hId hMay =>
      cases stage with
      | latched => exact hMay.elim
      | start | opened | counted | halting | passing =>
          exact hLatching.elim
  | @close g o o' r hId hMay =>
      cases g with
      | deciding gate v active stage => exact hMay.elim
      | _ => exact hLatching.elim
  | _ => exact hLatching.elim

/- Who has raised the flag asks for it in the end. -/
theorem OrderManager.Move.raised
    (hMove : om.Move g op r g')
    (hRaised : g.raised) :
    g'.raised ∨ op = .engine (.swapNeedsDbPause false) := by
  cases hMove with
  | idle hNeutral hOpen => exact .inl hRaised
  | announce hOp hMay => exact .inl hRaised
  | @emit gate o active stage rec hId hMay =>
      cases gate <;> exact .inl trivial
  | check => split <;> exact .inl trivial
  | status => split <;> exact .inl trivial
  | resetCount | resetLatch | resetFlag => exact .inl trivial
  | take => exact .inr rfl
  | @close g o o' r hId hMay =>
      cases g with
      | deciding gate v active stage => exact hMay.elim
      | healing v active d stage => exact hMay.elim
      | raising gate v active d => exact hMay.elim
      | _ => exact hRaised.elim
  | _ => exact hRaised.elim

/- Who has taken the flag starts the write next. -/
theorem OrderManager.Move.issues
    (hMove : om.Move g op r g')
    (hIssues : g.issues) :
    g'.issues ∨ ∃ reason n, op = .sys (.spawnPauseWallet reason n) := by
  cases hMove with
  | idle hNeutral hOpen => exact .inl hIssues
  | announce hOp hMay => exact .inl hIssues
  | issue => exact .inr ⟨_, _, rfl⟩
  | @close g o o' r hId hMay =>
      cases g with
      | issuing gate v active d => exact hMay.elim
      | _ => exact hIssues.elim
  | _ => exact hIssues.elim

/- The flag stays up until it is cleared by a reset or taken. -/
theorem OrderManager.Move.needsDbPause
    (tid : Nat)
    (hMove : om.Move g op r g')
    (hExec : State.exec op env s = some (r, s'))
    (hNeeds : s.latch.needsDbPause = true) :
    (s'.latch.needsDbPause = true ∧
        op ≠ .engine (.swapNeedsDbPause false)) ∨
      op = .engine (.storeNeedsDbPause false) ∨
        ((.op tid op env r : OmEvent) =
            .op tid (.engine (.swapNeedsDbPause false)) env true ∧
          g'.issues) := by
  by_cases hWrites : op.writesLatch = false
  · rw [(exec_latch hWrites hExec).2]
    refine .inl ⟨hNeeds, ?_⟩
    rintro rfl
    cases hWrites
  · cases hMove with
    | idle hNeutral hOpen =>
        exact absurd (Op.inert_of_neutral hNeutral).writesLatch hWrites
    | announce hOp hMay =>
        exact absurd (Op.inert_of_announces hOp).writesLatch hWrites
    | latch | resetLatch =>
        rw [(exec_engine hExec).2]
        exact .inl ⟨hNeeds, fun hEq => by cases hEq⟩
    | flag =>
        rw [(exec_engine hExec).2]
        exact .inl ⟨rfl, fun hEq => by cases hEq⟩
    | resetFlag => exact .inr (.inl rfl)
    | take =>
        have hTaken := (exec_engine hExec).1
        rw [hTaken]
        right
        right
        simp [EngineOp.exec, hNeeds, Phase.issues]
    | _ => exact absurd rfl hWrites

/- A pause stays owed, unless a reset clears the flag. -/
theorem PauseOwed.afterOp
    (hOwed : PauseOwed tid post s shs)
    (hPhase : shs[tid']? = some ⟨root, some g⟩)
    (hMove : om.Move g op r g')
    (hExec : State.exec op env s = some (r, s'))
    (hReset :
      op = .engine (.storeNeedsDbPause false) → Issued post) :
    PauseOwed tid (post ++ [.op tid' op env r]) s'
      (shadowsAfter om shs tid' root g' op) := by
  rcases hOwed with
    hIssued | hLatching | ⟨hNeeds, hRaised⟩ | ⟨tid₁, env₁, hMem, hIssues⟩
  · exact .inl (hIssued.append _)
  · by_cases hTid : tid = tid'
    · subst hTid
      rcases hLatching with ⟨root₁, g₁, hAt, hT⟩
      rw [hPhase] at hAt
      cases hAt
      rcases OrderManager.Move.latching hMove hT with
        hStill | ⟨rfl, hNow⟩
      · exact .inr (.inl (.self hPhase hStill))
      · refine .inr (.inr (.inl ⟨?_, .self hPhase hNow⟩))
        rw [(exec_engine hExec).2]
        rfl
    · exact .inr (.inl (.other hTid hLatching))
  · have hFlag :=
      OrderManager.Move.needsDbPause tid' hMove hExec hNeeds
    rcases hFlag with ⟨hUp, hNotTaken⟩ | hCleared | ⟨hEvent, hIssues⟩
    · refine .inr (.inr (.inl ⟨hUp, ?_⟩))
      by_cases hTid : tid = tid'
      · subst hTid
        rcases hRaised with ⟨root₁, g₁, hAt, hT⟩
        rw [hPhase] at hAt
        cases hAt
        rcases OrderManager.Move.raised hMove hT with hStill | hTaken
        · exact .self hPhase hStill
        · exact absurd hTaken hNotTaken
      · exact .other hTid hRaised
    · exact .inl ((hReset hCleared).append _)
    · refine .inr (.inr (.inr ⟨tid', env, ?_, .self hPhase hIssues⟩))
      rw [hEvent]
      exact List.mem_append_right _ List.mem_cons_self
  · by_cases hTid : tid₁ = tid'
    · subst hTid
      rcases hIssues with ⟨root₁, g₁, hAt, hT⟩
      rw [hPhase] at hAt
      cases hAt
      rcases OrderManager.Move.issues hMove hT with
        hStill | ⟨reason, n, rfl⟩
      · exact .inr (.inr (.inr ⟨tid₁, env₁,
          List.mem_append_left _ hMem, .self hPhase hStill⟩))
      · exact .inl ⟨tid₁, reason, n, env, r,
          List.mem_append_right _ List.mem_cons_self⟩
    · exact .inr (.inr (.inr ⟨tid₁, env₁,
        List.mem_append_left _ hMem, .other hTid hIssues⟩))

/- After a latch a pause is owed or has been issued. -/
theorem pauseOwed_of_latched
    (hRun : OmShadowRun om (HealsLate om) s₀ tr s shs)
    (hSplit :
      tr =
        pre ++ .op tid (.engine (.swapAutoPaused true)) env false ::
          post) :
    PauseOwed tid post s shs := by
  refine hRun.after (Q := fun post s shs => PauseOwed tid post s shs)
    ?_ ?_ hSplit
  · intro s₁ shs₁ s₂ shs₂ _ _ hStep
    cases hStep with
    | op hPhase hMove hExec =>
        refine .inr (.inl (.self hPhase ?_))
        cases hMove with
        | latch => trivial
        | idle hNeutral hOpen => cases hNeutral
        | announce hOp hMay => cases hOp
  · intro mid s₁ shs₁ e s₂ shs₂ hPre hCond hStep hOwed
    cases hStep with
    | op hPhase hMove hExec =>
        refine hOwed.afterOp hPhase hMove hExec ?_
        rintro rfl
        refine issued_of_resumed
          (resumed_of_healing hPre rfl
            (healing_of_resetting hPre hPhase ?_))
        cases hMove with
        | resetFlag => trivial
        | idle hNeutral hOpen => cases hNeutral
        | announce hOp hMay => cases hOp
    | @ext _ _ e hExt =>
        have hNe : e ≠ .restart :=
          fun hEq => hCond.up (congrArg Event.ext hEq)
        rcases hOwed with
          hIssued | hLatching | ⟨hNeeds, hRaised⟩ |
            ⟨tid₁, env₁, hMem, hIssues⟩
        · exact .inl (hIssued.append _)
        · exact .inr (.inl (hLatching.ext hNe))
        · rw [← latch_ext hNe hExt] at hNeeds
          exact .inr (.inr (.inl ⟨hNeeds, hRaised.ext hNe⟩))
        · exact .inr (.inr (.inr ⟨tid₁, env₁,
            List.mem_append_left _ hMem, hIssues.ext hNe⟩))

/- A pause that is owed is started by a task still at work. -/
theorem PauseOwed.issued
    (hRun : OmTrackedRun om (HealsLate om) s₀ tr c shs)
    (hOwed : PauseOwed tid post c.state shs) :
    Issued post ∨ Unfinished c tid ∨
      ∃ tid' env,
        .op tid' (.engine (.swapNeedsDbPause false)) env true ∈ post ∧
          Unfinished c tid' := by
  have hLatching :
      ∀ g : Phase, g.latching → ¬g.mayReturn ∧ ¬g.mayCrash := by
    intro g hT
    cases g with
    | deciding gate o active stage =>
        cases stage with
        | latched => exact ⟨id, id⟩
        | _ => exact hT.elim
    | _ => exact hT.elim
  have hRaised : ∀ g : Phase, g.raised → ¬g.mayReturn ∧ ¬g.mayCrash := by
    intro g hT
    cases g with
    | deciding gate o active stage =>
        cases stage with
        | halting => exact ⟨id, id⟩
        | _ => exact hT.elim
    | healing | raising => exact ⟨id, id⟩
    | _ => exact hT.elim
  have hIssuing : ∀ g : Phase, g.issues → ¬g.mayReturn ∧ ¬g.mayCrash := by
    intro g hT
    cases g with
    | issuing gate o active d => exact ⟨id, id⟩
    | _ => exact hT.elim
  rcases hOwed with
    hIssued | hIn | ⟨_, hIn⟩ | ⟨tid', env, hMem, hIn⟩
  · exact .inl hIssued
  · exact .inr (.inl (unfinished_of_inPhase hRun hLatching hIn))
  · exact .inr (.inl (unfinished_of_inPhase hRun hRaised hIn))
  · exact .inr (.inr ⟨tid', env, hMem,
      unfinished_of_inPhase hRun hIssuing hIn⟩)

end Owed

------------------------------------------------------------
-- Pauses Last
------------------------------------------------------------

section Lasts

variable {om : OrderManager} {s₀ s : State}
variable {tr pre : List OmEvent}
variable {shs : List (Shadow Root Phase)}
variable {tid : Nat} {env : Outcome}

/- Whoever lifts the latch does so after the wallet was resumed. -/
theorem resumed_of_lifted
    {mid rest : List OmEvent}
    {tid' : Nat} {env' : Outcome} {u : Unit}
    (hRun : OmShadowRun om (HealsLate om) s₀ tr s shs)
    (hSplit :
      tr =
        pre ++ .op tid (.engine (.swapAutoPaused true)) env false ::
          (mid ++
            .op tid' (.engine (.storeAutoPaused false)) env' u ::
              rest)) :
    Resumed om
      (pre ++ [.op tid (.engine (.swapAutoPaused true)) env false])
      mid := by
  have hLift :
      tr =
        (pre ++ .op tid (.engine (.swapAutoPaused true)) env false ::
            mid) ++
          .op tid' (.engine (.storeAutoPaused false)) env' u ::
            rest := by
    rw [hSplit, List.append_assoc, List.cons_append]
  rcases hRun.at_event hLift with ⟨s₁, shs₁, _, _, hPre, _, hStep⟩
  cases hStep with
  | op hPhase hMove hExec =>
      refine resumed_of_healing hPre rfl
        (healing_of_resetting hPre hPhase ?_)
      cases hMove with
      | resetLatch => trivial
      | idle hNeutral hOpen => cases hNeutral
      | announce hOp hMay => cases hOp

/- Until the wallet is resumed, every evaluation is told to halt. -/
theorem halts_of_not_resumed
    {mid rest : List OmEvent}
    {tid' : Nat} {env₁ env₂ : Outcome} {b : Bool}
    {rec : AuditRecord} {u : Unit}
    (hRun : OmShadowRun om (HealsLate om) s₀ tr s shs)
    (hSplit :
      tr =
        pre ++ .op tid (.engine (.swapAutoPaused true)) env false ::
          (mid ++ .op tid' (.engine .loadAutoPaused) env₁ b :: rest))
    (hHeld :
      ¬Resumed om
        (pre ++ [.op tid (.engine (.swapAutoPaused true)) env false])
        mid)
    (hMem : .op tid' (.engine (.emit rec)) env₂ u ∈ rest) :
    ∃ reason, rec.decision = .halt reason := by
  have hLoad :
      tr =
        (pre ++ .op tid (.engine (.swapAutoPaused true)) env false ::
            mid) ++
          .op tid' (.engine .loadAutoPaused) env₁ b :: rest := by
    rw [hSplit, List.append_assoc, List.cons_append]
  rcases hRun.at_event hLoad with ⟨s₁, shs₁, _, _, hPre, _, hStep⟩
  have hSet : s₁.latch.autoPaused = true := by
    rcases latched_or_lifted (fun _ _ _ hCond => hCond.up) hPre rfl with
      hStill | ⟨tid₁, env₃, u₁, hLift⟩
    · exact hStill
    · rcases List.append_of_mem hLift with ⟨m₁, m₂, hMid⟩
      have hResumed :=
        resumed_of_lifted hPre
          (congrArg
            (fun m =>
              pre ++
                .op tid (.engine (.swapAutoPaused true)) env false ::
                  m)
            hMid)
      rw [hMid] at hHeld
      exact absurd (hResumed.append _) hHeld
  cases hStep with
  | op hPhase hMove hExec =>
      have hRead := (exec_engine hExec).1
      have hTrue : b = true := by
        rw [hRead]
        exact hSet
      subst hTrue
      rcases List.append_of_mem hMem with ⟨r₁, r₂, hRest⟩
      rw [hRest] at hLoad
      exact halts_of_loaded hRun hLoad

end Lasts

/-
  In every run whose submissions heal late, whatever the
  interleaving, the auto-pause is durable.
-/
theorem pauseDurable_of_healsLate
    (om : OrderManager)
    (db : Database)
    (chain : Chain)
    (seenIds : List OrderId)
    {tr : List OmEvent}
    {c : OmConfig}
    (hRun :
      Machine.Run om.machine (HealsLate om)
        (State.boot db chain seenIds) tr c) :
    PauseDurable om tr c := by
  rcases Protocol.trackedRun_of_run om.follows hRun with
    ⟨shs, hTracked⟩
  have hShadow := hTracked.shadowRun
  intro pre post tid env hSplit
  constructor
  · exact (pauseOwed_of_latched hShadow hSplit).issued hTracked
  · intro mid rest tid' env₁ b hLoad hHeld rec env₂ u hMem
    rw [hLoad] at hSplit
    exact halts_of_not_resumed hShadow hSplit hHeld hMem
  · intro mid rest tid' env₁ u hLift
    rw [hLift] at hSplit
    exact resumed_of_lifted hShadow hSplit

/- The trace latches, with no restart and no row read as enabled. -/
def latchesUnhealed (tr : List OmEvent) : Bool :=
  (tr.any fun e =>
    match e with
    | .op _ (.engine (.swapAutoPaused true)) _ false => true
    | _ => false) &&
  tr.all fun e =>
    match e with
    | .ext .restart => false
    | .op _ (.db .getWalletStatus) _ (some .enabled) => false
    | _ => true

/-
  An order is accepted and refused for its sandwich risk, the
  pause is written, and a later submission finds the latch.
-/
def lastingSchedule : List (Machine.Choice Outcome Ext) :=
  [.ext (.submitOrder (sampleOrder "" 1000))] ++
    acceptSteps 0 "a" [] ++
    [.ext (.recv (sampleOrder "a" 1000))] ++
    steps 1
      [.plain, .plain, .plain, .risk 100, .curve (.error "no curve"),
        .iteration
          [{ sampleOrder "a" 1000 with status := .validating }],
        .plain, .plain, .plain, .plain, .plain, .plain, .plain,
        .plain] ++
    steps 2 [.stmt .done] ++
    [.ext (.submitOrder (sampleOrder "" 1000))] ++
    steps 3
      [.fresh "b",
        .iteration
          [{ sampleOrder "a" 1000 with status := .validating }],
        .plain, .plain, .plain, .query true, .plain]

/- A pause that has been written keeps the engine halted. -/
theorem exists_pauseDurable :
    ∃ (tr : List OmEvent) (c : OmConfig),
      (∃ tid env,
        .op tid (.engine (.swapAutoPaused true)) env false ∈ tr) ∧
        c.state.latch.autoPaused = true ∧
          c.state.db.registryStatus = some .paused ∧
            PauseDurable strictManager tr c := by
  have hPlay :=
    Machine.exists_run_of_play strictManager.machine
      (sampleState .enabled) lastingSchedule
      (fun tr c =>
        latchesUnhealed tr &&
          decide (c.state.latch.autoPaused = true ∧
            c.state.db.registryStatus = some .paused))
      (by decide +kernel)
  rcases hPlay with ⟨tr, c, hRun, hShown⟩
  simp only [latchesUnhealed, Bool.and_eq_true, decide_eq_true_eq]
    at hShown
  rcases hShown with ⟨⟨hLatches, hUnhealed⟩, hSet, hPaused⟩
  have hNoRestart : .ext .restart ∉ tr := by
    intro hMem
    cases List.all_eq_true.mp hUnhealed _ hMem
  have hNoRead :
      ∀ tid env,
        .op tid (.db .getWalletStatus) env (some .enabled) ∉ tr := by
    intro tid env hMem
    cases List.all_eq_true.mp hUnhealed _ hMem
  refine ⟨tr, c, ?_, hSet, hPaused,
    pauseDurable_of_healsLate strictManager _ _ _ (hRun.meets ?_)⟩
  · rcases List.any_eq_true.mp hLatches with ⟨e, hMem, hLatch⟩
    split at hLatch
    · exact ⟨_, _, hMem⟩
    · cases hLatch
  · intro pre post e c' hSplit _
    constructor
    · rintro rfl
      apply hNoRestart
      rw [hSplit]
      exact List.mem_append_right _ List.mem_cons_self
    · rintro tid env _ _ _ _ rfl _
      refine absurd ?_ (hNoRead tid env)
      rw [hSplit]
      exact List.mem_append_right _ List.mem_cons_self
    · rintro tid env tid' _ ⟨⟨env', hRead⟩, _⟩
      apply hNoRead tid' env'
      rw [hSplit]
      exact List.mem_append_left _ hRead

end Pumpy
