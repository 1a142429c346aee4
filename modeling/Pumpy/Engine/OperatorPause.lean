import Pumpy.Engine.Landing

/-
  Operator pauses.  The registry row is only read by a
  submission whose engine has latched by itself, so a pause
  written by the operator does not keep orders from trading;
  it does as long as the execution gate refuses every order
  handed over meanwhile for another reason.

  Key definitions include:
    * `HandedWhilePaused`
    * `PauseHolds`
    * `RefusedWhilePaused`

  The main results are `not_pauseHolds` and
  `pauseHolds_of_refusedWhilePaused`.
-/

------------------------------------------------------------
-- Paused Hand-Overs
------------------------------------------------------------

namespace Pumpy

open Interleaving

/-
  The task was started by a `submit_order` call that came in
  after the operator had paused or halted the wallet, and the
  operator has not enabled it since.
-/
def HandedWhilePaused
    (om : OrderManager)
    (tr : List OmEvent)
    (tid : Nat) : Prop :=
  ∃ pre mid post st o,
    tr =
      pre ++ .ext (.setStatus st) ::
        (mid ++ .ext (.submitOrder o) :: post) ∧
    st ≠ .enabled ∧
    .ext (.setStatus .enabled) ∉ mid ∧
    .ext (.setStatus .enabled) ∉ post ∧
    tid =
      (om.machine.rootsIn (pre ++ .ext (.setStatus st) :: mid)).length

/-
  While the wallet stays paused, no trade is submitted for an
  order handed over after the pause.
-/
def PauseHolds
    (om : OrderManager)
    (tr : List OmEvent) : Prop :=
  ∀ pre post tid op env r tid' id,
    tr = pre ++ .op tid op env r :: post →
      HandedWhilePaused om pre tid' → Drawn pre tid' id →
        passId (om.machine.rootsIn tr) tid = some id →
          op.submits = none

------------------------------------------------------------
-- A Trade of a Paused Wallet
------------------------------------------------------------

def enables : OmEvent → Bool
  | .ext (.setStatus .enabled) => true
  | _ => false

def draws (tid : Nat) (id : OrderId) : OmEvent → Bool
  | .op tid' (.sys .newUuid) _ id' => tid' = tid ∧ id' = id
  | _ => false

/-
  The trace pauses the wallet, hands an order over, draws `id`
  for it, and ends with a trade of it.
-/
def tradesWhilePaused
    (om : OrderManager)
    (id : OrderId)
    (tr : List OmEvent) : Bool :=
  match tr with
  | .ext (.setStatus .paused) :: .ext (.submitOrder _) :: rest =>
      match rest.getLast? with
      | some (.op tid op _ _) =>
          op.submits.isSome
            && passId (om.machine.rootsIn tr) tid = some id
            && !rest.dropLast.any enables
            && rest.dropLast.any (draws 0 id)
      | _ => false
  | _ => false

theorem not_enabled_of_enables
    {tr : List OmEvent}
    (hNone : tr.any enables = false) :
    .ext (.setStatus .enabled) ∉ tr := by
  intro hMem
  have hSome : tr.any enables = true :=
    List.any_eq_true.mpr ⟨_, hMem, rfl⟩
  rw [hNone] at hSome
  cases hSome

theorem drawn_of_draws
    {tr : List OmEvent} {tid : Nat} {id : OrderId}
    (hDraws : tr.any (draws tid id) = true) :
    Drawn tr tid id := by
  rcases List.any_eq_true.mp hDraws with ⟨e, hMem, hEvent⟩
  unfold draws at hEvent
  split at hEvent
  · have hBoth := of_decide_eq_true hEvent
    rw [hBoth.1, hBoth.2] at hMem
    exact ⟨_, hMem⟩
  · cases hEvent

/- An order that comes in right after the pause. -/
theorem handedWhilePaused_of_head
    {om : OrderManager} {o : Order} {tr : List OmEvent}
    (hNone : tr.any enables = false) :
    HandedWhilePaused om
      (.ext (.setStatus .paused) :: .ext (.submitOrder o) :: tr) 0 :=
  ⟨[], [], tr, .paused, o, rfl, by decide, List.not_mem_nil,
    not_enabled_of_enables hNone, rfl⟩

/- Such a trace breaks the pause. -/
theorem not_pauseHolds_of_trades
    {om : OrderManager} {id : OrderId} {tr : List OmEvent}
    (hTrades : tradesWhilePaused om id tr = true) :
    ¬PauseHolds om tr := by
  unfold tradesWhilePaused at hTrades
  split at hTrades
  · rename_i o rest
    split at hTrades
    · rename_i tid op env r hLast
      simp only [Bool.and_eq_true, Bool.not_eq_true',
        decide_eq_true_eq] at hTrades
      rcases hTrades with ⟨⟨⟨hSubmits, hId⟩, hNotEnabled⟩, hDraws⟩
      have hRest : rest = rest.dropLast ++ [.op tid op env r] := by
        rw [List.dropLast_append_getLast? _ hLast]
      have hSplit :
          (.ext (.setStatus .paused) :: .ext (.submitOrder o) :: rest :
              List OmEvent) =
            (.ext (.setStatus .paused) :: .ext (.submitOrder o) ::
              rest.dropLast) ++ .op tid op env r :: [] := by
        conv_lhs => rw [hRest]
        rfl
      have hHanded :
          HandedWhilePaused om
            (.ext (.setStatus .paused) :: .ext (.submitOrder o) ::
              rest.dropLast) 0 :=
        handedWhilePaused_of_head hNotEnabled
      have hDrawn :
          Drawn
            (.ext (.setStatus .paused) :: .ext (.submitOrder o) ::
              rest.dropLast) 0 id := by
        rcases drawn_of_draws hDraws with ⟨env', hMem⟩
        exact ⟨env', List.mem_cons_of_mem _ (List.mem_cons_of_mem _ hMem)⟩
      intro hHolds
      have hNone := hHolds _ _ tid op env r 0 id hSplit hHanded hDrawn hId
      rw [hNone] at hSubmits
      cases hSubmits
    · cases hTrades
  · cases hTrades

/-
  The operator pauses the wallet of an engine that has just
  started; an order comes in, is accepted, and is traded.
-/
def pausedTradeSchedule : List (Machine.Choice Outcome Ext) :=
  [.ext (.setStatus .paused),
    .ext (.submitOrder (sampleOrder "" 1000))] ++
    acceptSteps 0 "a" [] ++
    [.ext (.recv (sampleOrder "a" 1000))] ++
    gateSteps 1
      [{ sampleOrder "a" 1000 with status := .validating }] ++
    steps 1
      [.time 0, .plain, .unit (.ok ()), .deadline false,
        .blockhash (.ok 7), .deadline false,
        .submit true (.ok "signature")]

/- A paused wallet trades. -/
theorem not_pauseHolds :
    ¬∀ (om : OrderManager) (db : Database) (chain : Chain)
      (seenIds : List OrderId) (tr : List OmEvent) (c : OmConfig),
      Machine.Run om.machine Machine.anyStep
          (State.boot db chain seenIds) tr c →
        PauseHolds om tr := by
  intro hAll
  have hPlay :=
    Machine.exists_run_of_play sampleManager.machine
      (sampleState .enabled) pausedTradeSchedule
      (fun tr _ => tradesWhilePaused sampleManager "a" tr)
      (by decide +kernel)
  rcases hPlay with ⟨tr, c, hRun, hTrades⟩
  exact not_pauseHolds_of_trades hTrades
    (hAll sampleManager _ _ _ tr c hRun)

------------------------------------------------------------
-- Refused Orders
------------------------------------------------------------

/-
  Whenever the execution gate consults the engine for an order
  handed over while paused, the latch is set or the order
  breaks a rule.
-/
def RefusedWhilePaused
    (om : OrderManager) : OmCond :=
  fun tr s e =>
    ∀ tid env b o tid',
      e = .op tid (.engine .loadAutoPaused) env b →
        (om.machine.rootsIn tr)[tid]? = some (.processOrder o) →
          HandedWhilePaused om tr tid' → Drawn tr tid' o.id →
            s.latch.autoPaused = true ∨
              ∀ active, ActiveRead tr tid active →
                ¬om.Cleared .execution o active

section Pause

variable {om : OrderManager} {C : OmCond}
variable {db : Database} {chain : Chain} {seenIds : List OrderId}
variable {tr : List OmEvent} {s s' : State}
variable {shs : List (Shadow Root Phase)}
variable {tid : Nat} {root : Root} {g g' : Phase}

/- A task that has been started is not handed over later. -/
theorem HandedWhilePaused.of_append
    {tr' : List OmEvent}
    (h : HandedWhilePaused om (tr ++ tr') tid)
    (hStarted : tid < (om.machine.rootsIn tr).length) :
    HandedWhilePaused om tr tid := by
  rcases h with
    ⟨pre, mid, post, st, o, hSplit, hPaused, hMid, hPost, hTid⟩
  have hAssoc :
      tr ++ tr' =
        (pre ++ .ext (.setStatus st) :: mid) ++
          .ext (.submitOrder o) :: post := by
    simpa using hSplit
  rcases List.append_eq_append_iff.mp hAssoc with
    ⟨late, hPre, _⟩ | ⟨early, hOld, hRest⟩
  · rw [hTid, hPre, Machine.rootsIn_append, List.length_append]
      at hStarted
    omega
  · cases early with
    | nil =>
        rw [List.append_nil] at hOld
        rw [hOld, hTid] at hStarted
        exact absurd hStarted (Nat.lt_irrefl _)
    | cons e early =>
        rcases List.cons.inj hRest with ⟨hHead, hTail⟩
        refine ⟨pre, mid, early, st, o, ?_, hPaused, hMid, ?_, hTid⟩
        · rw [hOld, ← hHead]
          simp
        · intro hMem
          rw [hTail] at hPost
          exact hPost (List.mem_append_left _ hMem)

/- The submission an order in a pass was drawn by, at that time. -/
theorem drawn_of_pass
    {tr' : List OmEvent} {C' : OmCond} {s₁ : State}
    {shs₁ : List (Shadow Root Phase)} {o : Order} {tid' : Nat}
    (hRun :
      OmShadowRun om C (State.boot db chain seenIds) tr s shs)
    (hLater :
      OmShadowRun om C' (State.boot db chain seenIds) (tr ++ tr') s₁ shs₁)
    (hRoot : (om.machine.rootsIn tr)[tid]? = some (.processOrder o))
    (hDrawn : Drawn (tr ++ tr') tid' o.id) :
    Drawn tr tid' o.id := by
  rcases (origin_of_shadowRun hRun).2 o (List.mem_of_getElem? hRoot)
    with ⟨tid'', _, _, _, _, _, hOrigin, _⟩
  have hSame : tid' = tid'' :=
    drawn_unique hLater hDrawn (hOrigin.append _)
  rw [hSame]
  exact hOrigin

/-
  As long as the execution gate refuses what was handed over
  while paused, in any interleaving and across restarts, a
  paused wallet does not trade.
-/
theorem pauseHolds_of_refusedWhilePaused
    (om : OrderManager)
    (db : Database)
    (chain : Chain)
    (seenIds : List OrderId)
    {tr : List OmEvent}
    {c : OmConfig}
    (hRun :
      Machine.Run om.machine (RefusedWhilePaused om)
        (State.boot db chain seenIds) tr c) :
    PauseHolds om tr := by
  rcases Protocol.shadowRun_of_run om.follows hRun with
    ⟨shs, hShadow⟩
  intro pre post tid op env r tid' id hSplit hHanded hDrawn hPass
  by_contra hSome
  rcases Option.ne_none_iff_exists'.mp hSome with ⟨tx, hSubmits⟩
  rcases letThrough_of_submits hShadow hSplit hSubmits with
    ⟨o, active, pre₀, env₀, post₀, s₀, shs₀, rfl, hPre₀, hCond,
      hThrough⟩
  rcases hShadow.at_event hSplit with ⟨_, _, _, _, hPre, _, _⟩
  have hRoot :
      (om.machine.rootsIn tr)[tid]? = some (.processOrder o) := by
    rw [hSplit, List.append_assoc]
    exact om.machine.root_append hThrough.pass _
  have hId : o.id = id := by
    simpa only [passId, hRoot, Option.some.injEq] using hPass
  subst hId
  have hDrawn₀ : Drawn pre₀ tid' o.id :=
    drawn_of_pass hPre₀ hPre hThrough.pass hDrawn
  have hStarted : tid' < (om.machine.rootsIn pre₀).length := by
    rcases hDrawn₀ with ⟨env', hMem⟩
    have hLt := hPre₀.tid_lt hMem
    rwa [← hPre₀.roots_eq, List.length_map]
  have hHanded₀ : HandedWhilePaused om pre₀ tid' :=
    hHanded.of_append hStarted
  rcases hCond tid env₀ false o tid' rfl hThrough.pass hHanded₀ hDrawn₀
    with hLatched | hBroken
  · rw [hThrough.latch] at hLatched
    cases hLatched
  · exact hBroken active hThrough.read hThrough.cleared

/- A pass looks at the latch at its gate. -/
def passGate (om : OrderManager) (tr : List OmEvent) : OmEvent → Bool
  | .op tid (.engine .loadAutoPaused) _ _ =>
      match (om.machine.rootsIn tr)[tid]? with
      | some (.processOrder _) => true
      | _ => false
  | _ => false

/- Every pass finds the latch set. -/
def LatchedGates (om : OrderManager) : OmCond :=
  fun tr s e => passGate om tr e = true → s.latch.autoPaused = true

instance
    (om : OrderManager)
    (tr : List OmEvent)
    (s : State)
    (e : OmEvent) :
    Decidable (LatchedGates om tr s e) :=
  inferInstanceAs (Decidable (_ → _))

theorem refusedWhilePaused_of_latchedGates
    {e : OmEvent}
    (hLatched : LatchedGates om tr s e) :
    RefusedWhilePaused om tr s e := by
  rintro tid env b o tid' rfl hPass _ _
  left
  apply hLatched
  unfold passGate
  dsimp only
  rw [hPass]

/- Task `tid` has found the latch set. -/
def findsLatch (tid : Nat) (tr : List OmEvent) : Bool :=
  tr.any fun e =>
    match e with
    | .op tid' (.engine .loadAutoPaused) _ true => decide (tid' = tid)
    | _ => false

/-
  After the pause one order is accepted; the next is rejected,
  which latches the engine; the pass of the first is then halted
  at the execution gate.
-/
def refusedSchedule : List (Machine.Choice Outcome Ext) :=
  [.ext (.setStatus .paused),
    .ext (.submitOrder (sampleOrder "" 1000))] ++
    acceptSteps 0 "a" [] ++
    [.ext (.submitOrder (sampleOrder "" 0))] ++
    steps 1
      [.fresh "b", .iteration [], .plain, .plain, .plain, .plain,
        .plain, .plain, .query true, .plain, .plain, .plain] ++
    [.ext (.recv (sampleOrder "a" 1000))] ++
    steps 3
      [.plain, .plain, .plain, .risk 0, .curve (.error "no curve"),
        .iteration
          [{ sampleOrder "a" 1000 with status := .validating }],
        .plain, .plain, .plain, .time 0, .stmt .done, .plain, .plain,
        .plain, .plain, .plain, .plain]

/- The trace begins with the pause and an order under `id`. -/
def beginsPaused (id : OrderId) : List OmEvent → Bool
  | .ext (.setStatus .paused) :: .ext (.submitOrder _) :: rest =>
      !rest.any enables && rest.any (draws 0 id)
  | _ => false

theorem handed_of_beginsPaused
    {id : OrderId}
    (hBegins : beginsPaused id tr = true) :
    HandedWhilePaused om tr 0 ∧ Drawn tr 0 id := by
  unfold beginsPaused at hBegins
  split at hBegins
  · rw [Bool.and_eq_true, Bool.not_eq_true'] at hBegins
    rcases drawn_of_draws hBegins.2 with ⟨env, hMem⟩
    exact ⟨handedWhilePaused_of_head hBegins.1, env,
      List.mem_cons_of_mem _ (List.mem_cons_of_mem _ hMem)⟩
  · cases hBegins

/- The order that was accepted while paused is refused at its gate. -/
theorem exists_pauseHolds :
    ∃ (om : OrderManager) (tr : List OmEvent) (c : OmConfig),
      HandedWhilePaused om tr 0 ∧ Drawn tr 0 "a" ∧
        passId (om.machine.rootsIn tr) 3 = some "a" ∧
          findsLatch 3 tr = true ∧
            c.state.db.registryStatus = some .paused ∧
              PauseHolds om tr := by
  let om : OrderManager :=
    { sampleManager with decisionEngine := ⟨1, .dev⟩ }
  have hPlay :=
    Machine.exists_run_of_playUnder om.machine (LatchedGates om)
      (sampleState .enabled) refusedSchedule
      (fun tr c =>
        beginsPaused "a" tr &&
          decide (passId (om.machine.rootsIn tr) 3 = some "a" ∧
            findsLatch 3 tr = true ∧
              c.state.db.registryStatus = some .paused))
      (by decide +kernel)
  rcases hPlay with ⟨tr, c, hRun, hShown⟩
  rw [Bool.and_eq_true, decide_eq_true_eq] at hShown
  rcases hShown with ⟨hBegins, hPass, hFinds, hPaused⟩
  rcases handed_of_beginsPaused hBegins with ⟨hHanded, hDrawn⟩
  refine ⟨om, tr, c, hHanded, hDrawn, hPass, hFinds, hPaused, ?_⟩
  apply pauseHolds_of_refusedWhilePaused om
  exact hRun.mono fun _ _ _ => refusedWhilePaused_of_latchedGates

end Pause

end Pumpy
